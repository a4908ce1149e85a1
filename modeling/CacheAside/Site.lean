import CacheAside.Api
import CacheAside.Invalidation
import CacheAside.Http.Message
import CacheAside.Http.Route
import CacheAside.Metrics.Exposition
import CacheAside.Settings

/-! # The service over HTTP

Every request has an id, its own or a spare one, that stands in memory only while the request is
answered. A response that was found inside is counted, written down, and brings the id back; a report
found on the way becomes such a response, with the status of its reporter. Any other failure goes on to
the outside, where it is written down and answered as an internal error. Requests come from the origin of
the site, so that none is answered before it reaches the routes, and no response says which other origins
may read it. -/

namespace CacheAside
set_option autoImplicit false

open Http (Request Response Target Route)

structure Site where
  /-- The name of the service, under which the site writes down what happens. -/
  name : String
  features : Http.Features
  /-- The commit that the service was built from, if it is known. -/
  commit : Option String

namespace Site

def version : String := "1.0.0"

def note (s : Site) (level : Level) (event : String) (fields : List (String × Json))
    (failure : Option Failure) : Op Unit :=
  Op.note ⟨s.name, level, event, fields, failure⟩

/-! ## Start and stop -/

/-- Starts the store. Without a store the service starts all the same. -/
def start (s : Site) : Op Unit := do
  tryCatch Store.start fun
    | .reported r =>
      if r.kind = .store then s.note .warning "Starting without Redis" [] (some (.reported r))
      else throw (.reported r)
    | f => throw f
  s.note .info "Cache service started" [] none

def stop (s : Site) : Op Unit := do
  Store.stop
  s.note .info "Cache service stopped" [] none

/-- A whole life of the service without a request. -/
def live (s : Site) : Op Unit := do
  s.start
  s.stop

/-! ## Diagnostics -/

/-- What the service depends on, and whether it is there. -/
def dependencies (s : Site) : Op (List (String × Bool)) := do
  if s.features.cache then return [("redis", ← Store.isHealthy)] else return []

def health (s : Site) : Op Response := do
  let needs ← s.dependencies
  let status := if needs.all Prod.snd then "ok" else "degraded"
  Op.collect (·.recordHealth status)
  let m ← get
  return .json 200 (.obj [("service", .str s.name), ("status", .str status), ("uptime_seconds", .float m.uptime),
    ("dependencies", .obj (needs.map fun (name, there) => (name, .str (if there then "ok" else "error")))),
    ("version", .str version), ("commit", .str (s.commit.getD "unknown"))])

def metrics : Op Response := do
  let lines := ((← get).collector.map Collector.lines).getD []
  return .plain 200 "text/plain" (.lines lines)

def root : Response :=
  .json 200 (.obj [("service", .str "cache"), ("message", .str "Market Cache Layer - Cache Service"),
    ("version", .str version), ("capabilities", Json.strings ["market_data", "news", "metrics"])])

/-- The state of the cache and of all that hangs on it. -/
def cacheInfo : Op Response := do
  let server ← Cache.serverInfo
  let metrics ← Cache.metrics
  let config ← Cache.summary
  let m ← get
  return .json 200 (.obj [("redis", .str server), ("metrics", metrics), ("config", config),
    ("handlers", .obj [("asset", .nat m.assetSubscribers.length),
      ("news", .nat m.newsSubscribers.length)]), ("timestamp", .str m.clock.zonedText)])

/-! ## Data -/

/-- Asks a provider; a failure that is no report becomes one, of that provider. -/
def asking (s : Site) (provider : String) (read : Op Payload) : Op Payload :=
  Op.contain read fun f =>
    match f.report? with
    | some _ => throw f
    | none => do
      s.note .error "Provider call failed" [("provider", .str provider)] (some f)
      throw (.reported (.ofProvider provider f.text))

/-- Data of a declared shape as a response. -/
def delivering (shape : Http.Shape) (read : Op Payload) : Op Response := do
  let v := (← read).toJson
  if !shape.describes v then throw .misshapen
  else if !shape.holds v then throw .answerTooDeep
  else return .json 200 (Http.finite v)

/-- The category that a request for news names, or the one of all news. -/
def category (t : Target) : String := (t.parameter? "category").getD News.everything

/-- What a route answers. -/
def respond (s : Site) (t : Target) : Route → Op Response
  | .health => s.health
  | .metrics => metrics
  | .docs => return .plain 200 "text/html" .document
  | .description => return .plain 200 "application/json" .document
  | .root => return root
  | .snapshot asset => delivering .object (s.asking "market" (Api.snapshot (.str asset)))
  | .extended asset => delivering .object (s.asking "market" (Api.extended (.str asset)))
  | .news => delivering .objects (s.asking "news" (Api.news (.str (category t))))
  | .trending => delivering .objects (s.asking "news" Api.trending)
  | .cacheMetrics => return .json 200 (← Cache.metrics)
  | .cacheInfo => cacheInfo

/-! ## Requests -/

/-- Answers a request by its path and method. -/
def serve (s : Site) (r : Request) : Op Response :=
  match Http.destination s.features r.target.path with
  | .route route =>
    if r.method ∈ route.methods then s.respond r.target route
    else return .notAllowed route.methods
  | .elsewhere path => return .redirect (r.location path)
  | .nowhere => return .notFound

/-- Answers with a report under the id of the request, if it can be told outside. -/
def answerReport (s : Site) (r : Report) : Op Response := do
  s.note .error "Cache layer error"
    [("code", r.code), ("message", r.message), ("details", r.details)] none
  Op.collect (·.recordError r.code.plain "")
  let id := Json.ofOption .str (← get).requestId
  unless (r.faults id).isEmpty do throw (.illFitting (r.faults id))
  let body := r.body id
  if Http.isFinite body then return .json r.status body else throw .notFinite

/-- Answers a request; a report is an answer, other failures are not. A cancellation leaves the request
without a response. -/
def answerInside (s : Site) (r : Request) : Op Response :=
  tryCatch (s.serve r) fun
    | .cancelled _ => throw .noResponse
    | f =>
      match f.report? with
      | some report => s.answerReport report
      | none => throw f

/-- The id of a request: its own, or else a spare one. -/
def idOf (r : Request) : Op String :=
  match r.id with
  | some id => return id
  | none => do
    let m ← get
    set { m with spareIdsUsed := m.spareIdsUsed + 1 }
    return m.spareId m.spareIdsUsed

/-- Does `body` while the request has this id, and forgets the id whatever comes of it. -/
def under {α : Type} (id : String) (body : Op α) : Op α := do
  modify fun m => { m with requestId := some id }
  let outcome ← Op.outcome body
  modify fun m => { m with requestId := none }
  Op.conclude outcome

/-- Answers a request, counts it and writes it down. -/
def answerCounted (s : Site) (r : Request) : Op Response := do
  let id ← idOf r
  let response ← under id (s.answerInside r)
  let path := r.target.writtenPath
  Op.collect (·.recordRequest r.method path (toString response.status) Memory.lapse)
  s.note .info "HTTP request" [("method", .str r.method), ("path", .str path),
    ("status_code", .nat response.status), ("request_id", .str id)] none
  return { response with id := some id }

/-- The answer to a request that fails inside. -/
def internalError (f : Failure) : Response :=
  { Response.json 500 (.obj [("code", .str "INTERNAL_ERROR"),
      ("message", .str "Internal server error"), ("details", .obj [])]) with raised := some f }

/-- Answers a request, whatever happens inside. -/
def answer (s : Site) (r : Request) : Op Response :=
  Op.contain (s.answerCounted r) fun f => do
    s.note .error "Unhandled exception" [] (some f)
    Op.collect (·.recordError "INTERNAL_ERROR" "")
    return internalError f

end Site

/-! ## From settings -/

/-- The site of a service. The documentation is served locally only. -/
def Settings.site (s : Settings) (cache : Bool) (commit : Option String) : Site :=
  ⟨s.service, ⟨cache, s.env = "local"⟩, commit⟩

/-- The memory of a service that has not started yet. -/
def Settings.memory (s : Settings) (clock : Instant) (draws : List Float) (spareId : Nat → String) :
    Memory :=
  .start Registry.builtin (.whole s.lifetime) ⟨s.storeUrl, s.connectTimeout, s.timeout⟩
    (some (Collector.start s.service)) clock draws spareId

end CacheAside
