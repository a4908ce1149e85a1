import CacheAside.Http.Target

/-! # Routes

What a path asks for. A fixed last segment may be followed by one line feed; a name in a path is one
segment that is not empty. A path without a route is sent to the same path with or without a slash at
its end, if that one has a route. -/

namespace CacheAside.Http
set_option autoImplicit false

inductive Route where
  | health
  | metrics
  | docs
  /-- What the service offers, as a document. -/
  | description
  | root
  | snapshot (asset : String)
  | extended (asset : String)
  | news
  | trending
  | cacheMetrics
  | cacheInfo
deriving DecidableEq, Repr

/-- What the routes of a site are. -/
structure Features where
  /-- Whether the cache is served. -/
  cache : Bool
  /-- Whether the documentation is served. -/
  docs : Bool

namespace Route

/-- Whether a last segment is this word. -/
def ends (word : String) (segment : List Char) : Bool :=
  segment = word.toList ∨ segment = word.toList ++ ['\n']

/-- Whether a segment before others is this word. -/
def is (word : String) (segment : List Char) : Bool := segment = word.toList

/-- The routes below the root that every site has. -/
def ofWord? (f : Features) (s : List Char) : Option Route :=
  if ends "health" s then some .health
  else if ends "metrics" s then some .metrics
  else if ends "openapi.json" s then some .description
  else if f.docs ∧ (ends "docs" s ∨ ends "redoc" s) then some .docs
  else if f.cache ∧ ends "" s then some .root
  else none

/-- The routes of the cache below its own start. -/
def ofCache? : List (List Char) → Option Route
  | [s] =>
    if ends "news" s then some .news
    else if ends "metrics" s then some .cacheMetrics
    else if ends "info" s then some .cacheInfo
    else none
  | [kind, s] =>
    if is "market" kind ∧ s ≠ [] then some (.snapshot (String.ofList s))
    else if is "news" kind ∧ ends "trending" s then some .trending
    else none
  | [kind, asset, s] =>
    if is "market" kind ∧ asset ≠ [] ∧ ends "extended" s then some (.extended (String.ofList asset))
    else none
  | _ => none

def ofPath? (f : Features) (path : List Char) : Option Route :=
  match Text.split '/' path with
  | [[], s] => ofWord? f s
  | [[], start, s] => if f.docs ∧ is "docs" start ∧ ends "oauth2-redirect" s then some .docs else none
  | [] :: api :: cache :: rest =>
    if f.cache ∧ is "api" api ∧ is "cache" cache then ofCache? rest else none
  | _ => none

/-- The methods that a route answers. -/
def methods : Route → List String
  | .docs | .description => ["GET", "HEAD"]
  | _ => ["GET"]

end Route

/-- The path that a path without a route is sent to. -/
def alternative (path : List Char) : List Char :=
  if path.getLast? = some '/' then (path.reverse.dropWhile (· = '/')).reverse else path ++ ['/']

/-- What becomes of a path. -/
inductive Destination where
  | route (r : Route)
  | elsewhere (path : List Char)
  | nowhere
deriving DecidableEq, Repr

def destination (f : Features) (path : List Char) : Destination :=
  match Route.ofPath? f path with
  | some r => .route r
  | none =>
    if path ≠ ['/'] ∧ (Route.ofPath? f (alternative path)).isSome then .elsewhere (alternative path)
    else .nowhere

end CacheAside.Http
