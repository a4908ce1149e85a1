import CacheAside.Settings.Field
import CacheAside.Settings.Source

/-! # Settings

Each field of the settings has a kind, its names and a content where nothing is given. The name of the
service and the TCP number that it listens on are arguments. Overrides of other names are kept beside the
fields, and so is what the environment says of a field under another name than its override
(`Settings.others`); shown by name they go over the fields. -/

namespace CacheAside
set_option autoImplicit false

/-- The content of a field; it is not checked where nothing is given. -/
def Sources.field {α : Type} (s : Sources) (names : FieldNames) (kind : Kind α) (otherwise : α) :
    Checked α :=
  match s.given? names with
  | none => .fits otherwise
  | some (name, v) => Checked.ofGiven kind name v

/-! ## Settings -/

structure Settings where
  env : String
  logLevel : String
  storeUrl : String
  timeout : Float
  connectTimeout : Float
  /-- Seconds that keys live which no category owns. -/
  lifetime : Int
  /-- Milliseconds that a call to the feed takes. -/
  latency : Int
  /-- The TCP number that metrics are exported on besides. -/
  metricsTcp : Option Int
  service : String
  /-- The TCP number that the service listens on. -/
  tcp : Int
  host : String
  /-- What is given beside the fields. -/
  others : List (String × Json)

/-- Why there are no settings. -/
inductive SettingsError where
  /-- An override has a name that is taken. -/
  | taken (name : String)
  /-- An argument is not given at all. -/
  | missing (name : String)
  /-- An override that steers where the settings come from cannot be followed. -/
  | misguided
  | command (fault : CommandFault)
  /-- The sources are not given as two things. -/
  | unpaired (count : Nat)
  | invalid (faults : List Fault)

namespace Settings

/-! ## Names -/

def envNames : FieldNames := ⟨"env", ["CACHE_ENV"]⟩

def logLevelNames : FieldNames := ⟨"log_level", ["CACHE_LOG_LEVEL"]⟩

def storeUrlNames : FieldNames := ⟨"redis_url", ["CACHE_REDIS_URL"]⟩

def timeoutNames : FieldNames := ⟨"redis_socket_timeout", ["CACHE_REDIS_SOCKET_TIMEOUT"]⟩

def connectTimeoutNames : FieldNames := ⟨"redis_connect_timeout", ["CACHE_REDIS_CONNECT_TIMEOUT"]⟩

def lifetimeNames : FieldNames := ⟨"cache_default_ttl", ["CACHE_DEFAULT_TTL"]⟩

def latencyNames : FieldNames := ⟨"provider_latency_ms", ["CACHE_PROVIDER_LATENCY_MS"]⟩

def metricsTcpNames : FieldNames := ⟨"metrics_port", ["CACHE_METRICS_PORT"]⟩

def hostNames : FieldNames := ⟨"host", []⟩

/-- The names of the arguments. -/
def argumentNames : List String := ["service_name", "port"]

/-- The names that an override cannot have. -/
def takenNames : List String := argumentNames ++ ["self"]

/-- The names of the fields that are no arguments. -/
def fields : List FieldNames :=
  [envNames, logLevelNames, storeUrlNames, timeoutNames, connectTimeoutNames, lifetimeNames, latencyNames,
    metricsTcpNames, hostNames]

/-- Whether an override has a name of its own: neither that of a field nor one that steers. -/
def isOther (name : String) : Bool :=
  !(argumentNames ++ fields.flatMap FieldNames.all).any (sameName name) && name ∉ Manner.steering

/-! ## Reading -/

/-- The settings, or every fault in the order of the fields. -/
def check (service tcp : Json) (s : Sources) : Checked Settings :=
  Settings.mk <$> s.field envNames Kind.text "local"
    <*> s.field logLevelNames Kind.text "info"
    <*> s.field storeUrlNames Kind.text "redis://localhost:6379/0"
    <*> s.field timeoutNames Kind.number 5.0
    <*> s.field connectTimeoutNames Kind.number 5.0
    <*> s.field lifetimeNames Kind.count 300
    <*> s.field latencyNames Kind.count 100
    <*> s.field metricsTcpNames (Kind.optional Kind.integer) none
    <*> Checked.ofGiven Kind.text "service_name" service
    <*> Checked.ofGiven Kind.integer "port" tcp
    <*> s.field hostNames Kind.text "0.0.0.0"
    <*> pure ((s.overrides.rows.filter fun row => isOther row.1) ++ fields.filterMap s.shadowed?)

/-- The settings from sources that are given at once. Only no sources at all can be followed, and they give
neither argument. -/
def ofSources (sources : Json) : Except SettingsError Settings :=
  match sources.elements? with
  | none => .error .misguided
  | some [first, _] =>
    if first.isBlank then .error (.invalid (argumentNames.map fun name => ⟨name, .missing⟩))
    else .error .misguided
  | some others => .error (.unpaired others.length)

/-- The settings of a service under these overrides in this environment. -/
def read (service tcp : Option Json) (overrides : Table Json) (environment : List (String × String)) :
    Except SettingsError Settings :=
  match takenNames.find? fun name => (overrides.find? name).isSome with
  | some name => .error (.taken name)
  | none =>
    match service, tcp with
    | none, _ => .error (.missing "service_name")
    | _, none => .error (.missing "port")
    | some service, some tcp =>
      match (overrides.find? Manner.sourcesName).getD .null with
      | .null =>
        match Manner.ofOverrides? overrides with
        | none => .error .misguided
        | some manner =>
          match CommandFault.of? overrides with
          | some fault => .error (.command fault)
          | none =>
            match check service tcp ⟨overrides, environment, manner⟩ with
            | .fits settings => .ok settings
            | .faulty faults => .error (.invalid faults)
      | sources => ofSources sources

/-- All settings by name. -/
def json (s : Settings) : Json :=
  .object ([("env", .str s.env), ("log_level", .str s.logLevel), ("redis_url", .str s.storeUrl),
    ("redis_socket_timeout", .float s.timeout), ("redis_connect_timeout", .float s.connectTimeout),
    ("cache_default_ttl", .int s.lifetime), ("provider_latency_ms", .int s.latency),
    ("metrics_port", Json.ofOption .int s.metricsTcp), ("service_name", .str s.service),
    ("port", .int s.tcp), ("host", .str s.host)] ++ s.others)

end Settings

/-! ## Launch -/

/-- Whether the latency is still a double when it is told in seconds. -/
def Settings.hasLatency (s : Settings) : Bool := s.latency < 1000 * (Int.pow 2 1024 - Int.pow 2 970)

/-- What running the service starts: the exporter of metrics, if it has a TCP number, and the site. -/
structure Launch where
  exporterTcp : Option Int
  host : String
  tcp : Int
  logLevel : String

/-- Nothing is exported on number zero. -/
def Settings.launch (s : Settings) : Launch :=
  ⟨s.metricsTcp.filter (· ≠ 0), s.host, s.tcp, Text.lowercase s.logLevel⟩

end CacheAside
