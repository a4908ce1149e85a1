import CacheAside.Json.Plain

/-! # Collected metrics

A collector holds families of series under their names. A series is told apart by the values of the
labels that its family declares. Counters count up by one; a histogram keeps what was observed, in
order. What is said of a family that the collector does not hold is ignored. -/

namespace CacheAside
set_option autoImplicit false

/-- The series of a family, under the values of its labels. -/
inductive Series where
  | counts (rows : List (List String × Nat))
  | observations (rows : List (List String × List Float))

structure Family where
  help : String
  labels : List String
  series : Series

structure Collector where
  /-- The name of the service; against custom it may be no text. -/
  service : Json
  families : Table Family

/-- Why nothing is recorded in a family. -/
inductive RecordFault where
  | labelCount
  | labelNames
  /-- The family has no labels at all. -/
  | unlabelled (family : String)
  | notCounter
  | notHistogram
  /-- What is observed is not a number. -/
  | notNumber
  /-- What is observed is an integer beyond all doubles. -/
  | tooLarge
  /-- Something is not said, is said twice, or has no place where it is said. -/
  | misnamed
  /-- The name of a family is a collection, which nothing goes by. -/
  | unusableName
  /-- The service is named by null. -/
  | noService
deriving DecidableEq, Repr

def RecordFault.message : RecordFault → String
  | .labelCount => "Incorrect label count"
  | .labelNames => "Incorrect label names"
  | .unlabelled family => "No label names were set when constructing info:" ++ family
  | .notCounter => "Not a counter"
  | .notHistogram => "Not a histogram"
  | .notNumber => "Not a number"
  | .tooLarge => "int too large to convert to float"
  | .misnamed => "Something else is said than can be"
  | .unusableName => "Nothing goes by a collection"
  | .noService => "Label value cannot be None"

namespace Series

/-- Adds one to a counter. -/
def bump (values : List String) : Series → Series
  | .counts rows => .counts (Rows.put values ((Rows.find? values rows).getD 0 + 1) rows)
  | s => s

/-- Adds an observation to a histogram. -/
def observe (values : List String) (x : Float) : Series → Series
  | .observations rows =>
    .observations (Rows.put values ((Rows.find? values rows).getD [] ++ [x]) rows)
  | s => s

/-- Makes sure that there is a series with these labels. -/
def touch (values : List String) : Series → Series
  | .counts rows => .counts (Rows.put values ((Rows.find? values rows).getD 0) rows)
  | .observations rows => .observations (Rows.put values ((Rows.find? values rows).getD []) rows)

def isCounter : Series → Bool
  | .counts _ => true
  | .observations _ => false

def count? (values : List String) : Series → Option Nat
  | .counts rows => Rows.find? values rows
  | .observations rows => (Rows.find? values rows).map List.length

end Series

namespace Collector

/-! ## Families -/

def counterFamily (name help : String) (labels : List String) : String × Family :=
  (name, ⟨help, labels, .counts []⟩)

def histogramFamily (name help : String) (labels : List String) : String × Family :=
  (name, ⟨help, labels, .observations []⟩)

/-- The families that every service has. -/
def commonFamilies : List (String × Family) :=
  [counterFamily "http_requests_total" "Total HTTP requests" ["method", "endpoint", "status_code"],
   histogramFamily "http_request_duration_seconds" "HTTP request duration in seconds"
     ["method", "endpoint"],
   counterFamily "health_check_total" "Total health check requests" ["status"],
   counterFamily "errors_total" "Total errors" ["error_type", "service"]]

/-- The families that only the cache service has. -/
def cacheFamilies : List (String × Family) :=
  [counterFamily "cache_hits_total" "Total cache hits" ["bucket"],
   counterFamily "cache_misses_total" "Total cache misses" ["bucket"],
   counterFamily "cache_invalidations_total" "Total cache invalidation events dispatched"
     ["event_type"],
   histogramFamily "provider_duration_seconds" "Time spent in cache-miss providers" ["bucket"]]

/-- The collector of a service. -/
def start (service : String) : Collector :=
  ⟨.str service, Table.ofRows (commonFamilies ++ if service = "cache" then cacheFamilies else [])⟩

/-- The collector of a service that is named by a value of any kind but null. -/
def startNamed : Json → Except RecordFault Collector
  | .null => .error .noService
  | .str service => .ok (start service)
  | v => .ok ⟨v, Table.ofRows commonFamilies⟩

/-! ## Recording -/

def change (c : Collector) (name : String) (f : Series → Series) : Collector :=
  match c.families.find? name with
  | none => c
  | some family => { c with families := c.families.put name { family with series := f family.series } }

def bump (c : Collector) (name : String) (values : List String) : Collector :=
  c.change name (Series.bump values)

def observe (c : Collector) (name : String) (values : List String) (x : Float) : Collector :=
  c.change name (Series.observe values x)

/-- How often a series was counted or observed; zero if never. -/
def count (c : Collector) (name : String) (values : List String) : Nat :=
  ((c.families.find? name).bind fun family => family.series.count? values).getD 0

def countRequest (c : Collector) (method path status : String) : Collector :=
  c.bump "http_requests_total" [method, path, status]

/-- The family of the durations of requests. -/
def durationFamily : String := "http_request_duration_seconds"

def recordRequest (c : Collector) (method path status : String) (seconds : Float) : Collector :=
  (c.countRequest method path status).observe durationFamily [method, path] seconds

def recordHealth (c : Collector) (status : String) : Collector := c.bump "health_check_total" [status]

/-- An error of the service itself, unless another service is named. -/
def recordError (c : Collector) (code : String) (service : String) : Collector :=
  c.bump "errors_total" [code, if service = "" then c.service.plain else service]

/-! ## Labels by name -/

/-- The family that names the service, which nothing is recorded in. -/
def infoFamily : String := "service_info"

/-- The values of named labels in the order in which a family declares them. -/
def labelValues (declared : List String) (labels : List (String × String)) :
    Except RecordFault (List String) :=
  if labels.isEmpty then .error .labelCount
  else
    let values := declared.filterMap fun name => Rows.find? name labels
    if values.length = declared.length ∧ labels.length = declared.length then .ok values
    else .error .labelNames

/-- Records in the series with these labels, and says why not. An unknown family is left alone; where
`change` does not go with the family the series is only opened. -/
def recordLabelled (c : Collector) (name : String) (labels : List (String × String))
    (change : Series → Except RecordFault (List String → Series → Series)) :
    Option RecordFault × Collector :=
  match c.families.find? name with
  | none => (if name = infoFamily then some (.unlabelled name) else none, c)
  | some family =>
    match labelValues family.labels labels with
    | .error fault => (some fault, c)
    | .ok values =>
      match change family.series with
      | .ok f => (none, c.change name (f values))
      | .error fault => (some fault, c.change name (Series.touch values))

/-- Adds one to the counter with these labels. -/
def increment (c : Collector) (name : String) (labels : List (String × String)) :
    Option RecordFault × Collector :=
  c.recordLabelled name labels fun s => if s.isCounter then .ok Series.bump else .error .notCounter

/-- The number that is observed where a value is given. -/
def observed : Json → Except RecordFault Float
  | .int i => if (Float.ofInt i).isInf then .error .tooLarge else .ok (Float.ofInt i)
  | .bool b => .ok (if b then 1.0 else 0.0)
  | .float x => .ok x
  | _ => .error .notNumber

/-- Adds an observation to the histogram with these labels. -/
def record (c : Collector) (name : String) (x : Except RecordFault Float)
    (labels : List (String × String)) : Option RecordFault × Collector :=
  c.recordLabelled name labels fun s =>
    if s.isCounter then .error .notHistogram
    else x.map fun x values => Series.observe values x

/-- Counts a request; its duration is observed, if it is one. -/
def recordTimed (c : Collector) (method path status : String) (seconds : Except RecordFault Float) :
    Option RecordFault × Collector :=
  (c.countRequest method path status).record durationFamily seconds
    [("method", method), ("endpoint", path)]

end Collector
end CacheAside
