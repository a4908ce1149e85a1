import CacheAside.Metrics.Collector

/-! # Recording by named values

What is recorded is told by named values and labels of any kind. Each way of recording needs some names and
has a place for others; where something is counted or observed in a family, all other names are labels.
Nothing is recorded unless every needed name is given, and every name once. -/

namespace CacheAside
set_option autoImplicit false

/-- The ways of recording. -/
inductive Recording where
  | count
  | observation
  | request
  | health
  | error
deriving DecidableEq, Repr

namespace Recording

/-- The names that must be given. -/
def needed : Recording → List String
  | .count => ["metric_name"]
  | .observation => ["metric_name", "value"]
  | .request => ["method", "endpoint", "status_code", "duration"]
  | .health => ["status"]
  | .error => ["error_type"]

/-- The name that may be given besides. -/
def spare : Recording → List String
  | .error => ["service"]
  | _ => []

/-- Whether all other names are labels. -/
def takesLabels : Recording → Bool
  | .count | .observation => true
  | _ => false

/-- Whether values of these names can be recorded so. The collector goes by a name of its own. -/
def accepts (r : Recording) (names : List String) : Bool :=
  decide names.Nodup && !names.contains "self" && r.needed.all names.contains &&
    (r.takesLabels || names.all (r.needed ++ r.spare).contains)

end Recording

namespace Collector

/-- The name of a family: one that is no text names none. -/
def familyName : Json → Except RecordFault String
  | .str name => .ok name
  | .arr _ | .obj _ => .error .unusableName
  | _ => .ok ""

/-- Records named values in one of the ways. -/
def recordValues (c : Collector) (r : Recording) (values : List (String × Json)) :
    Option RecordFault × Collector :=
  let value (name : String) : Json := (Rows.find? name values).getD .null
  let text (name : String) : String := (value name).plain
  let labels := (values.filter fun v => !r.needed.contains v.1).map fun (name, v) => (name, v.plain)
  let inFamily (act : String → Option RecordFault × Collector) : Option RecordFault × Collector :=
    match familyName (value "metric_name") with
    | .ok name => act name
    | .error fault => (some fault, c)
  if !r.accepts (values.map Prod.fst) then (some .misnamed, c)
  else match r with
  | .count => inFamily fun name => c.increment name labels
  | .observation => inFamily fun name => c.record name (observed (value "value")) labels
  | .request =>
    c.recordTimed (text "method") (text "endpoint") (text "status_code") (observed (value "duration"))
  | .health => (none, c.recordHealth (text "status"))
  | .error =>
    (none, c.recordError (text "error_type") (if (value "service").isBlank then "" else text "service"))

end Collector
end CacheAside
