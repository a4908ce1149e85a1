import CacheAside.Journal
import CacheAside.Calendar
import CacheAside.Journal.Template
import CacheAside.Text.Segments

/-! # Journal entries as lines

An entry grave enough becomes one line, an object of named values. The arguments of an entry are first
put into its event. Then the line is completed: the service is the first part of a logger's name that
has several, the request is the one being answered, and the time is the present. -/

namespace CacheAside
set_option autoImplicit false

/-! ## Thresholds -/

/-- Why there is no threshold. A name can be that of something else that the journal has. -/
inductive ThresholdFault where
  /-- The format of lines that are not objects. -/
  | lineFormat
  /-- The table of the styles in which formats are written. -/
  | styleTable
  | notText (fault : NotText)

namespace Level

/-- The format of lines that are not objects. -/
def lineFormat : String := "%(levelname)s:%(name)s:%(message)s"

/-- A character as capitals, where these are plain letters that occur in the names below. -/
def capital (c : Char) : List Char :=
  if c = 'ı' then ['I']
  else if c = 'ſ' then ['S']
  else if c = 'ﬅ' ∨ c = 'ﬆ' then ['S', 'T']
  else [c.toUpper]

/-- The least number of a level that is written down, by name; unknown names stand for `info`. -/
def threshold (name : String) : Except ThresholdFault Nat :=
  match String.ofList (name.toList.flatMap capital) with
  | "NOTSET" => .ok 0
  | "DEBUG" => .ok 10
  | "INFO" => .ok 20
  | "WARN" => .ok 30
  | "WARNING" => .ok 30
  | "ERROR" => .ok 40
  | "FATAL" => .ok 50
  | "CRITICAL" => .ok 50
  | "BASIC_FORMAT" => .error .lineFormat
  | "_STYLES" => .error .styleTable
  | _ => .ok 20

/-- The threshold of a name, which must be a text. -/
def thresholdOf : Json → Except ThresholdFault Nat
  | .str name => threshold name
  | v => .error (.notText ⟨v, .upperCase⟩)

end Level

/-! ## Drafts -/

/-- An entry as it is handed in. -/
structure Draft where
  /-- The name of the logger; a blank one is the root. -/
  logger : Json
  level : Level
  /-- What happened; null where nothing is said. -/
  event : Json
  /-- What the marks in the event stand for. -/
  arguments : List Json
  fields : List (String × Json)

/-- Why an entry becomes no line. -/
inductive LineFault where
  /-- A field goes by the name of a part of the draft. -/
  | taken (name : String)
  /-- There are arguments, but no event. -/
  | noEvent
  /-- The event is no text, or what stands for the arguments is no collection of values. -/
  | unfillable
  /-- A single argument is looked for by its place among names. -/
  | noPlaces
  | template (fault : TemplateFault)
  /-- What stands for a record of another journal is none. -/
  | notRecord (v : Json)
  /-- The logger is named by what is no text. -/
  | notLogger
  /-- The name of the logger in a line cannot be looked into. -/
  | notName
  /-- The name of the logger in a line is a collection that holds a point. -/
  | notText (fault : NotText)

namespace Draft

/-- The names that no field of a draft can have. -/
def takenNames : List String := ["self", "method_name", "event"]

/-- The field that stands for the arguments where there are none. -/
def argumentField : String := "positional_args"

/-- The field for a record of another journal, under whose name the entry would go. -/
def recordField : String := "_record"

/-- The fields that are not written down: what they ask for is not there. -/
def droppedFields : List String := ["exc_info", "stack_info"]

/-- Arguments as they are put in. A single object gives names to its members. -/
def supply : List Json → Template.Supply
  | [.obj (m :: ms)] => .single (.obj (m :: ms))
  | arguments => .several arguments

/-- A value that stands for the arguments, as it is put in. -/
def supplyOf : Json → Except LineFault Template.Supply
  | .arr [.obj (m :: ms)] => .ok (.single (.obj (m :: ms)))
  | .arr vs => .ok (.single (.arr vs))
  | .str s => .ok (.single (.str s))
  | .obj [_] => .error .noPlaces
  | .obj ms => .ok (.single (.obj ms))
  | _ => .error .unfillable

/-- What is put into the event, if anything is. -/
def supply? (d : Draft) : Except LineFault (Option Template.Supply) :=
  match d.arguments, (Rows.find? argumentField d.fields).filter fun v => !v.isBlank with
  | [], none => .ok none
  | [], some v => some <$> supplyOf v
  | arguments, _ => .ok (some (supply arguments))

/-- The event with its arguments. Without arguments it stays as it is. -/
def filled (d : Draft) : Except LineFault Json := do
  match ← d.supply? with
  | none => return d.event
  | some supply =>
    match d.event with
    | .null => throw .noEvent
    | .str event =>
      match Template.fill event supply with
      | .ok text => return .str text
      | .error fault => throw (.template fault)
    | _ => throw .unfillable

/-- The fields that are written down. The field for arguments is, if it holds null. -/
def keptFields (d : Draft) : List (String × Json) :=
  d.fields.filter fun (name, v) =>
    !(droppedFields.contains name ||
      (name == argumentField && !(d.arguments.isEmpty && v.isNull)))

/-- What is written down of a draft before the line is completed. -/
def table (d : Draft) : Except LineFault (Table Json) := do
  let event ← d.filled
  let fields := Table.ofRows d.keptFields
  return if event.isNull then fields else fields.put "event" event

end Draft

namespace Line

/-! ## Completion -/

/-- Whether a value is, or holds, a point. -/
def holdsPoint : Json → Option Bool
  | .str name => some ('.' ∈ name.toList)
  | .arr vs => some (vs.any fun v => v.text? = some ".")
  | .obj ms => some (ms.any fun m => m.1 == ".")
  | _ => none

/-- Names the service after the first part of the logger. -/
def addService (line : Table Json) : Except LineFault (Table Json) :=
  let logger := (line.find? "logger").getD (.str "")
  match holdsPoint logger, logger with
  | none, _ => .error .notName
  | some false, _ => .ok line
  | some true, .str name =>
    .ok (line.put "service" (.str (String.ofList ((Text.split '.' name.toList).headD []))))
  | some true, v => .error (.notText ⟨v, .parts⟩)

/-- Names the request being answered, unless its id is blank. -/
def addRequest (id : Json) (line : Table Json) : Table Json :=
  if id.isBlank then line else line.put "request_id" id

/-- Writes down the time in seconds. -/
def addTime (i : Instant) (line : Table Json) : Table Json :=
  line.put "timestamp" (.float (Float.ofInt i.seconds + Float.ofNat i.micros / 1000000.0))

/-- The line without a logger's name stands under the root. -/
def loggerName (name : Json) : Except LineFault String :=
  match name with
  | .str name => .ok (if name = "" then "root" else name)
  | v => if v.isBlank then .ok "root" else .error .notLogger

/-- The line of a draft. -/
def ofDraft (id : Json) (now : Instant) (d : Draft) : Except LineFault (Table Json) := do
  match (Rows.find? Draft.recordField d.fields).getD .null with
  | .null => pure ()
  | v => throw (.notRecord v)
  let named := (← d.table).put "logger" (.str (← loggerName d.logger))
  return addTime now (addRequest id (← addService (named.put "level" (.str d.level.name))))

/-- The lines that a draft is written down as. -/
def written (threshold : Nat) (id : Json) (now : Instant) (d : Draft) :
    Except LineFault (List (Table Json)) :=
  match Draft.takenNames.find? fun name => (Rows.find? name d.fields).isSome with
  | some name => .error (.taken name)
  | none => do
    discard (loggerName d.logger)
    if threshold ≤ d.level.number then return [← ofDraft id now d] else return []

end Line
end CacheAside
