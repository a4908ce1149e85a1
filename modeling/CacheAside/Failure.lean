import CacheAside.Json.Reader
import CacheAside.Report

/-! # Failures

Everything that can end an operation early. A report is told to callers outside as it is; other failures
are told by their kind and text. Only a cancellation passes through code that contains failures. -/

namespace CacheAside
set_option autoImplicit false

/-! ## Refusals -/

/-- The two kinds of update that handlers can wait for. -/
inductive Topic where
  | asset
  | news
deriving DecidableEq, Repr

/-- Why a request is turned down before anything else happens. -/
inductive Refusal where
  | notCallable (topic : Topic)
  | unknownKind (kind : Json)
  | invalidAsset (asset : Json)
  | invalidCategory (category : Json)
  | reservedCategory (category : String)

namespace Refusal

/-- The kinds that an asset update can have, by name. -/
def allowedKinds : List String := ["price", "volume", "metadata", "all"]

def message : Refusal → String
  | .notCallable .asset => "Asset update handler must be callable"
  | .notCallable .news => "News update handler must be callable"
  | .unknownKind kind => "Unknown asset update kind: " ++ kind.plain
  | .invalidAsset _ => "Invalid asset id"
  | .invalidCategory _ => "Invalid news category"
  | .reservedCategory _ => "Reserved news category"

def details : Refusal → List (String × Json)
  | .notCallable _ => []
  | .unknownKind _ => [("allowed", Json.strings allowedKinds)]
  | .invalidAsset asset => [("asset_id", asset)]
  | .invalidCategory category => [("category", category)]
  | .reservedCategory category => [("category", .str category)]

def report (r : Refusal) : Report := .ofValidation r.message r.details

end Refusal

/-! ## All failures -/

/-- What the client of the store reports about the server or the connection to it. -/
inductive ClientFault where
  | general
  | connection
  | timeout
  | response
  | data
  | authentication
deriving DecidableEq, Repr

/-- Failures of other parts that carry only a text. -/
inductive FaultKind where
  | runtime
  | value
  | system
deriving DecidableEq, Repr

/-- Why a value cannot be written as JSON. -/
inductive WriteError where
  | unsupported
  | circular
  | tooManyDigits
  | tooDeep
deriving DecidableEq, Repr

inductive Failure where
  | client (fault : ClientFault) (text : String)
  | fault (kind : FaultKind) (text : String)
  | reported (report : Report)
  | refused (refusal : Refusal)
  | cancelled (text : String)
  | unreadable (error : Json.ReadError)
  | unwritable (error : WriteError)
  /-- Values do not fit the fields of a record. -/
  | illFitting (faults : List Fault)
  /-- A value is asked for what only a text has. -/
  | notText (fault : NotText)
  /-- A value of another kind stands where only values of one kind can be handled. -/
  | unfit
  /-- A handler gave nothing that can be waited for. -/
  | notAwaitable
  /-- A handler announces an update with too few or too many arguments. -/
  | argumentCount
  /-- An answer does not have the shape its endpoint declares. -/
  | misshapen
  /-- An answer is nested deeper than answers may be. -/
  | answerTooDeep
  /-- A number that JSON has no form for stands in an answer. -/
  | notFinite
  /-- A request was given up before there was a response to it. -/
  | noResponse
  /-- A time outside the calendar. -/
  | outOfCalendar
  /-- Something stands in the place of a number and cannot be compared with one. -/
  | uncountable
  /-- Updates announced by handlers of updates, too many levels deep. -/
  | tooNested
  /-- A header cannot hold a run of characters at this place. -/
  | unencodable (place : Nat) (run : List Char)

namespace Failure

/-- Whether code that contains failures contains this one. -/
def isContained : Failure → Bool
  | .cancelled _ => false
  | _ => true

/-- The report that a caller outside is given for this failure, if it is one. -/
def report? : Failure → Option Report
  | .reported r => some r
  | .refused r => some r.report
  | _ => none

/-- The text about a run of characters that a header cannot hold. -/
def encodingText (place : Nat) (run : List Char) : String :=
  let what := match run with
    | [c] => " '" ++ String.ofList (Json.numbered c) ++ "' in position " ++ toString place
    | run => "s in position " ++ toString place ++ "-" ++ toString (place + run.length - 1)
  "'latin-1' codec can't encode character" ++ what ++ ": ordinal not in range(256)"

def text : Failure → String
  | .client _ text => text
  | .fault _ text => text
  | .reported r => r.message.plain
  | .refused r => r.message
  | .cancelled text => text
  | .unreadable .malformed => "malformed JSON"
  | .unreadable (.tooManyDigits _) => "integer with too many digits"
  | .unreadable .tooDeep => "nested too deeply"
  | .unwritable .unsupported => "value has no JSON form"
  | .unwritable .circular => "value contains itself"
  | .unwritable .tooManyDigits => "integer with too many digits"
  | .unwritable .tooDeep => "nested too deeply"
  | .illFitting _ => "value of another kind than its field"
  | .notText _ => "nothing that is a text"
  | .unfit => "value of another kind"
  | .notAwaitable => "nothing to wait for"
  | .argumentCount => "too few or too many arguments"
  | .misshapen => "answer of another shape than declared"
  | .answerTooDeep => "answer nested too deeply"
  | .notFinite => "Out of range float values are not JSON compliant"
  | .noResponse => "No response returned."
  | .outOfCalendar => "date value out of range"
  | .uncountable => "nothing that counts"
  | .tooNested => "updates nested too deeply"
  | .unencodable place run => encodingText place run

end Failure
end CacheAside
