import CacheAside.Json.Plain
import CacheAside.Settings.Field

/-! # Reports

A report is a failure that callers outside are told as it is: by a status, a code, a message and details, which
each report carries itself. There are five classes of reports, and whatever descends from a class is caught where
the class is; each class has a status, and all but the general one a code, that its reports have unless they carry
others. Reports of the store and of providers also say where they come from. A report can be filed with values of
any kind; which values there must be, and which there can be, depends on the class of the report
(`Report.ofValues?`). The values themselves are looked at when the report is told outside, and every one that does
not fit is found (`Report.faults`). -/

namespace CacheAside
set_option autoImplicit false

/-! ## Classes -/

/-- The classes of reports. -/
inductive ReportKind where
  | general
  | validation
  | service
  | store
  | provider
deriving DecidableEq, Repr

namespace ReportKind

/-- The value that says where a report of this class comes from. -/
def origin? : ReportKind → Option String
  | .store => some "operation"
  | .provider => some "provider"
  | .general | .validation | .service => none

/-- The values that there must be. -/
def required (k : ReportKind) : List String := if k = .general then ["code", "message"] else k.origin?.toList

/-- The values that there can be. -/
def permitted (k : ReportKind) : List String :=
  (if k = .general then ["code"] else k.origin?.toList) ++ ["message", "details"]

/-- The text of a report that is given none. -/
def defaultText : ReportKind → String
  | .general => ""
  | .validation => "Validation failed"
  | .service => "Service error"
  | .store => "Store operation failed"
  | .provider => "Provider error"

/-- The status of the reports of a class, unless they carry another. -/
def status : ReportKind → Nat
  | .general => 400
  | .validation => 400
  | .service => 500
  | .store => 502
  | .provider => 502

end ReportKind

/-! ## Reports -/

structure Report where
  /-- The class that the report is of, or the nearest one that it descends from. -/
  kind : ReportKind
  /-- The status that answers a request which ends in the report. -/
  status : Nat
  code : Json
  message : Json
  /-- An object, if the report is to be told outside. -/
  details : Json
  /-- Where a report of the store or of a provider comes from. -/
  origin : Json

namespace Report

/-! ### One of each class -/

/-- Details of any kind; blank ones are none. -/
def detailed (details : Json) : Json := if details.isBlank then .obj [] else details

@[simp] theorem detailed_obj (members : List (String × Json)) : detailed (.obj members) = .obj members := by
  cases members <;> rfl

/-- A report with the status of its class. -/
def ofClass (kind : ReportKind) (code message details : Json) : Report where
  kind
  status := kind.status
  code
  message
  details := detailed details
  origin := .null

/-- A report whose message begins with where it comes from, in plain text. -/
def ofOrigin (kind : ReportKind) (code : String) (origin text details : Json) : Report :=
  { ofClass kind (.str code) (.str (origin.plain ++ ": " ++ text.plain)) details with origin }

def general (code message details : Json) : Report := ofClass .general code message details

def validation (message details : Json) : Report := ofClass .validation (.str "VALIDATION_ERROR") message details

def service (message details : Json) : Report := ofClass .service (.str "SERVICE_ERROR") message details

def store (operation text details : Json) : Report := ofOrigin .store "STORE_ERROR" operation text details

def provider (provider text details : Json) : Report := ofOrigin .provider "PROVIDER_ERROR" provider text details

/-- A report filed with named values, if they are those that its class asks for. -/
def ofValues? (kind : ReportKind) (values : List (String × Json)) : Option Report :=
  let names := values.map Prod.fst
  let value (name : String) : Json := (Rows.find? name values).getD .null
  let text := (Rows.find? "message" values).getD (.str kind.defaultText)
  if kind.required.all names.contains && names.all kind.permitted.contains then
    match kind with
    | .general => some (general (value "code") text (value "details"))
    | .validation => some (validation text (value "details"))
    | .service => some (service text (value "details"))
    | .store => some (store (value "operation") text (value "details"))
    | .provider => some (provider (value "provider") text (value "details"))
  else none

/-! ### Those that the service makes -/

/-- A report that a request is turned down. -/
def ofValidation (text : String) (details : List (String × Json)) : Report := validation (.str text) (.obj details)

/-- A report of an operation of the store. -/
def ofStore (operation text : String) (details : List (String × Json)) : Report :=
  store (.str operation) (.str text) (.obj details)

/-- A report of a provider. -/
def ofProvider (name text : String) : Report := provider (.str name) (.str text) .null

@[simp] theorem details_ofValidation (text : String) (details : List (String × Json)) :
    (ofValidation text details).details = .obj details := detailed_obj details

@[simp] theorem details_ofStore (operation text : String) (details : List (String × Json)) :
    (ofStore operation text details).details = .obj details := detailed_obj details

@[simp] theorem message_ofValidation (text : String) (details : List (String × Json)) :
    (ofValidation text details).message = .str text := rfl

@[simp] theorem message_ofStore (operation text : String) (details : List (String × Json)) :
    (ofStore operation text details).message = .str (operation ++ ": " ++ text) := rfl

@[simp] theorem message_ofProvider (name text : String) :
    (ofProvider name text).message = .str (name ++ ": " ++ text) := rfl

/-! ### Telling -/

/-- What a caller outside is told, under the id of the request. -/
def body (r : Report) (requestId : Json) : Json :=
  .obj [("request_id", requestId), ("code", r.code), ("message", r.message), ("details", r.details)]

/-- What of the report cannot be told outside. -/
def faults (r : Report) (requestId : Json) : List Fault :=
  (Checked.ofGiven (Kind.optional Kind.text) "request_id" requestId).faults
    ++ (Checked.ofGiven Kind.text "code" r.code).faults
    ++ (Checked.ofGiven Kind.text "message" r.message).faults
    ++ (Checked.ofGiven Kind.members "details" r.details).faults

end Report
end CacheAside
