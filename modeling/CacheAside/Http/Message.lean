import CacheAside.Http.Target
import CacheAside.Failure
import CacheAside.Json.Writer

/-! # Requests and responses -/

namespace CacheAside.Http
set_option autoImplicit false

/-- A request of the same origin. The preflight request of another origin (CORS), which the installed middleware
answers on its own between the counting and the routes, is none of these. -/
structure Request where
  method : String
  /-- The host that the request is sent to. -/
  host : String
  target : Target
  /-- The id that the request brings along. -/
  id : Option String

/-- A value as the text of a header, which holds characters of one byte. -/
def headerText : Json → Except Failure String
  | .str text =>
    let held (c : Char) : Bool := c.toNat < 256
    match text.toList.dropWhile held with
    | [] => .ok text
    | rest =>
      .error (.unencodable (text.length - rest.length) (rest.takeWhile fun c => !held c))
  | v => .error (.notText ⟨v, .encoded⟩)

/-- Another path on the host of the request, with the query it was sent with. -/
def Request.location (r : Request) (path : List Char) : String :=
  let query := if r.target.query.isEmpty then [] else '?' :: r.target.query
  "http://" ++ r.host ++ String.ofList (escape (delimited path ++ query))

inductive Body where
  | empty
  | json (v : Json)
  | lines (ls : List String)
  /-- A document that is not looked into. -/
  | document

structure Response where
  status : Nat
  contentType : String
  body : Body
  location : Option String
  allow : List String
  /-- The id of the request, where it is sent back. -/
  id : Option String
  /-- The failure that was not handled, which goes on after the response is sent. -/
  raised : Option Failure

namespace Response

def plain (status : Nat) (contentType : String) (body : Body) : Response :=
  ⟨status, contentType, body, none, [], none, none⟩

def json (status : Nat) (v : Json) : Response := plain status "application/json" (.json v)

def detail (status : Nat) (text : String) : Response := json status (.obj [("detail", .str text)])

def notFound : Response := detail 404 "Not Found"

def notAllowed (methods : List String) : Response :=
  { detail 405 "Method Not Allowed" with allow := methods }

def redirect (location : String) : Response :=
  { plain 307 "" .empty with location := some location }

end Response

/-! ## Bodies -/

mutual
/-- A value as a body: numbers that are not finite become null. -/
def finite : Json → Json
  | .float x => if x.isNaN ∨ x.isInf then .null else .float x
  | .arr vs => .arr (finiteItems vs)
  | .obj ms => .obj (finiteMembers ms)
  | v => v

def finiteItems : List Json → List Json
  | [] => []
  | v :: vs => finite v :: finiteItems vs

def finiteMembers : List (String × Json) → List (String × Json)
  | [] => []
  | (k, v) :: ms => (k, finite v) :: finiteMembers ms
end

mutual
def isFinite : Json → Bool
  | .float x => !(x.isNaN || x.isInf)
  | .arr vs => areFinite vs
  | .obj ms => membersFinite ms
  | _ => true

def areFinite : List Json → Bool
  | [] => true
  | v :: vs => isFinite v && areFinite vs

def membersFinite : List (String × Json) → Bool
  | [] => true
  | (_, v) :: ms => isFinite v && membersFinite ms
end

/-! ## Declared shapes -/

/-- Whether a value is an object. -/
def isObject : Json → Bool
  | .obj _ => true
  | _ => false

/-- The shapes that the data of an answer can be declared to have. -/
inductive Shape where
  | object
  | objects
deriving DecidableEq, Repr

namespace Shape

def describes : Shape → Json → Bool
  | .object, v => isObject v
  | .objects, .arr vs => vs.all isObject
  | .objects, _ => false

/-- How many levels of a value the shape itself describes. -/
def levels : Shape → Nat
  | .object => 1
  | .objects => 2

/-- How many levels a value may have below its shape. -/
def levelsBelow : Nat := 255

/-- Whether a value goes no deeper below the shape than it may. -/
def holds (s : Shape) (v : Json) : Bool := decide (v.levels ≤ s.levels + levelsBelow)

end Shape
end CacheAside.Http
