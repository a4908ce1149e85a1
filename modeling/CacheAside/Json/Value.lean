import CacheAside.Table

/-! # JSON values

Numbers without a fraction or an exponent are unbounded integers, the others are doubles. The members
of an object stand in order; the reader and `Json.object` keep their names distinct. -/

namespace CacheAside
set_option autoImplicit false

inductive Json where
  | null
  | bool (b : Bool)
  | int (i : Int)
  | float (x : Float)
  | str (s : String)
  | arr (items : List Json)
  | obj (members : List (String × Json))
deriving Inhabited

namespace Json

/-- The object with these members written one after the other. -/
def object (members : List (String × Json)) : Json := .obj (Rows.collect members)

def ofTable (t : Table Json) : Json := .obj t.rows

/-- A member of an object by name. -/
def member? (name : String) : Json → Option Json
  | .obj members => Rows.find? name members
  | _ => none

/-- Values that stand for nothing: null, false, zero, and whatever is empty. -/
def isBlank : Json → Bool
  | .null => true
  | .bool b => !b
  | .int i => i = 0
  | .float x => x == 0.0
  | .str s => s = ""
  | .arr items => items.isEmpty
  | .obj members => members.isEmpty

def isNull : Json → Bool
  | .null => true
  | _ => false

/-- The text that a value is, if it is one. -/
def text? : Json → Option String
  | .str s => some s
  | _ => none

/-- What a value holds, one by one: the items of an array, the names of an object, the characters of a
text. Other values hold nothing that could be gone through. -/
def elements? : Json → Option (List Json)
  | .arr items => some items
  | .obj members => some (members.map fun m => .str m.1)
  | .str s => some (s.toList.map fun c => .str (String.singleton c))
  | _ => none

/-- How many things a value holds, if it is of a kind that holds any. -/
def size? (v : Json) : Option Nat := v.elements?.map List.length

def ofOption {α : Type} (f : α → Json) : Option α → Json
  | none => .null
  | some a => f a

def nat (n : Nat) : Json := .int n

def strings (ss : List String) : Json := .arr (ss.map .str)

end Json
end CacheAside
