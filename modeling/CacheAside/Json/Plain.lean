import CacheAside.Json.Value
import CacheAside.Number.Notation
import CacheAside.Text.Printable

/-! # Values as plain text

A string is its own plain text; other values are written out, and strings inside brackets are quoted.
The quote is single unless the string holds a single quote and no double one. -/

namespace CacheAside.Json
set_option autoImplicit false

/-- The special doubles in plain text. -/
def plainNumber : Number.Style := ⟨"nan", "inf", "-inf"⟩

/-- Lower-case hexadecimal digits, with zeros in front up to a width. -/
def hex (width n : Nat) : List Char :=
  let digits := Nat.toDigits 16 n
  List.replicate (width - digits.length) '0' ++ digits

/-- A character by its number, in the shortest form that holds it. -/
def numbered (c : Char) : List Char :=
  let n := c.toNat
  if n < 0x100 then '\\' :: 'x' :: hex 2 n
  else if n < 0x10000 then '\\' :: 'u' :: hex 4 n
  else '\\' :: 'U' :: hex 8 n

/-- One character inside quotes; what cannot be printed is written by number. -/
def quotedChar (quote c : Char) : List Char :=
  if c = quote ∨ c = '\\' then ['\\', c]
  else if c = '\n' then ['\\', 'n']
  else if c = '\r' then ['\\', 'r']
  else if c = '\t' then ['\\', 't']
  else if Text.isPrintable c then [c]
  else numbered c

def quoted (s : String) : List Char :=
  let cs := s.toList
  let quote := if '\x27' ∈ cs ∧ '"' ∉ cs then '"' else '\x27'
  quote :: (cs.flatMap (quotedChar quote) ++ [quote])

mutual
/-- A value inside brackets. -/
def inner : Json → List Char
  | .null => "None".toList
  | .bool b => (if b then "True" else "False").toList
  | .int i => Number.intChars i
  | .float x => Number.chars plainNumber x
  | .str s => quoted s
  | .arr [] => "[]".toList
  | .arr (v :: vs) => '[' :: (inner v ++ innerItems vs)
  | .obj [] => ['\x7b', '\x7d']
  | .obj ((k, v) :: ms) => '\x7b' :: (quoted k ++ ": ".toList ++ inner v ++ innerMembers ms)

def innerItems : List Json → List Char
  | [] => [']']
  | v :: vs => ", ".toList ++ inner v ++ innerItems vs

def innerMembers : List (String × Json) → List Char
  | [] => ['\x7d']
  | (k, v) :: ms => ", ".toList ++ quoted k ++ ": ".toList ++ inner v ++ innerMembers ms
end

/-- The plain text of a value. -/
def plain : Json → String
  | .str s => s
  | v => String.ofList (inner v)

end CacheAside.Json
