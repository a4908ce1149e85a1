import CacheAside.Json.Value
import CacheAside.Number.Notation

/-! # Writing JSON

One line of ASCII: `", "` between neighbours, `": "` after a name, members in their order. What is not
printable ASCII is escaped, beyond sixteen bits as a surrogate pair. The doubles without digits have
names of their own. -/

namespace CacheAside.Json
set_option autoImplicit false

/-- The special doubles in JSON text. -/
def jsonNumber : Number.Style := ⟨"NaN", "Infinity", "-Infinity"⟩

/-! ## Strings -/

def hexDigit (n : Nat) : Char :=
  if n < 10 then Char.ofNat ('0'.toNat + n) else Char.ofNat ('a'.toNat + (n - 10))

/-- A sixteen-bit unit as an escape. -/
def escapeUnit (u : Nat) : List Char :=
  ['\\', 'u', hexDigit (u / 4096 % 16), hexDigit (u / 256 % 16), hexDigit (u / 16 % 16), hexDigit (u % 16)]

/-- A character as it stands between quotes. -/
def escape (c : Char) : List Char :=
  if c = '"' then ['\\', '"']
  else if c = '\\' then ['\\', '\\']
  else if c = '\n' then ['\\', 'n']
  else if c = '\r' then ['\\', 'r']
  else if c = '\t' then ['\\', 't']
  else if c = '\x0c' then ['\\', 'f']
  else if c = '\x08' then ['\\', 'b']
  else if 0x20 ≤ c.toNat ∧ c.toNat ≤ 0x7E then [c]
  else if c.toNat < 0x10000 then escapeUnit c.toNat
  else
    let n := c.toNat - 0x10000
    escapeUnit (0xD800 + n / 1024) ++ escapeUnit (0xDC00 + n % 1024)

def writeString (s : String) : List Char := '"' :: (s.toList.flatMap escape ++ ['"'])

/-! ## Values -/

mutual
/-- The text of a value. -/
def write : Json → List Char
  | .null => ['n', 'u', 'l', 'l']
  | .bool true => ['t', 'r', 'u', 'e']
  | .bool false => ['f', 'a', 'l', 's', 'e']
  | .int i => Number.intChars i
  | .float x => Number.chars jsonNumber x
  | .str s => writeString s
  | .arr [] => ['[', ']']
  | .arr (v :: vs) => '[' :: (write v ++ writeItems vs)
  | .obj [] => ['\x7b', '\x7d']
  | .obj ((k, v) :: ms) => '\x7b' :: (writeString k ++ ':' :: ' ' :: (write v ++ writeMembers ms))

/-- The items after the first one, and the closing bracket. -/
def writeItems : List Json → List Char
  | [] => [']']
  | v :: vs => ',' :: ' ' :: (write v ++ writeItems vs)

/-- The members after the first one, and the closing brace. -/
def writeMembers : List (String × Json) → List Char
  | [] => ['\x7d']
  | (k, v) :: ms => ',' :: ' ' :: (writeString k ++ ':' :: ' ' :: (write v ++ writeMembers ms))
end

/-- The text of a value. -/
def text (v : Json) : String := String.ofList (write v)

/-! ## Size -/

mutual
/-- The longest integer in a value, in digits. -/
def widest : Json → Nat
  | .int i => Decimal.width i.natAbs
  | .arr vs => widestItem vs
  | .obj ms => widestMember ms
  | _ => 0

def widestItem : List Json → Nat
  | [] => 0
  | v :: vs => max (widest v) (widestItem vs)

def widestMember : List (String × Json) → Nat
  | [] => 0
  | (_, v) :: ms => max (widest v) (widestMember ms)
end

mutual
/-- How many brackets are open at once at most. -/
def depth : Json → Nat
  | .arr vs => itemDepth vs + 1
  | .obj ms => memberDepth ms + 1
  | _ => 0

def itemDepth : List Json → Nat
  | [] => 0
  | v :: vs => max (depth v) (itemDepth vs)

def memberDepth : List (String × Json) → Nat
  | [] => 0
  | (_, v) :: ms => max (depth v) (memberDepth ms)
end

mutual
/-- How many values stand inside each other at most, the outermost and the innermost included. -/
def levels : Json → Nat
  | .arr vs => itemLevels vs + 1
  | .obj ms => memberLevels ms + 1
  | _ => 1

def itemLevels : List Json → Nat
  | [] => 0
  | v :: vs => max (levels v) (itemLevels vs)

def memberLevels : List (String × Json) → Nat
  | [] => 0
  | (_, v) :: ms => max (levels v) (memberLevels ms)
end

end CacheAside.Json
