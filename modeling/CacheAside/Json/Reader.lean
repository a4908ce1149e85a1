import CacheAside.Json.Writer

/-! # Reading JSON

`read` takes a whole text: blanks may stand around a value, nothing else may follow it. The first fault
from the left decides the error. Besides the standard forms the names of the special doubles are read.
A repeated member keeps its first place and its last value. The limits bound the digits of an integer
and the brackets open at once. Texts are made of whole characters: an escape that stands for half of one is
read, but what it stands for is lost. -/

namespace CacheAside.Json
set_option autoImplicit false

structure Limits where
  digits : Nat
  depth : Nat
  /-- One bracket may always be open. -/
  depth_pos : 0 < depth

/-- The limits that a service starts with. -/
def Limits.standard : Limits := ⟨4300, 1000, by decide⟩

inductive ReadError where
  | malformed
  /-- An integer has so many digits. -/
  | tooManyDigits (digits : Nat)
  | tooDeep
deriving DecidableEq, Repr

/-- What was read, and the text after it. -/
abbrev Reading (α : Type) := Except ReadError (α × List Char)

/-! ## Characters -/

def isBlankChar (c : Char) : Bool := c = ' ' ∨ c = '\t' ∨ c = '\n' ∨ c = '\r'

def skipBlanks (cs : List Char) : List Char := cs.dropWhile isBlankChar

def isDigit (c : Char) : Bool := '0' ≤ c ∧ c ≤ '9'

/-- The value of a hexadecimal digit of either case. -/
def hexValue (c : Char) : Option Nat :=
  if '0' ≤ c ∧ c ≤ '9' then some (c.toNat - '0'.toNat)
  else if 'a' ≤ c ∧ c ≤ 'f' then some (c.toNat - 'a'.toNat + 10)
  else if 'A' ≤ c ∧ c ≤ 'F' then some (c.toNat - 'A'.toNat + 10)
  else none

/-- A sixteen-bit unit from four hexadecimal digits. -/
def unit (a b c d : Char) : Option Nat := do
  return (← hexValue a) * 4096 + (← hexValue b) * 256 + (← hexValue c) * 16 + (← hexValue d)

/-- The character that a letter after a backslash stands for. -/
def unescape (c : Char) : Option Char :=
  if c = '"' ∨ c = '\\' ∨ c = '/' then some c
  else if c = 'n' then some '\n'
  else if c = 'r' then some '\r'
  else if c = 't' then some '\t'
  else if c = 'f' then some '\x0c'
  else if c = 'b' then some '\x08'
  else none

/-! ## Strings -/

def isHigh (u : Nat) : Bool := 0xD800 ≤ u ∧ u < 0xDC00

def isLow (u : Nat) : Bool := 0xDC00 ≤ u ∧ u < 0xE000

/-- A character by number. A surrogate that stands alone is none; the replacement character takes its place. -/
def charOf (u : Nat) : Char := if isHigh u ∨ isLow u then '\uFFFD' else Char.ofNat u

/-- Units put together to characters. -/
def pairUnits : List Nat → List Char
  | [] => []
  | [u] => [charOf u]
  | u :: v :: us =>
    if isHigh u ∧ isLow v then
      Char.ofNat (0x10000 + (u - 0xD800) * 1024 + (v - 0xDC00)) :: pairUnits us
    else charOf u :: pairUnits (v :: us)

/-- The units up to the closing quote. -/
def readUnits : List Char → Reading (List Nat)
  | [] => .error .malformed
  | '"' :: rest => .ok ([], rest)
  | '\\' :: 'u' :: a :: b :: c :: d :: rest =>
    match unit a b c d, readUnits rest with
    | none, _ => .error .malformed
    | some _, .error e => .error e
    | some u, .ok (us, rest) => .ok (u :: us, rest)
  | '\\' :: c :: rest =>
    match unescape c, readUnits rest with
    | none, _ => .error .malformed
    | some _, .error e => .error e
    | some c, .ok (us, rest) => .ok (c.toNat :: us, rest)
  | c :: rest =>
    if c.toNat < 0x20 ∨ c = '\\' then .error .malformed
    else
      match readUnits rest with
      | .error e => .error e
      | .ok (us, rest) => .ok (c.toNat :: us, rest)

/-- A string whose opening quote was read. -/
def readString (cs : List Char) : Reading String :=
  match readUnits cs with
  | .error e => .error e
  | .ok (us, rest) => .ok (String.ofList (pairUnits us), rest)

/-! ## Numbers -/

/-- The digits before the point: a zero, or digits that do not begin with one. -/
def readWhole : List Char → Option (List Char × List Char)
  | [] => none
  | c :: cs =>
    if c = '0' then some (['0'], cs)
    else if isDigit c then some (c :: cs.takeWhile isDigit, cs.dropWhile isDigit)
    else none

/-- A point and the digits after it, if at least one follows. -/
def readFraction : List Char → Option (List Char × List Char)
  | '.' :: c :: cs =>
    if isDigit c then some (c :: cs.takeWhile isDigit, cs.dropWhile isDigit) else none
  | _ => none

/-- Digits with an optional sign, as an exponent. -/
def readSigned : List Char → Option (Int × List Char)
  | [] => none
  | s :: cs =>
    let negative := s = '-'
    let cs := if s = '-' ∨ s = '+' then cs else s :: cs
    let digits := cs.takeWhile isDigit
    if digits.isEmpty then none
    else
      let n := Nat.ofDigitChars 10 digits 0
      some (if negative then -(n : Int) else n, cs.dropWhile isDigit)

/-- An exponent, if a digit follows its mark. -/
def readExponent : List Char → Option (Int × List Char)
  | c :: cs => if c = 'e' ∨ c = 'E' then readSigned cs else none
  | [] => none

/-- The double with these digits, point and exponent. -/
def double (negative : Bool) (whole fraction : List Char) (exponent : Int) : Float :=
  let x := Decimal.toFloat ⟨Nat.ofDigitChars 10 (whole ++ fraction) 0, exponent - fraction.length⟩
  if negative then -x else x

def readNumber (limits : Limits) (cs : List Char) : Reading Json :=
  let negative := cs.head? = some '-'
  let cs := if negative then cs.drop 1 else cs
  match readWhole cs with
  | none => .error .malformed
  | some (whole, rest) =>
    match readFraction rest with
    | some (fraction, rest) =>
      match readExponent rest with
      | some (e, rest) => .ok (.float (double negative whole fraction e), rest)
      | none => .ok (.float (double negative whole fraction 0), rest)
    | none =>
      match readExponent rest with
      | some (e, rest) => .ok (.float (double negative whole [] e), rest)
      | none =>
        if limits.digits < whole.length then .error (.tooManyDigits whole.length)
        else
          let n := Nat.ofDigitChars 10 whole 0
          .ok (.int (if negative then -(n : Int) else n), rest)

/-! ## Values -/

mutual
/-- A value at the front of the text; `open` brackets may still be opened. -/
def readValue (limits : Limits) : Nat → Nat → List Char → Reading Json
  | 0, _, _ => .error .malformed
  | fuel + 1, free, cs =>
    match cs with
    | '"' :: rest =>
      match readString rest with
      | .error e => .error e
      | .ok (s, rest) => .ok (.str s, rest)
    | '[' :: rest =>
      match free with
      | 0 => .error .tooDeep
      | free + 1 =>
        match skipBlanks rest with
        | ']' :: rest => .ok (.arr [], rest)
        | rest =>
          match readItems limits fuel free rest with
          | .error e => .error e
          | .ok (vs, rest) => .ok (.arr vs, rest)
    | '\x7b' :: rest =>
      match free with
      | 0 => .error .tooDeep
      | free + 1 =>
        match skipBlanks rest with
        | '\x7d' :: rest => .ok (.obj [], rest)
        | rest =>
          match readMembers limits fuel free rest with
          | .error e => .error e
          | .ok (ms, rest) => .ok (object ms, rest)
    | 'n' :: 'u' :: 'l' :: 'l' :: rest => .ok (.null, rest)
    | 't' :: 'r' :: 'u' :: 'e' :: rest => .ok (.bool true, rest)
    | 'f' :: 'a' :: 'l' :: 's' :: 'e' :: rest => .ok (.bool false, rest)
    | 'N' :: 'a' :: 'N' :: rest => .ok (.float Decimal.nan, rest)
    | 'I' :: 'n' :: 'f' :: 'i' :: 'n' :: 'i' :: 't' :: 'y' :: rest => .ok (.float Decimal.infinity, rest)
    | '-' :: 'I' :: 'n' :: 'f' :: 'i' :: 'n' :: 'i' :: 't' :: 'y' :: rest =>
      .ok (.float Decimal.minusInfinity, rest)
    | _ => readNumber limits cs

/-- Items up to the closing bracket, at least one. -/
def readItems (limits : Limits) : Nat → Nat → List Char → Reading (List Json)
  | 0, _, _ => .error .malformed
  | fuel + 1, free, cs =>
    match readValue limits fuel free cs with
    | .error e => .error e
    | .ok (v, rest) =>
      match skipBlanks rest with
      | ']' :: rest => .ok ([v], rest)
      | ',' :: rest =>
        match readItems limits fuel free (skipBlanks rest) with
        | .error e => .error e
        | .ok (vs, rest) => .ok (v :: vs, rest)
      | _ => .error .malformed

/-- Members up to the closing brace, at least one. -/
def readMembers (limits : Limits) : Nat → Nat → List Char → Reading (List (String × Json))
  | 0, _, _ => .error .malformed
  | fuel + 1, free, cs =>
    match cs with
    | '"' :: rest =>
      match readString rest with
      | .error e => .error e
      | .ok (k, rest) =>
        match skipBlanks rest with
        | ':' :: rest =>
          match readValue limits fuel free (skipBlanks rest) with
          | .error e => .error e
          | .ok (v, rest) =>
            match skipBlanks rest with
            | '\x7d' :: rest => .ok ([(k, v)], rest)
            | ',' :: rest =>
              match readMembers limits fuel free (skipBlanks rest) with
              | .error e => .error e
              | .ok (ms, rest) => .ok ((k, v) :: ms, rest)
            | _ => .error .malformed
        | _ => .error .malformed
    | _ => .error .malformed
end

/-- A text that holds one value. Each bracket and each item costs one step, so twice the length of the
text is enough. -/
def readChars (limits : Limits) (cs : List Char) : Except ReadError Json :=
  match readValue limits (2 * cs.length + 2) limits.depth (skipBlanks cs) with
  | .error e => .error e
  | .ok (v, rest) => if (skipBlanks rest).isEmpty then .ok v else .error .malformed

def read (limits : Limits) (s : String) : Except ReadError Json := readChars limits s.toList

end CacheAside.Json
