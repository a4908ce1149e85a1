import CacheAside.Json.Reader
import CacheAside.Text.Blank
import CacheAside.Text.Segments

/-! # Numbers as people write them

An integer written plainly is read at once. Else it is tidied first: blanks around it are dropped, and
behind its sign the zeros in front, a point with nothing but zeros behind it, and single underscores. A
decimal may leave out the digits before its point or those after it, but not both; it may have an
exponent, or be the name of a special double in letters of either case. -/

namespace CacheAside.Numeral
set_option autoImplicit false

/-! ## Parts of a number -/

/-- Whether there is a minus sign, and what follows the sign. -/
def takeSign : List Char → Bool × List Char
  | '-' :: cs => (true, cs)
  | '+' :: cs => (false, cs)
  | cs => (false, cs)

/-- A text without underscores; nothing if one of them stands at an end or beside another. -/
def dropUnderscores (cs : List Char) : Option (List Char) :=
  let groups := Text.split '_' cs
  if groups.all (!·.isEmpty) then some groups.flatten else none

/-- Whether a number without zeros in front can begin with this character. -/
def isLeading (c : Char) : Bool := ('1' ≤ c ∧ c ≤ '9') ∨ c = '-'

/-- A number without the zeros in front, among which any underscores may stand. Of zeros that nothing or
a point follows the last character stays. -/
def dropZeros (cs : List Char) : Option (List Char) :=
  let zeros := if cs.head? = some '0' then cs.takeWhile fun c => c = '0' ∨ c = '_' else []
  let rest := cs.drop zeros.length
  match rest with
  | [] => if zeros.isEmpty then none else some (zeros.drop (zeros.length - 1))
  | c :: _ =>
    if isLeading c then some rest
    else if c = '.' ∧ !zeros.isEmpty then some (zeros.drop (zeros.length - 1) ++ rest)
    else none

/-- A number without a point behind which zeros stand and nothing else. -/
def dropPoint (cs : List Char) : List Char :=
  let whole := cs.takeWhile (· ≠ '.')
  let fraction := cs.drop (whole.length + 1)
  if !fraction.isEmpty ∧ fraction.all (· = '0') then whole else cs

/-! ## Integers -/

inductive IntFault where
  | malformed
  | tooLong
deriving DecidableEq, Repr

/-- The digits that an integer may have. -/
def maxDigits : Nat := 4300

/-- A plain integer: digits without zeros in front, and a minus sign if it is negative. -/
def plainInt? (cs : List Char) : Option Int :=
  let digits := if cs.head? = some '-' then cs.drop 1 else cs
  if digits.isEmpty ∨ !digits.all Json.isDigit then none
  else if digits.head? = some '0' ∧ digits.length ≠ 1 then none
  else
    let n : Int := Nat.ofDigitChars 10 digits 0
    some (if cs.head? = some '-' then -n else n)

/-- Whether a text begins with a plain integer of more digits than are read. -/
def isTooLong (cs : List Char) : Bool :=
  let digits := (if cs.head? = some '-' then cs.drop 1 else cs).takeWhile Json.isDigit
  digits.head? ≠ some '0' ∧ maxDigits < digits.length

/-- An integer as it would be written plainly, if its text can be tidied. No second sign may follow a
plus sign. -/
def tidied? (cs : List Char) : Option (List Char) := do
  let cs := Text.trim cs
  let (negative, unsigned) := takeSign cs
  if cs.head? = some '+' ∧ unsigned.head? = some '-' then none
  else
    let digits ← dropUnderscores (dropPoint (← dropZeros unsigned))
    return if negative then '-' :: digits else digits

/-- Only a text that is plain from its start can be found too long. -/
def readInt (s : String) : Except IntFault Int :=
  let cs := s.toList
  if isTooLong cs then .error .tooLong
  else
    match (plainInt? cs).or ((tidied? cs).bind fun cs => if isTooLong cs then none else plainInt? cs) with
    | some i => .ok i
    | none => .error .malformed

/-! ## Decimals -/

/-- A special double by its name. -/
def special? (cs : List Char) : Option Float :=
  match String.ofList (cs.map Char.toLower) with
  | "nan" => some Decimal.nan
  | "inf" => some Decimal.infinity
  | "infinity" => some Decimal.infinity
  | _ => none

/-- Digits with a point and an exponent, up to the end. -/
def plain? (negative : Bool) (cs : List Char) : Option Float :=
  let whole := cs.takeWhile Json.isDigit
  let rest := cs.drop whole.length
  let (fraction, rest) := match rest with
    | '.' :: rest => (rest.takeWhile Json.isDigit, rest.dropWhile Json.isDigit)
    | _ => ([], rest)
  if whole.isEmpty ∧ fraction.isEmpty then none
  else if rest.isEmpty then some (Json.double negative whole fraction 0)
  else
    match Json.readExponent rest with
    | some (e, []) => some (Json.double negative whole fraction e)
    | _ => none

def decimal? (cs : List Char) : Option Float :=
  let (negative, cs) := takeSign cs
  match special? cs with
  | some x => some (if negative then -x else x)
  | none => plain? negative cs

/-- Underscores are only looked for where no blanks stand around the number. -/
def readFloat (s : String) : Option Float :=
  (decimal? (Text.trim s.toList)).or ((dropUnderscores s.toList).bind decimal?)

end CacheAside.Numeral
