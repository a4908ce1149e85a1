import CacheAside.Number.Decimal

/-! # Doubles written as text

A double is written with the fewest digits that read back to it. The style decides what the special
values are called; every style writes plain decimals from `0.0001` up to sixteen digits before the
point, with at least one digit after it, and an exponent of at least two digits elsewhere. -/

namespace CacheAside.Number
set_option autoImplicit false

/-- What the values without digits are called. -/
structure Style where
  nan : String
  infinity : String
  minusInfinity : String

/-- An exponent with its sign and at least two digits. -/
def exponentText (e : Int) : List Char :=
  let digits := Nat.toDigits 10 e.natAbs
  (if e < 0 then '-' else '+') :: (if digits.length < 2 then '0' :: digits else digits)

/-- The digits `0.d₁d₂… * 10 ^ point`: plain where the point stands near the digits, else scientific. -/
def layout (digits : List Char) (point : Int) : List Char :=
  if -4 < point ∧ point ≤ 16 then
    if point ≤ 0 then '0' :: '.' :: (List.replicate (-point).toNat '0' ++ digits)
    else
      let whole := digits.take point.toNat
      let rest := digits.drop point.toNat
      whole ++ List.replicate (point.toNat - digits.length) '0' ++
        '.' :: (if rest.isEmpty then ['0'] else rest)
  else
    match digits with
    | [] => ['0']
    | d :: ds => d :: ((if ds.isEmpty then [] else '.' :: ds) ++ 'e' :: exponentText (point - 1))

/-- The text of a positive finite double. -/
def positive (x : Float) : List Char :=
  let d := Decimal.shortest x
  let digits := Nat.toDigits 10 d.digits
  layout digits (digits.length + d.exponent)

/-- Whether the sign bit is set. -/
def isNegative (x : Float) : Bool := decide (Nat.pow 2 63 ≤ x.toBits.toNat)

/-- The text of a double. -/
def chars (style : Style) (x : Float) : List Char :=
  if x.isNaN then style.nan.toList
  else if x.isInf then (if isNegative x then style.minusInfinity else style.infinity).toList
  else
    let sign := if isNegative x then ['-'] else []
    if x == 0.0 then sign ++ ['0', '.', '0'] else sign ++ positive x.abs

/-- The text of a double. -/
def text (style : Style) (x : Float) : String := String.ofList (chars style x)

/-- The text of an integer. -/
def intChars (i : Int) : List Char :=
  if i < 0 then '-' :: Nat.toDigits 10 i.natAbs else Nat.toDigits 10 i.natAbs

end CacheAside.Number
