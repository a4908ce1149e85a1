import CacheAside.Number.Notation

/-! # Doubles rounded to so many digits

A double is exact as a fraction, so it is rounded once: to the nearest number with so many digits, and of
two equally near ones to the even one. `fixed` counts the digits after the point, `scientific` those after
the first digit, and `general` chooses between the two by the exponent. Only the size of a number is
written here; its sign is put before it elsewhere. -/

namespace CacheAside.Number
set_option autoImplicit false

/-- The numerator and denominator of the size of a finite double. -/
def size (x : Float) : Nat × Nat :=
  let (m, q) := Decimal.parts x
  Decimal.fraction m q

/-- `num / den` in units of `10 ^ grid`, rounded. -/
def rounded (num den : Nat) (grid : Int) : Nat :=
  ((Decimal.neighbours num den grid).headD ⟨0, grid⟩).digits

/-- Digits with zeros in front up to a width. -/
def padded (width : Nat) (digits : List Char) : List Char :=
  List.replicate (width - digits.length) '0' ++ digits

/-- The digits before and after the point, so many of them after it. -/
def fixedDigits (x : Float) (places : Nat) : List Char × List Char :=
  let (num, den) := size x
  let digits := padded (places + 1) (Nat.toDigits 10 (rounded num den (-(places : Int))))
  digits.splitAt (digits.length - places)

/-- The digits `d.ddd`, so many of them after the point, and the exponent of ten that goes with them. -/
def scientificDigits (x : Float) (places : Nat) : List Char × Int :=
  let (num, den) := size x
  if num = 0 then (List.replicate (places + 1) '0', 0)
  else
    let point := Decimal.magnitude num den
    let digits := Nat.toDigits 10 (rounded num den (point - 1 - places))
    if places + 1 < digits.length then (digits.take (places + 1), point) else (digits, point - 1)

/-- Digits with a point between them. The point is left out where nothing follows, unless it is kept. -/
def pointed (keep : Bool) (whole fraction : List Char) : List Char :=
  whole ++ if fraction.isEmpty && !keep then [] else '.' :: fraction

/-- A number with so many digits after the point. -/
def fixed (keep : Bool) (places : Nat) (x : Float) : List Char :=
  let (whole, fraction) := fixedDigits x places
  pointed keep whole fraction

def withExponent (keep : Bool) (digits : List Char) (exponent : Int) : List Char :=
  pointed keep (digits.take 1) (digits.drop 1) ++ 'e' :: exponentText exponent

/-- A number with one digit before and so many after the point, and an exponent. -/
def scientific (keep : Bool) (places : Nat) (x : Float) : List Char :=
  let (digits, exponent) := scientificDigits x places
  withExponent keep digits exponent

/-- Digits without the zeros at their end. -/
def significant (digits : List Char) : List Char := (digits.reverse.dropWhile (· = '0')).reverse

/-- A number with so many significant digits: with an exponent where it is small, or has more digits
before the point than that. Unless the point is kept, zeros at the end are left out. -/
def general (keep : Bool) (precision : Nat) (x : Float) : List Char :=
  let places := precision - 1
  let trim (digits : List Char) : List Char := if keep then digits else significant digits
  let (digits, exponent) := scientificDigits x places
  if exponent < -4 ∨ (places : Int) < exponent then
    withExponent keep (digits.take 1 ++ trim (digits.drop 1)) exponent
  else
    let (whole, fraction) := fixedDigits x ((places : Int) - exponent).toNat
    pointed keep whole (trim fraction)

end CacheAside.Number
