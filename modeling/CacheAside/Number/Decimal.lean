/-! # Decimal numerals and the doubles nearest to them

A decimal is `digits * 10 ^ exponent`. `toFloat` gives the double nearest to it; powers of ten far
outside the range of doubles are answered without being computed. `shortest` goes the other way: the
fewest digits that read back to the double, and of those the closest to it. -/

namespace CacheAside
set_option autoImplicit false

/-- The number `digits * 10 ^ exponent`. -/
structure Decimal where
  digits : Nat
  exponent : Int
deriving DecidableEq, Repr

namespace Decimal

/-! ## Named doubles -/

def nan : Float := Float.ofBits 0x7FF8000000000000

def infinity : Float := Float.ofBits 0x7FF0000000000000

def minusInfinity : Float := Float.ofBits 0xFFF0000000000000

/-! ## From a decimal to a double -/

/-- How many decimal digits a number is written with. -/
def width (n : Nat) : Nat := (Nat.toDigits 10 n).length

/-- The double nearest to a decimal, ties to even; too large a number is infinite. -/
def toFloat (d : Decimal) : Float :=
  if d.digits = 0 then 0.0
  else
    let magnitude := (width d.digits : Int) + d.exponent
    if magnitude > 310 then infinity
    else if magnitude < -330 then 0.0
    else Float.ofScientific d.digits (d.exponent < 0) d.exponent.natAbs

/-! ## From a double to a decimal -/

/-- A finite double without its sign is `m * 2 ^ q`. -/
def parts (x : Float) : Nat × Int :=
  let bits := x.toBits.toNat
  let exponent : Nat := bits / Nat.pow 2 52 % Nat.pow 2 11
  let fraction : Nat := bits % Nat.pow 2 52
  if exponent = 0 then (fraction, -1074) else (fraction + Nat.pow 2 52, (exponent : Int) - 1075)

/-- The numerator and denominator of `m * 2 ^ q`. -/
def fraction (m : Nat) (q : Int) : Nat × Nat :=
  (m * Nat.pow 2 q.toNat, Nat.pow 2 (-q).toNat)

/-- A finite double as a fraction. -/
def fraction? (x : Float) : Option (Int × Nat) :=
  if x.isNaN ∨ x.isInf then none
  else
    let (m, q) := parts x
    let (num, den) := fraction m q
    some (if x < 0.0 then -(num : Int) else num, den)

/-- The least `k` with `num / den < 10 ^ k`, for a positive quotient. -/
def magnitude (num den : Nat) : Int :=
  if den ≤ num then width (num / den)
  else
    let w := width (den / num)
    if num * Nat.pow 10 (w - 1) = den then 2 - (w : Int) else 1 - (w : Int)

/-- The two neighbours of `num / den` among the multiples of `10 ^ grid`, the nearer one first; of two
equally near ones the even multiple is first. -/
def neighbours (num den : Nat) (grid : Int) : List Decimal :=
  let n := num * Nat.pow 10 (-grid).toNat
  let d := den * Nat.pow 10 grid.toNat
  let low := n / d
  let twice := 2 * (n % d)
  if twice < d ∨ twice = d ∧ low % 2 = 0 then [⟨low, grid⟩, ⟨low + 1, grid⟩]
  else [⟨low + 1, grid⟩, ⟨low, grid⟩]

/-- The value `num / den` itself, for a denominator that is a power of two. -/
def exact (num den : Nat) : Decimal :=
  ⟨num * Nat.pow 5 (Nat.log2 den), -(Nat.log2 den : Int)⟩

/-- Leaves out the zeros at the end of the digits; a number of `fuel` digits has at most that many. -/
def strip : Nat → Decimal → Decimal
  | 0, d => d
  | fuel + 1, d =>
    if d.digits ≠ 0 ∧ d.digits % 10 = 0 then strip fuel ⟨d.digits / 10, d.exponent + 1⟩ else d

/-- The fewest digits that read back to the positive finite double `x`. Seventeen suffice for every
double. -/
def shortest (x : Float) : Decimal :=
  let (m, q) := parts x
  let (num, den) := fraction m q
  let k := magnitude num den
  let candidates := (List.range 17).flatMap fun (n : Nat) => neighbours num den (k - ((n : Int) + 1))
  match candidates.find? fun d => d.toFloat = x with
  | some d => strip 17 d
  | none => exact num den

end Decimal
end CacheAside
