import CacheAside.Settings.Numeral
import CacheAside.Json.Value
import CacheAside.Misfit

/-! # Fields of settings

A field takes a value of one kind. Text is read as a number where a number is wanted; nothing is read as
text but text. Faults are collected: of several fields every one that does not fit is told, in order, and
all fit or nothing is had (`Checked.seq_eq_fits_iff`). -/

namespace CacheAside
set_option autoImplicit false

/-! ## Kinds of values -/

/-- How a value becomes the content of a field. -/
abbrev Kind (α : Type) := Json → Except Misfit α

namespace Kind

def text : Kind String
  | .str s => .ok s
  | _ => .error .notText

/-- The members of an object. -/
def members : Kind (List (String × Json))
  | .obj ms => .ok ms
  | _ => .error .notObject

/-- An integral double within the range of machine words. -/
def integral (x : Float) : Except Misfit Int :=
  if x.isNaN ∨ x.isInf then .error .notFinite
  else
    let (m, q) := Decimal.parts x
    let (num, den) := Decimal.fraction m q
    if num % den ≠ 0 then .error .fractional
    else if Nat.pow 2 63 ≤ num / den then .error .integerTooLong
    else .ok (if x < 0.0 then -(num / den : Nat) else (num / den : Nat))

def integer : Kind Int
  | .int i => .ok i
  | .bool b => .ok (if b then 1 else 0)
  | .float x => integral x
  | .str s =>
    match Numeral.readInt s with
    | .ok i => .ok i
    | .error .malformed => .error .unreadableInteger
    | .error .tooLong => .error .integerTooLong
  | _ => .error .notInteger

/-- An integer that is not negative. -/
def count : Kind Int := fun v => do
  let i ← integer v
  if i < 0 then throw .belowMinimum else return i

/-- A double; an integer beyond all doubles is not a number. -/
def number : Kind Float
  | .int i => if (Float.ofInt i).isInf then .error .notNumber else .ok (Float.ofInt i)
  | .bool b => .ok (if b then 1.0 else 0.0)
  | .float x => .ok x
  | .str s =>
    match Numeral.readFloat s with
    | some x => .ok x
    | none => .error .unreadableNumber
  | _ => .error .notNumber

/-- A value of a kind, or null. -/
def optional {α : Type} (kind : Kind α) : Kind (Option α)
  | .null => .ok none
  | v => some <$> kind v

theorem count_eq_ok_iff {v : Json} {i : Int} : count v = .ok i ↔ integer v = .ok i ∧ 0 ≤ i := by
  unfold count
  cases integer v with
  | error m => simp [bind, Except.bind]
  | ok j =>
    by_cases hj : j < 0
    · simp [bind, Except.bind, hj, throw, throwThe, MonadExceptOf.throw]
      omega
    · simp [bind, Except.bind, hj, pure, Except.pure]
      omega

end Kind

/-! ## Checked values -/

/-- A value, or the faults that were found. -/
inductive Checked (α : Type) where
  | fits (a : α)
  | faulty (faults : List Fault)

namespace Checked
variable {α β : Type}

/-- The faults of both sides are kept, in order. -/
def apply : Checked (α → β) → Checked α → Checked β
  | .fits f, .fits a => .fits (f a)
  | .fits _, .faulty fs => .faulty fs
  | .faulty fs, .fits _ => .faulty fs
  | .faulty fs, .faulty gs => .faulty (fs ++ gs)

instance : Applicative Checked where
  pure := .fits
  seq f a := apply f (a ())

/-- A value that was given under a name. -/
def ofGiven (kind : Kind α) (name : String) (v : Json) : Checked α :=
  match kind v with
  | .ok a => .fits a
  | .error misfit => .faulty [⟨name, misfit⟩]

def faults : Checked α → List Fault
  | .fits _ => []
  | .faulty fs => fs

theorem seq_eq_fits_iff {f : Checked (α → β)} {a : Checked α} {b : β} :
    f <*> a = .fits b ↔ ∃ g x, f = .fits g ∧ a = .fits x ∧ g x = b := by
  cases f <;> cases a <;> simp [Seq.seq, apply]

end Checked
end CacheAside
