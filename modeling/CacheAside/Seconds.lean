import CacheAside.Json.Plain

/-! # Numbers of seconds

How long something lasts is told as a number of seconds, in most cases a whole one. A truth value counts
as one second or none; any other value may stand in the place of a number, but it cannot be compared with
one, and nothing can be taken off it. -/

namespace CacheAside
set_option autoImplicit false

inductive Seconds where
  | whole (n : Int)
  | flag (b : Bool)
  | double (x : Float)
  /-- What is no number. -/
  | other (v : Json)

namespace Seconds

/-- A value in the place of a number of seconds. -/
def ofJson : Json → Seconds
  | .int n => .whole n
  | .bool b => .flag b
  | .float x => .double x
  | v => .other v

def json : Seconds → Json
  | .whole n => .int n
  | .flag b => .bool b
  | .double x => .float x
  | .other v => v

/-- The number, if it is a whole one. -/
def whole? : Seconds → Option Int
  | .whole n => some n
  | .flag b => some (if b then 1 else 0)
  | .double _ | .other _ => none

/-- The number as a double; what is none counts nothing. -/
def real : Seconds → Float
  | .whole n => Float.ofInt n
  | .flag b => if b then 1.0 else 0.0
  | .double x => x
  | .other _ => 0.0

def isNumber : Seconds → Bool
  | .other _ => false
  | _ => true

/-- The seconds, unless they are null. -/
def unlessNull : Seconds → Option Seconds
  | .other .null => none
  | s => some s

/-- The seconds that are left after some have passed; nothing is taken off what is no number. -/
def minus : Seconds → Seconds → Seconds
  | .other v, _ => .other v
  | a, b =>
    match a.whole?, b.whole? with
    | some m, some n => .whole (m - n)
    | _, _ => .double (a.real - b.real)

/-- Asks a whole number or a double, if there is one. -/
def ask? (ofWhole : Int → Bool) (ofDouble : Float → Bool) : Seconds → Option Bool
  | .other _ => none
  | .double x => some (ofDouble x)
  | s => s.whole?.map ofWhole

def isNegative? : Seconds → Option Bool := ask? (· < 0) (· < 0.0)

def isPositive? : Seconds → Option Bool := ask? (0 < ·) (0.0 < ·)

/-- Whether no seconds are left. -/
def isOver? : Seconds → Option Bool := ask? (· ≤ 0) (· ≤ 0.0)

@[simp] theorem minus_whole (m n : Int) : (whole m).minus (whole n) = whole (m - n) := rfl

@[simp] theorem isNegative?_whole (n : Int) : (whole n).isNegative? = some (decide (n < 0)) := rfl

@[simp] theorem isPositive?_whole (n : Int) : (whole n).isPositive? = some (decide (0 < n)) := rfl

@[simp] theorem isOver?_whole (n : Int) : (whole n).isOver? = some (decide (n ≤ 0)) := rfl

@[simp] theorem unlessNull_whole (n : Int) : (whole n).unlessNull = some (whole n) := rfl

@[simp] theorem json_ofJson (v : Json) : (ofJson v).json = v := by cases v <;> rfl

end Seconds
end CacheAside
