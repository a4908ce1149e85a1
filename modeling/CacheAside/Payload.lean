import CacheAside.Json.Writer
import CacheAside.Failure

/-! # What providers deliver

Most providers deliver JSON. A native value is told apart by its name and has a JSON form, or none. -/

namespace CacheAside
set_option autoImplicit false

inductive Payload where
  | json (v : Json)
  | native (name : String) (form : Except WriteError Json)

namespace Payload

/-- The JSON text of a value that keeps within the limits. -/
def writeWithin (limits : Json.Limits) (v : Json) : Except WriteError String :=
  if limits.digits < v.widest then .error .tooManyDigits
  else if limits.depth < v.depth then .error .tooDeep
  else .ok v.text

theorem writeWithin_eq_ok {limits : Json.Limits} {v : Json} {text : String} :
    writeWithin limits v = .ok text ↔ v.widest ≤ limits.digits ∧ v.depth ≤ limits.depth ∧ v.text = text := by
  rw [writeWithin]
  split
  case isTrue hwide => exact iff_of_false (fun h => nomatch h) fun h => Nat.not_lt.2 h.1 hwide
  case isFalse hwidth =>
    split
    case isTrue hdeep => exact iff_of_false (fun h => nomatch h) fun h => Nat.not_lt.2 h.2.1 hdeep
    case isFalse hdepth =>
      simp only [Except.ok.injEq, Nat.not_lt.1 hwidth, Nat.not_lt.1 hdepth, true_and]

def text (limits : Json.Limits) : Payload → Except WriteError String
  | .json v => writeWithin limits v
  | .native _ (.ok v) => writeWithin limits v
  | .native _ (.error e) => .error e

/-- The JSON that a payload stands for; a native value without a form stands for nothing. -/
def toJson : Payload → Json
  | .json v => v
  | .native _ (.ok v) => v
  | .native _ (.error _) => .null

end Payload
end CacheAside
