import CacheAside.Proofs.Run.Trace

/-! # Recorded runs

A run of operations is recorded as one event for each, with the worlds before and after it. An invariant
of the events so far and the world they led to holds at every event. -/

namespace CacheAside
set_option autoImplicit false

/-- Whether calls were made and all of them were answered. -/
def wentThrough (exchanges : List Exchange) : Bool :=
  !exchanges.isEmpty && exchanges.all fun x => x.failure.isNone

theorem wentThrough_of_failed {exchanges : List Exchange} {x : Exchange} (hx : x ∈ exchanges)
    (hf : x.failure.isSome = true) : wentThrough exchanges = false := by
  rw [wentThrough, Bool.and_eq_false_iff]
  refine .inr ?_
  rw [List.all_eq_false]
  refine ⟨x, hx, ?_⟩
  cases h : x.failure <;> simp_all

theorem Traced.wentThrough {w w' : World} {exchanges : List Exchange} (h : Traced w w' exchanges)
    (hw : w.network.NeverFails) (hne : exchanges ≠ []) : wentThrough exchanges = true := by
  have hnone := hw.failure_eq_none h.faithful
  rw [CacheAside.wentThrough, Bool.and_eq_true]
  refine ⟨by simpa using hne, ?_⟩
  rw [List.all_eq_true]
  intro x hx
  rw [hnone x hx]
  rfl

structure Event (δ α : Type) where
  deed : δ
  before : World
  outcome : Except Failure α
  after : World

namespace Event
variable {δ α : Type}

/-- The exchanges made meanwhile, the latest first. -/
def exchanges (e : Event δ α) : List Exchange :=
  e.after.history.take (e.after.history.length - e.before.history.length)

def pauses (e : Event δ α) : List ℕ := e.before.network.pauses e.before.history e.exchanges

def succeeded (e : Event δ α) : Bool := wentThrough e.exchanges

def Performs (perform : δ → Op α) (e : Event δ α) : Prop :=
  (perform e.deed).run e.before = (e.outcome, e.after)

end Event

/-- The events of operations done one after the other. -/
def record {δ α : Type} (perform : δ → Op α) : List δ → World → List (Event δ α)
  | [], _ => []
  | d :: ds, w =>
    let done := (perform d).run w
    ⟨d, w, done.1, done.2⟩ :: record perform ds done.2

/-- What came since the last break, after one more. -/
theorem takeWhile_reverse_concat {α : Type} (breaks : α → Bool) (as : List α) (a : α) :
    ((as ++ [a]).reverse.takeWhile fun x => !breaks x) =
      if breaks a then [] else a :: as.reverse.takeWhile fun x => !breaks x := by
  rw [List.reverse_append, List.reverse_singleton, List.singleton_append, List.takeWhile_cons]
  cases breaks a <;> rfl

/-- What holds at the start and is kept by every event holds before every event. -/
theorem record_invariant {δ α : Type} {perform : δ → Op α} {P : List (Event δ α) → World → Prop}
    (hstep : ∀ past e, P past e.before → e.Performs perform → P (past ++ [e]) e.after) {deeds : List δ}
    {w : World} (hstart : P [] w) {past rest : List (Event δ α)} {e : Event δ α}
    (h : record perform deeds w = past ++ e :: rest) : P past e.before ∧ e.Performs perform := by
  suffices hall : ∀ (deeds : List δ) (w : World) (done past rest : List (Event δ α)), P done w →
      record perform deeds w = past ++ e :: rest → P (done ++ past) e.before ∧ e.Performs perform by
    simpa using hall deeds w [] past rest hstart h
  intro deeds
  induction deeds with
  | nil =>
    intro w done past rest _ h
    simp [record] at h
  | cons d ds ih =>
    intro w done past rest hP h
    rw [record] at h
    cases past with
    | nil =>
      obtain ⟨rfl, -⟩ := List.cons.inj h
      rw [List.append_nil]
      exact ⟨hP, rfl⟩
    | cons e' past =>
      obtain ⟨rfl, htail⟩ := List.cons.inj h
      have hnext := hstep done ⟨d, w, ((perform d).run w).1, ((perform d).run w).2⟩ hP rfl
      have hlater := ih _ _ past rest hnext htail
      rwa [List.append_assoc] at hlater

end CacheAside
