import CacheAside.Pool
import CacheAside.Proofs.Run.Trace

/-! # Schedules

A step of a task makes at most one exchange, so the exchanges of a schedule are those of its steps one after
another, and the last exchange of a kind is that of one step of the schedule. -/

namespace CacheAside
set_option autoImplicit false

theorem World.traced_settle {α : Type} (t : Task Memory α) (w : World) : Traced w (settle t w).2 [] := by
  induction t generalizing w with
  | done a => exact Traced.refl w
  | look k ih => exact ih w.memory w
  | keep m k ih => exact (Traced.of_memory w m).trans (ih { w with memory := m })
  | call client c k _ => exact Traced.refl w
  | pause k _ => exact Traced.refl w

theorem World.traced_step {α : Type} (t : Task Memory α) (w : World) :
    Traced w (step t w).2 [] ∨ ∃ x, Traced w (step t w).2 [x] := by
  cases t with
  | done a => exact .inl (Traced.refl w)
  | look k => exact .inl (traced_settle (k w.memory) w)
  | keep m k => exact .inl ((Traced.of_memory w m).trans (traced_settle k { w with memory := m }))
  | call client c k => exact .inr ⟨_, traced_answer w client c⟩
  | pause k => exact .inl (Traced.refl w)

theorem Traced.exchanges_unique {w w' : World} {exchanges others : List Exchange} (h : Traced w w' exchanges)
    (h' : Traced w w' others) : exchanges = others :=
  List.append_cancel_right (h.history.symm.trans h'.history)

namespace Pool
variable {α : Type}

theorem traced_advance (i : ℕ) (p : Pool α) (w : World) :
    Traced w (advance i p w).2 [] ∨ ∃ x, Traced w (advance i p w).2 [x] := by
  rw [advance]
  cases p[i]? with
  | none => exact .inl (Traced.refl w)
  | some t => exact World.traced_step t w

theorem runSchedule_append (before after : List ℕ) (p : Pool α) (w : World) :
    runSchedule (before ++ after) p w =
      runSchedule after (runSchedule before p w).1 (runSchedule before p w).2 := by
  induction before generalizing p w with
  | nil => rfl
  | cons i rest ih => exact ih _ _

theorem traced_runSchedule (schedule : List ℕ) (p : Pool α) (w : World) :
    ∃ exchanges, Traced w (runSchedule schedule p w).2 exchanges := by
  induction schedule generalizing p w with
  | nil => exact ⟨[], Traced.refl w⟩
  | cons i rest ih =>
    obtain ⟨later, hlater⟩ := ih (advance i p w).1 (advance i p w).2
    rcases traced_advance i p w with h | ⟨x, h⟩
    · exact ⟨_, h.trans hlater⟩
    · exact ⟨_, h.trans hlater⟩

theorem length_runSchedule (schedule : List ℕ) (p : Pool α) (w : World) :
    (runSchedule schedule p w).1.length = p.length := by
  induction schedule generalizing p w with
  | nil => rfl
  | cons i rest ih => exact (ih _ _).trans (length_advance i p w)

/-- A schedule after which all tasks have ended, with their values and the world afterwards. -/
def Ends (schedule : List ℕ) (p : Pool α) (w : World) (vs : List α) (w' : World) : Prop :=
  runSchedule schedule p w = (vs.map .done, w')

theorem Ends.of_fst {schedule : List ℕ} {p : Pool α} {w : World} {vs : List α}
    (h : (runSchedule schedule p w).1 = vs.map .done) : Ends schedule p w vs (runSchedule schedule p w).2 :=
  Prod.ext h rfl

theorem Ends.length {schedule : List ℕ} {p : Pool α} {w w' : World} {vs : List α}
    (h : Ends schedule p w vs w') : vs.length = p.length := by
  have hlength := length_runSchedule schedule p w
  rwa [h, List.length_map] at hlength

/-- The step of a schedule that makes the last exchange of a kind, with the worlds before and after it. -/
structure LastStep (P : Exchange → Prop) (schedule : List ℕ) (p : Pool α) (w w₁ w₂ : World) : Prop where
  split : ∃ before i after, schedule = before ++ i :: after ∧ (runSchedule before p w).2 = w₁ ∧
    (runSchedule (before ++ [i]) p w).2 = w₂
  exchange : ∃ x, Traced w₁ w₂ [x] ∧ P x
  later : ∃ exchanges, Traced w₂ (runSchedule schedule p w).2 exchanges ∧ ∀ x ∈ exchanges, ¬ P x

theorem exists_lastStep {P : Exchange → Prop} {schedule : List ℕ} {p : Pool α} {w : World}
    {exchanges : List Exchange} (h : Traced w (runSchedule schedule p w).2 exchanges) {x : Exchange}
    (hmem : x ∈ exchanges) (hx : P x) : ∃ w₁ w₂, LastStep P schedule p w w₁ w₂ := by
  induction schedule generalizing p w exchanges x with
  | nil =>
    have hnone : exchanges = [] := h.exchanges_unique (Traced.refl w)
    rw [hnone] at hmem
    cases hmem
  | cons i rest ih =>
    obtain ⟨later, hlater⟩ := traced_runSchedule rest (advance i p w).1 (advance i p w).2
    by_cases hagain : ∃ y ∈ later, P y
    · obtain ⟨y, hmem', hy⟩ := hagain
      obtain ⟨w₁, w₂, ⟨before, j, after, hsplit, hw₁, hw₂⟩, hexchange, hrest⟩ := ih hlater hmem' hy
      exact ⟨w₁, w₂, ⟨i :: before, j, after, congrArg (i :: ·) hsplit, hw₁, hw₂⟩, hexchange, hrest⟩
    · have hnone : ∀ y ∈ later, ¬ P y := fun y hy hP => hagain ⟨y, hy, hP⟩
      -- so the exchange was made by this step
      rcases traced_advance i p w with hstep | ⟨y, hstep⟩
      · have hall := h.exchanges_unique (hstep.trans hlater)
        rw [hall, List.append_nil] at hmem
        exact absurd hx (hnone x hmem)
      · have hall := h.exchanges_unique (hstep.trans hlater)
        rw [hall, List.mem_append, List.mem_singleton] at hmem
        obtain rfl : x = y := hmem.resolve_left fun hmem => hnone x hmem hx
        exact ⟨w, (advance i p w).2, ⟨[], i, rest, rfl, rfl, rfl⟩, ⟨x, hstep, hx⟩, later, hlater, hnone⟩

end Pool
end CacheAside
