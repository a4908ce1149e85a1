import CacheAside.Proofs.Cache.Outcome
import CacheAside.Proofs.Run.Conduct

/-! # What stands under a key

After a run the last exchange that touched a key decides what stands under it: what that exchange left there,
less the time since. Where no exchange touched it, time alone decides. -/

namespace CacheAside
set_option autoImplicit false

theorem Network.pauses_of_isPrompt {n : Network} (h : n.IsPrompt) (past exchanges : List Exchange) :
    ∀ d ∈ n.pauses past exchanges, d = 0 := by
  induction exchanges with
  | nil =>
    intro d hd
    cases hd
  | cons x older ih =>
    intro d hd
    rcases List.mem_cons.1 hd with rfl | hd
    · exact h _ _
    · exact ih d hd

/-! ## The last exchange that touched a key -/

/-- Whether an exchange leaves something new under a key, or nothing. -/
def Exchange.touches (x : Exchange) (key : String) : Bool := x.failure.isNone && x.command.covers key

/-- The last exchange of a run that touched a key, between those after and before it. -/
structure LastTouch (key : String) (exchanges later : List Exchange) (x : Exchange) (earlier : List Exchange) :
    Prop where
  split : exchanges = later ++ x :: earlier
  touches : x.touches key = true
  untouched : ∀ y ∈ later, y.touches key = false

theorem Network.find?_replay (n : Network) (past : List Exchange) (s : Server) (exchanges : List Exchange)
    (key : String) :
    (∀ x ∈ exchanges, x.touches key = false) ∧
        (n.replay past s exchanges).find? key = Entry.aged (n.pauses past exchanges) (s.find? key) ∨
      ∃ later x earlier, LastTouch key exchanges later x earlier ∧ (n.replay past s exchanges).find? key =
        Entry.aged (n.pauses (x :: earlier ++ past) later) x.command.leaves := by
  induction exchanges with
  | nil => exact .inl ⟨fun x hx => (List.not_mem_nil hx).elim, rfl⟩
  | cons x older ih =>
    cases hx : x.touches key with
    | true =>
      refine .inr ⟨[], x, older, ⟨rfl, hx, fun y hy => (List.not_mem_nil hy).elim⟩, ?_⟩
      obtain ⟨hnone, hcovers⟩ := Bool.and_eq_true_iff.1 hx
      rw [replay, Option.isNone_iff_eq_none.1 hnone]
      exact (Server.find?_apply _ x.command key).trans (if_pos hcovers)
    | false =>
      have hfind : (n.replay past s (x :: older)).find? key =
          ((n.replay past s older).find? key).bind (Entry.wait (n.delay (older ++ past) x.command)) := by
        rw [replay, ← Server.find?_wait]
        rw [Exchange.touches] at hx
        cases hfailure : x.failure with
        | some f => rfl
        | none =>
          rw [hfailure, Option.isNone_none, Bool.true_and] at hx
          exact (Server.find?_apply _ x.command key).trans (if_neg (by rw [hx]; decide))
      rcases ih with ⟨huntouched, hage⟩ | ⟨later, y, earlier, ⟨hsplit, hy, huntouched⟩, hage⟩
      · refine .inl ⟨fun y hy => ?_, ?_⟩
        · rcases List.mem_cons.1 hy with rfl | hy
          · exact hx
          · exact huntouched y hy
        · rw [hfind, hage]
          rfl
      · refine .inr ⟨x :: later, y, earlier, ⟨by rw [hsplit]; rfl, hy, fun z hz => ?_⟩, ?_⟩
        · rcases List.mem_cons.1 hz with rfl | hz
          · exact hx
          · exact huntouched z hz
        · rw [hfind, hage, hsplit, List.append_assoc]
          rfl

theorem Traced.find? {w w' : World} {exchanges : List Exchange} (h : Traced w w' exchanges) (key : String) :
    (∀ x ∈ exchanges, x.touches key = false) ∧
        w'.server.find? key = Entry.aged (w.network.pauses w.history exchanges) (w.server.find? key) ∨
      ∃ later x earlier, LastTouch key exchanges later x earlier ∧ w'.server.find? key =
        Entry.aged (w.network.pauses (x :: earlier ++ w.history) later) x.command.leaves := by
  rw [h.server]
  exact w.network.find?_replay w.history w.server exchanges key

/-! ## Steps of tasks -/

/-- A step of a task makes at most the one exchange of the command that it has come to. -/
theorem Stride.traced {σ : Type} {C : Conduct σ} {s s' : σ} {w w' : World} (hw : w.network.NeverFails)
    (h : Stride C s w s' w') :
    (Traced w w' [] ∧ C.moves s w.memory.core w'.memory.core s') ∨
      ∃ client c s₁, Traced w w' [⟨client, c, none⟩] ∧ w'.memory = w.memory ∧
        C.moves s w.memory.core w.memory.core s₁ ∧ C.allows s₁ c ∧ s' = C.next s₁ c (w.reply c) := by
  cases h with
  | settled m moved => exact .inl ⟨Traced.of_memory w m, moved⟩
  | called client c moved allowed =>
    refine .inr ⟨client, c, _, ?_, rfl, moved, allowed, rfl⟩
    have htraced := World.traced_answer w client c
    rw [World.answer_of_neverFails hw, hw] at htraced
    exact htraced

end CacheAside
