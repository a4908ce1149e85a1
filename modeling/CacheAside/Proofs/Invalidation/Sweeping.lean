import CacheAside.Proofs.Cache.Containment
import CacheAside.Proofs.Cache.Standing

/-! # Sweeping

A sweep removes what matches a pattern, or one key. Where no call fails, an operation that is made of sweeps leaves
no entry under any key that one of them covers and every other entry to time (`Op.Sweeps`). Operations one after the
other, or started at once, make the sweeps of each. -/

namespace CacheAside
set_option autoImplicit false

/-! ## Patterns with one star at the end -/

/-- A text in which every character stands for itself. -/
def Text.IsVerbatim (s : String) : Prop := ∀ c ∈ s.toList, c ∉ metacharacters

instance (s : String) : Decidable (Text.IsVerbatim s) :=
  decidable_of_iff ((s.toList.all fun c => decide (c ∉ Text.metacharacters)) = true) (by simp [Text.IsVerbatim])

namespace Text

theorem IsVerbatim.append {s t : String} (hs : IsVerbatim s) (ht : IsVerbatim t) : IsVerbatim (s ++ t) := by
  intro c hc
  rw [String.toList_append, List.mem_append] at hc
  exact hc.elim (hs c) (ht c)

theorem IsVerbatim.isLiteral {s : String} (hs : IsVerbatim s) : ∀ c ∈ s.toList, IsLiteral c := by
  intro c hc
  have hnot := hs c hc
  simp only [metacharacters, List.mem_cons, not_or] at hnot
  exact ⟨hnot.1, hnot.2.1⟩

theorem IsVerbatim.isSimple {s : String} (hs : IsVerbatim s) : IsSimple s := fun c hc hmeta => absurd hmeta (hs c hc)

theorem IsSimple.append {s t : String} (hs : IsSimple s) (ht : IsSimple t) : IsSimple (s ++ t) := by
  intro c hc
  rw [String.toList_append, List.mem_append] at hc
  exact hc.elim (hs c) (ht c)

end Text

/-- However a server reads patterns, a start with a star behind it stands for all keys that begin so. -/
theorem Matcher.accepts_start (m : Matcher) {start : String} (h : Text.IsVerbatim start) (key : String) :
    m.accepts (start ++ "*") key = Key.beginsWith key start := by
  have hstar : (start ++ "*").toList = start.toList ++ ['*'] := String.toList_append
  rw [m.accepts_of_isSimple (h.isSimple.append (by decide)), Bool.eq_iff_iff, hstar,
    Text.matches_star_end h.isLiteral, Key.beginsWith, List.isPrefixOf_iff_prefix]
  constructor
  · rintro ⟨v, hv⟩
    exact ⟨v, hv.symm⟩
  · rintro ⟨v, hv⟩
    exact ⟨v, hv.symm⟩

/-! ## Sweeps -/

/-- What a task sweeps away: what matches a pattern, or one key. -/
inductive Sweep where
  | pattern (p : String)
  | single (k : String)

/-- The keys that are swept away, where patterns are read like this. -/
def Sweep.covers (m : Matcher) : Sweep → String → Bool
  | .pattern p, key => m.accepts p key
  | .single k, key => key = k

/-- Exchanges after which the covered keys are gone and every other entry is left to time. -/
structure Swept (w w' : World) (exchanges : List Exchange) (covers : String → Bool) : Prop where
  traced : Traced w w' exchanges
  rules : w'.memory.rules = w.memory.rules
  entries : ∀ key, w'.server.find? key =
    if covers key then none else (w.server.waits (w.network.pauses w.history exchanges)).find? key

namespace Swept

theorem refl (w : World) : Swept w w [] fun _ => false := ⟨Traced.refl w, rfl, fun _ => rfl⟩

theorem trans {w₁ w₂ w₃ : World} {earlier later : List Exchange} {covers covers' : String → Bool}
    (h : Swept w₁ w₂ earlier covers) (h' : Swept w₂ w₃ later covers') :
    Swept w₁ w₃ (later ++ earlier) fun key => covers key || covers' key := by
  refine ⟨h.traced.trans h'.traced, h'.rules.trans h.rules, fun key => ?_⟩
  have hfirst := h.entries key
  rw [h'.entries key, h.traced.network, h.traced.history, Network.pauses_append, Server.waits_append,
    Server.find?_waits w₂.server, Server.find?_waits (w₁.server.waits _)]
  cases hcovers : covers key with
  | true =>
    -- what is gone does not come back with time
    rw [hcovers, if_pos rfl] at hfirst
    rw [← Server.find?_waits, Server.find?_waits_eq_none hfirst, Bool.true_or, if_pos rfl, ite_self]
  | false =>
    rw [hcovers, if_neg (by decide)] at hfirst
    rw [hfirst, Bool.false_or]

/-- Where no time passes on the way, every other entry is as it was. -/
theorem kept {w w' : World} {exchanges : List Exchange} {covers : String → Bool} (h : Swept w w' exchanges covers)
    (hprompt : w.network.IsPrompt) {key : String} (hkey : covers key = false) :
    w'.server.find? key = w.server.find? key := by
  rw [h.entries, hkey, if_neg (by decide), Server.find?_waits]
  exact Entry.aged_zero (Network.pauses_of_isPrompt hprompt _ _) _

end Swept

/-! ## Operations that sweep -/

/-- Ends in a value and makes these sweeps, where no call fails and the rules are such. -/
def Op.Sweeps {α : Type} (I : Rules → Prop) (sweeps : List Sweep) (op : Op α) : Prop :=
  ∀ w : World, w.network.NeverFails → I w.memory.rules →
    ∃ a w' exchanges, op.run w = (.ok a, w') ∧
      Swept w w' exchanges fun key => sweeps.any fun x => x.covers w.server.matcher key

namespace Op.Sweeps
variable {α β : Type} {I : Rules → Prop} {sweeps sweeps' : List Sweep}

theorem pure (a : α) : Sweeps I [] (Pure.pure a : Op α) :=
  fun w _ _ => ⟨a, w, [], rfl, Swept.refl w⟩

theorem modify {f : Memory → Memory} (hf : ∀ m, (f m).rules = m.rules) : Sweeps I [] (modify f : Op Unit) :=
  fun w _ _ => ⟨(), w.withMemory f, [], rfl, Traced.of_memory w _, hf _, fun _ => rfl⟩

theorem note (n : Note) : Sweeps I [] (Op.note n) := modify fun _ => rfl

theorem bind {op : Op α} {f : α → Op β} (h : op.Sweeps I sweeps) (hf : ∀ a, (f a).Sweeps I sweeps') :
    (op >>= f).Sweeps I (sweeps ++ sweeps') := by
  intro w hw hrules
  obtain ⟨a, w₁, earlier, hrun, hfirst⟩ := h w hw hrules
  obtain ⟨b, w₂, later, hrun₂, hsecond⟩ := hf a w₁ (hfirst.traced.neverFails hw) (hfirst.rules ▸ hrules)
  refine ⟨b, w₂, later ++ earlier, ?_, ?_⟩
  · rw [Op.run_bind, hrun]
    exact hrun₂
  · rw [hfirst.traced.matcher] at hsecond
    simp only [List.any_append]
    exact hfirst.trans hsecond

theorem discard {op : Op α} (h : op.Sweeps I sweeps) : (Functor.discard op).Sweeps I sweeps := by
  intro w hw hrules
  obtain ⟨a, w', exchanges, hrun, hswept⟩ := h w hw hrules
  refine ⟨(), w', exchanges, ?_, hswept⟩
  rw [Op.run_discard, hrun]

theorem contain {body : Op α} (h : body.Sweeps I sweeps) (handle : Failure → Op α) :
    (Op.contain body handle).Sweeps I sweeps := by
  intro w hw hrules
  obtain ⟨a, w', exchanges, hrun, hswept⟩ := h w hw hrules
  refine ⟨a, w', exchanges, ?_, hswept⟩
  rw [Op.run_contain, hrun]

theorem duty (hI : ∀ rules, I rules → rules.outages = []) (d : Duty) {body : Op α} (h : body.Sweeps I sweeps) :
    (Op.duty d body).Sweeps I sweeps := by
  intro w hw hrules
  obtain ⟨a, w', exchanges, hrun, hswept⟩ := h w hw hrules
  refine ⟨a, w', exchanges, ?_, hswept⟩
  rw [Op.run_duty_of_no_outages d body (hI _ hrules)]
  exact hrun

theorem gather {ops : List (Op α)} {parts : List (List Sweep)}
    (h : List.Forall₂ (fun op sweeps => op.Sweeps I sweeps) ops parts) : (Op.gather [] ops).Sweeps I parts.flatten := by
  induction h with
  | nil => exact pure []
  | @cons op sweeps ops parts hop _ ih =>
    intro w hw hrules
    obtain ⟨a, w₁, earlier, hrun, hfirst⟩ := hop w hw hrules
    obtain ⟨as, w₂, later, hrun₂, hothers⟩ := ih w₁ (hfirst.traced.neverFails hw) (hfirst.rules ▸ hrules)
    refine ⟨a :: as, w₂, later ++ earlier, Op.run_gather_cons hrun hrun₂, ?_⟩
    rw [hfirst.traced.matcher] at hothers
    simp only [List.flatten_cons, List.any_append]
    exact hfirst.trans hothers

end Op.Sweeps

namespace Cache
variable {I : Rules → Prop}

theorem sweeps_delete (key : String) : (delete key).Sweeps I [.single key] := by
  intro w hw _
  obtain ⟨exchanges, hsettled, hne, haccounted, hok⟩ := delete_outcome key hw.contained
  have hthrough := hsettled.traced.wentThrough hw hne
  refine ⟨(), _, exchanges, Prod.ext hok rfl, hsettled.traced, haccounted.rules, fun k => ?_⟩
  rw [hsettled.done hthrough k, List.any_cons, List.any_nil, Bool.or_false]
  rfl

theorem sweeps_deleteByPattern (pattern : String) : (deleteByPattern pattern).Sweeps I [.pattern pattern] := by
  intro w hw _
  obtain ⟨exchanges, hsettled, hne, haccounted, n, hok, -⟩ := deleteByPattern_outcome pattern hw.contained
  have hthrough := hsettled.traced.wentThrough hw hne
  refine ⟨n, _, exchanges, Prod.ext hok rfl, hsettled.traced, haccounted.rules, fun k => ?_⟩
  rw [hsettled.done hthrough k, List.any_cons, List.any_nil, Bool.or_false]
  rfl

end Cache
end CacheAside
