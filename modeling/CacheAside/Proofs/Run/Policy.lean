import CacheAside.Pool
import CacheAside.Proofs.Run.Trace

/-! # Tasks that keep to a policy

A policy says which commands may be given and what may be counted on in their replies. A task is `Within` it
if it gives only such commands, whatever it finds in memory, whichever calls fail and whatever is replied of
what may be; the results that it can end in are told along with it. Where the server keeps the policy up, a task
within it ends in one of these results however it is interrupted by others that keep to it too. -/

namespace CacheAside
set_option autoImplicit false

structure Policy where
  allows : Command → Prop
  admits : (c : Command) → c.Reply → Prop

/-! ## Tasks -/

/-- Gives only allowed commands and ends in one of these results, as long as replies are admitted. -/
def Task.Within {σ α : Type} (P : Policy) (Q : α → Prop) : Task σ α → Prop
  | .done a => Q a
  | .look k => ∀ s, Within P Q (k s)
  | .keep _ k => Within P Q k
  | .call _ c k => P.allows c ∧ ∀ r, (∀ reply, r = .ok reply → P.admits c reply) → Within P Q (k r)
  | .pause k => Within P Q k

namespace Task
variable {σ α β : Type} {P : Policy} {Q : α → Prop}

theorem Within.mono {Q' : α → Prop} (h : ∀ a, Q a → Q' a) {t : Task σ α} (ht : t.Within P Q) : t.Within P Q' := by
  induction t with
  | done a => exact h a ht
  | look k ih => exact fun s => ih s (ht s)
  | keep s k ih => exact ih ht
  | call client c k ih => exact ⟨ht.1, fun r hr => ih r (ht.2 r hr)⟩
  | pause k ih => exact ih ht

theorem Within.bind {Q' : β → Prop} {t : Task σ α} {f : α → Task σ β} (ht : t.Within P Q)
    (hf : ∀ a, Q a → (f a).Within P Q') : (t.bind f).Within P Q' := by
  induction t with
  | done a => exact hf a ht
  | look k ih => exact fun s => ih s (ht s)
  | keep s k ih => exact ih ht
  | call client c k ih => exact ⟨ht.1, fun r hr => ih r (ht.2 r hr)⟩
  | pause k ih => exact ih ht

end Task

/-! ## Operations -/

/-- Keeps to the policy; what it ends in, unless it fails, is one of these values. -/
def Op.Within {α : Type} (P : Policy) (Q : α → Prop) (op : Op α) : Prop :=
  Task.Within P (fun r => ∀ a, r = .ok a → Q a) (ExceptT.run op)

namespace Op.Within
variable {α β : Type} {P : Policy} {Q : α → Prop} {Q' : β → Prop}

theorem mono {R : α → Prop} (h : ∀ a, Q a → R a) {op : Op α} (hop : op.Within P Q) : op.Within P R :=
  Task.Within.mono (fun _ hr a ha => h a (hr a ha)) hop

theorem pure {a : α} (h : Q a) : Op.Within P Q (Pure.pure a) := by
  rintro b ⟨⟩
  exact h

theorem throw (f : Failure) : Op.Within P Q (MonadExcept.throw f : Op α) := by
  rintro a ⟨⟩

theorem bind {op : Op α} {f : α → Op β} (hop : op.Within P Q) (hf : ∀ a, Q a → (f a).Within P Q') :
    (op >>= f).Within P Q' := by
  refine Task.Within.bind hop fun r hr => ?_
  cases r with
  | ok a => exact hf a (hr a rfl)
  | error e => exact throw e

theorem tryCatch {body : Op α} {handle : Failure → Op α} (hbody : body.Within P Q)
    (hhandle : ∀ f, (handle f).Within P Q) : (MonadExcept.tryCatch body handle).Within P Q := by
  refine Task.Within.bind hbody fun r hr => ?_
  cases r with
  | ok a => exact pure (hr a rfl)
  | error e => exact hhandle e

theorem map {f : α → β} {op : Op α} (hop : op.Within P Q) (hf : ∀ a, Q a → Q' (f a)) :
    (f <$> op).Within P Q' := by
  rw [← bind_pure_comp]
  exact hop.bind fun a ha => pure (hf a ha)

theorem discard {op : Op α} (hop : op.Within P Q) : (Functor.discard op).Within P fun _ => True :=
  hop.map fun _ _ => trivial

theorem get : Op.Within P (fun _ => True) (MonadState.get : Op Memory) := fun _ _ _ => trivial

theorem set (m : Memory) : Op.Within P (fun _ => True) (MonadState.set m : Op Unit) := fun _ _ => trivial

theorem modify (f : Memory → Memory) : Op.Within P (fun _ => True) (modify f : Op Unit) := fun _ _ _ => trivial

theorem note (n : Note) : Op.Within P (fun _ => True) (Op.note n) := modify _

theorem collect (f : Collector → Collector) : Op.Within P (fun _ => True) (Op.collect f) := modify _

theorem command {client : Option ℕ} {c : Command} (hc : P.allows c) :
    Op.Within P (P.admits c) (Op.command client c) :=
  ⟨hc, fun _ hr => hr⟩

theorem contain {body : Op α} {handle : Failure → Op α} (hbody : body.Within P Q)
    (hhandle : ∀ f, (handle f).Within P Q) : (Op.contain body handle).Within P Q := by
  refine hbody.tryCatch fun f => ?_
  split
  · exact hhandle f
  · exact throw f

theorem outcome {body : Op α} (hbody : body.Within P Q) :
    (Op.outcome body).Within P fun r => ∀ a, r = .ok a → Q a := by
  refine tryCatch (hbody.map ?_) fun f => pure ?_
  · rintro a ha b ⟨⟩
    exact ha
  · rintro a ⟨⟩

theorem conclude {r : Except Failure α} (hr : ∀ a, r = .ok a → Q a) : (Op.conclude r).Within P Q := by
  cases r with
  | ok a => exact pure (hr a rfl)
  | error f => exact throw f

theorem duty (d : Duty) {body : Op α} (hbody : body.Within P Q) : (Op.duty d body).Within P Q := by
  refine get.bind fun m _ => ?_
  cases m.outage? d with
  | some f => exact throw f
  | none => exact hbody

theorem gather {ops : List (Op α)} (hops : ∀ op ∈ ops, op.Within P Q) :
    (Op.gather [] ops).Within P fun _ => True := by
  induction ops with
  | nil => exact pure trivial
  | cons op ops ih =>
    have hfirst := hops op List.mem_cons_self
    have hothers := ih fun o ho => hops o (List.mem_cons_of_mem _ ho)
    rw [Op.gather_cons]
    refine hfirst.outcome.bind fun first _ => hothers.outcome.bind fun others _ => ?_
    cases first with
    | error f => exact throw f
    | ok a =>
      cases others with
      | error f => exact throw f
      | ok as => exact pure trivial

end Op.Within

/-! ## Servers -/

/-- What holds of the server is kept by what the policy allows and by time, and gives what it admits. -/
structure Policy.Upheld (P : Policy) (I : Server → Prop) : Prop where
  admits : ∀ s c, I s → P.allows c → P.admits c (s.apply c).1
  apply : ∀ s c, I s → P.allows c → I (s.apply c).2
  wait : ∀ s n, I s → I (s.wait n)

namespace Policy.Upheld
variable {P : Policy} {I : Server → Prop} {α : Type} {Q : α → Prop}

theorem answer (h : P.Upheld I) {w : World} {client : Option ℕ} {c : Command} (hw : I w.server) (hc : P.allows c) :
    I (w.answer client c).2.server ∧ ∀ reply, (w.answer client c).1 = .ok reply → P.admits c reply := by
  have harrival := h.wait _ (w.network.delay w.history c) hw
  rw [← World.onArrival_eq] at harrival
  rw [World.answer]
  cases w.network.failure w.history c with
  | some f =>
    refine ⟨harrival, ?_⟩
    rintro reply ⟨⟩
  | none =>
    refine ⟨h.apply _ c harrival hc, ?_⟩
    rintro reply ⟨⟩
    exact h.admits _ c harrival hc

theorem settle {t : Task Memory α} (ht : t.Within P Q) {w : World} (hw : I w.server) :
    I (World.settle t w).2.server ∧ (World.settle t w).1.Within P Q := by
  induction t generalizing w with
  | done a => exact ⟨hw, ht⟩
  | look k ih => exact ih w.memory (ht w.memory) hw
  | keep m k ih => exact ih ht hw
  | call client c k _ => exact ⟨hw, ht⟩
  | pause k _ => exact ⟨hw, ht⟩

/-- A task within the policy stays within it as it is carried on. -/
theorem step (h : P.Upheld I) {t : Task Memory α} (ht : t.Within P Q) {w : World} (hw : I w.server) :
    I (World.step t w).2.server ∧ (World.step t w).1.Within P Q := by
  cases t with
  | done a => exact ⟨hw, ht⟩
  | look k => exact settle (ht w.memory) hw
  | keep m k => exact settle (t := k) ht hw
  | call client c k =>
    obtain ⟨hserver, hreply⟩ := h.answer hw ht.1
    exact ⟨hserver, ht.2 _ hreply⟩
  | pause k => exact ⟨hw, ht⟩

/-- Tasks within the policy, each with results of its own, stay within it whichever of them is carried on. -/
theorem advance (h : P.Upheld I) {p : Pool α} {R : ℕ → α → Prop}
    (hp : ∀ (i : ℕ) (task : Task Memory α), p[i]? = some task → task.Within P (R i)) {w : World}
    (hw : I w.server) (place : ℕ) :
    I (p.advance place w).2.server ∧ ∀ (i : ℕ) (task : Task Memory α), (p.advance place w).1[i]? = some task →
      task.Within P (R i) := by
  rw [Pool.advance]
  cases hplace : p[place]? with
  | none => exact ⟨hw, hp⟩
  | some task =>
    obtain ⟨hserver, htask⟩ := h.step (hp place task hplace) hw
    refine ⟨hserver, fun i task' hi => ?_⟩
    rcases eq_or_ne place i with rfl | hne
    · -- the one that is carried on
      obtain ⟨hlength, -⟩ := List.getElem?_eq_some_iff.1 hplace
      rw [List.getElem?_set_self hlength] at hi
      cases hi
      exact htask
    · rw [List.getElem?_set_ne hne] at hi
      exact hp i task' hi

end Policy.Upheld
end CacheAside
