import CacheAside.Proofs.Cache.Effect
import CacheAside.Proofs.Run.Conduct

/-! # The operations of the cache among other tasks

One rule for each operation: which calls it makes, in what order, and what it has made of memory before and after
each of them, when other tasks may come between any two. They hold for every conduct. -/

namespace CacheAside
set_option autoImplicit false

namespace Cache
variable {σ : Type} {C : Conduct σ} {s s₁ : σ} {b : Core} {m : Memory}

/-! ## Reading -/

/-- The value that a reply stands for within the limits; null where there is none. -/
def replied (limits : Json.Limits) : Option String → Json
  | none => .null
  | some text =>
    match Json.read limits text with
    | .ok v => v
    | .error _ => .null

/-- What a read makes of memory after its reply. -/
def readIn (key : String) (reply : Option String) (m : Memory) : Memory :=
  match reply with
  | none => missIn key m
  | some text =>
    match Json.read m.limits text with
    | .ok _ => hitIn key m
    | .error e => missIn key (swallowIn "Cache get error" [("key", .str key)] (.unreadable e) m)

theorem keeps_get {Q : Except Failure Json → σ → Core → Memory → Prop} (key : String)
    (h : C.Sends s s₁ b m.core (.get key) fun reply s m' =>
      Q (.ok (replied m'.limits reply)) s m'.core (readIn key reply m')) :
    (get key).Keeps C Q s b m := by
  refine Op.Keeps.contain (Op.Keeps.bind ?_)
  refine Store.keeps_reporting (c := .get key) _ _ ⟨h.moved, h.allowed, fun reply hr m' hm' => ?_⟩
  have hdone := h.answered reply hr m' hm'
  cases reply with
  | none => exact hdone
  | some text =>
    simp only [replied, readIn] at hdone
    refine Op.Keeps.bind (Op.Keeps.get ?_)
    simp only [Op.After]
    cases hread : Json.read m'.limits text with
    | ok v =>
      simp only [hread] at hdone
      exact hdone
    | error e =>
      simp only [hread] at hdone
      exact ⟨rfl, hdone⟩

/-! ## Writing -/

/-- The command of a write. -/
def writing (key text : String) : Option Seconds → Command
  | none => .set key text
  | some s => .setFor key s text

theorem keeps_write {Q : Except Failure Unit → σ → Core → Memory → Prop} (key text : String) (left : Option Seconds)
    (h : C.Sends s s₁ b m.core (writing key text left) fun _ s m' => Q (.ok ()) s m'.core m') :
    (write key text left).Keeps C Q s b m := by
  cases left with
  | none => exact Store.keeps_reporting (c := .set key text) _ _ h
  | some seconds => exact Store.keeps_reporting (c := .setFor key seconds text) _ _ h

theorem keeps_place {Q : Except Failure Unit → σ → Core → Memory → Prop} (key : String) (value : Payload)
    (seconds : Seconds) (hunsent : ∀ f, order m key value (some seconds) = .error f → Q (.error f) s b m)
    (hsent : ∀ text left, order m key value (some seconds) = .ok (text, left) →
      ∃ s₁, C.Sends s s₁ b m.core (writing key text left) fun _ s m' => Q (.ok ()) s m'.core (writtenIn key left m')) :
    (place key value seconds).Keeps C Q s b m := by
  rw [order, secondsFor] at hunsent hsent
  refine Op.Keeps.bind (Op.Keeps.get ?_)
  simp only [Op.After]
  cases htext : value.text m.limits with
  | error e =>
    simp only [htext] at hunsent
    exact hunsent _ rfl
  | ok text =>
    simp only [htext] at hunsent hsent ⊢
    cases hpositive : seconds.isPositive? with
    | none =>
      simp only [hpositive] at hunsent
      exact hunsent _ rfl
    | some positive =>
      simp only [hpositive] at hsent
      cases positive with
      | true =>
        obtain ⟨s₁, h⟩ := hsent text _ rfl
        exact Op.Keeps.bind (keeps_write key text (some seconds) h)
      | false =>
        obtain ⟨s₁, h⟩ := hsent text _ rfl
        exact Op.Keeps.bind (keeps_write key text none h)

theorem keeps_set {Q : Except Failure Unit → σ → Core → Memory → Prop} (key : String) (value : Payload)
    (seconds : Option Seconds)
    (hunsent : ∀ f, order m key value seconds = .error f →
      f.isContained = true ∧ Q (.ok ()) s b (swallowIn "Cache set error" [("key", .str key)] f m))
    (hsent : ∀ text left, order m key value seconds = .ok (text, left) →
      ∃ s₁, C.Sends s s₁ b m.core (writing key text left) fun _ s m' => Q (.ok ()) s m'.core (writtenIn key left m')) :
    (set key value seconds).Keeps C Q s b m := by
  have hplace : ∀ t : Seconds, order m key value (some t) = order m key value seconds →
      (place key value t).Keeps C (Op.Contained C Q fun f => swallow "Cache set error" [("key", .str key)] f)
        s b m := by
    intro t ht
    refine keeps_place key value t (fun f hf => ?_) fun text left hok => ?_
    · exact hunsent f (ht ▸ hf)
    · exact hsent text left (ht ▸ hok)
  rw [set_eq]
  refine Op.Keeps.contain (Op.Keeps.bind ?_)
  cases seconds with
  | some t => exact Op.Keeps.pure (hplace t rfl)
  | none =>
    refine Op.Keeps.bind (Op.Keeps.get ?_)
    simp only [Op.After]
    cases hfault : m.misfiled.bind (·.lookupFault? (.str key)) with
    | none =>
      have hseconds : secondsFor m key none = .ok (m.registry.lifetime m.otherwise key) := by
        rw [secondsFor, hfault]
      have horder : order m key value (some (m.registry.lifetime m.otherwise key)) = order m key value none := by
        rw [order, order, hseconds]
        rfl
      exact Op.Keeps.pure (hplace _ horder)
    | some f =>
      have hf : order m key value none = .error f := by rw [order, secondsFor, hfault]
      exact Op.Keeps.throw (hunsent f hf)

/-! ## Providers -/

theorem core_deliveredIn (key : String) (p : Payload) (m : Memory) :
    (deliveredIn key (.ok p) m).core = { m.core with fetched := (key, p) :: m.core.fetched } := rfl

theorem core_failedIn (key : String) (f : Failure) (m : Memory) : (deliveredIn key (.error f) m).core = m.core := by
  cases hf : f.isContained <;> simp only [deliveredIn, hf, if_true, Bool.false_eq_true, if_false] <;> rfl

theorem core_writtenIn (key : String) (left : Option Seconds) (m : Memory) :
    (writtenIn key left m).core = m.core := by
  cases left <;> rfl

theorem keeps_callProvider {Q : Except Failure Payload → σ → Core → Memory → Prop} (key : String)
    {provider : Op Payload} (h : provider.Keeps C (fun r s b m => Q r s b (deliveredIn key r m)) s b
      (fetchIn key m)) : (callProvider key provider).Keeps C Q s b m := by
  refine Op.Keeps.bind (Op.Keeps.modify (Op.Keeps.bind (Op.Keeps.outcome ?_)))
  refine Op.Keeps.mono (fun r s b m hr => ?_) h
  cases r with
  | ok p => exact hr
  | error f =>
    simp only [deliveredIn] at hr
    simp only [Op.After]
    split
    · rename_i hf
      rw [if_pos hf] at hr
      exact hr
    · rename_i hf
      rw [if_neg hf] at hr
      exact hr

/-- What remains to be shown of a read through the cache once its provider has ended. -/
def Delivered (C : Conduct σ) (Q : Except Failure Payload → σ → Core → Memory → Prop) (key : String)
    (seconds : Option Seconds) : Except Failure Payload → σ → Core → Memory → Prop
  | .ok value, s, b, m => (set key value seconds).Keeps C (fun r s b m => Q (r.map fun _ => value) s b m) s b
      (deliveredIn key (.ok value) m)
  | .error f, s, b, m => Q (.error f) s b (deliveredIn key (.error f) m)

theorem keeps_getOrSet {Q : Except Failure Payload → σ → Core → Memory → Prop} (key : String)
    (provider : Op Payload) (seconds : Option Seconds)
    (h : C.Sends s s₁ b m.core (.get key) fun reply s m' =>
      (replied m'.limits reply ≠ .null →
          Q (.ok (.json (replied m'.limits reply))) s m'.core (readIn key reply m')) ∧
        (replied m'.limits reply = .null →
          provider.Keeps C (Delivered C Q key seconds) s m'.core (fetchIn key (readIn key reply m')))) :
    (getOrSet key provider seconds).Keeps C Q s b m := by
  refine Op.Keeps.bind (keeps_get key ⟨h.moved, h.allowed, fun reply hr m' hm' => ?_⟩)
  obtain ⟨hhit, hfetch⟩ := h.answered reply hr m' hm'
  simp only [Op.After]
  cases hv : replied m'.limits reply with
  | null =>
    refine Op.Keeps.bind (keeps_callProvider key (Op.Keeps.mono (fun r s b m hr => ?_) (hfetch hv)))
    cases r with
    | error f => exact hr
    | ok value =>
      refine Op.Keeps.bind (Op.Keeps.mono (fun r s b m hr => ?_) hr)
      cases r <;> exact hr
  | _ =>
    rw [hv] at hhit
    exact hhit Json.noConfusion

/-! ## Removing -/

theorem keeps_delete {Q : Except Failure Unit → σ → Core → Memory → Prop} (key : String)
    (h : C.Sends s s₁ b m.core (.remove [key]) fun _ s m' =>
      Q (.ok ()) s m'.core (debugIn "Deleted cache key" [("key", .str key)] m')) : (delete key).Keeps C Q s b m := by
  refine Op.Keeps.contain (Op.Keeps.bind (Op.Keeps.discard ?_))
  exact Store.keeps_reporting (c := .remove [key]) _ _ h

theorem keeps_deleteByPattern {Q : Except Failure ℕ → σ → Core → Memory → Prop} (pattern : String)
    (h : C.Sends s s₁ b m.core (.list pattern) fun keys s m' =>
      (keys = [] → Q (.ok 0) s m'.core m') ∧
        (keys ≠ [] → ∃ s₂, C.Sends s s₂ m'.core m'.core (.remove keys) fun n s m' =>
          Q (.ok n) s m'.core (debugIn "Deleted cache keys by pattern"
            [("pattern", .str pattern), ("count", .nat n)] m'))) : (deleteByPattern pattern).Keeps C Q s b m := by
  refine Op.Keeps.contain (Op.Keeps.bind ?_)
  refine Store.keeps_reporting (c := .list pattern) _ _ ⟨h.moved, h.allowed, fun keys hk m₁ hm₁ => ?_⟩
  obtain ⟨hnone, hsome⟩ := h.answered keys hk m₁ hm₁
  simp only [Op.After]
  cases hempty : keys.isEmpty with
  | true => exact hnone (List.isEmpty_iff.1 hempty)
  | false =>
    simp only [Bool.false_eq_true, if_false]
    obtain ⟨s₂, hsends⟩ := hsome (by simpa using hempty)
    refine Op.Keeps.bind ?_
    rw [Store.removeMany, hempty]
    exact Store.keeps_reporting (c := .remove keys) _ _ hsends

end Cache
end CacheAside
