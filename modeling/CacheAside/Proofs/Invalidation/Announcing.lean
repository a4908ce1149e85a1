import Mathlib.Tactic
import CacheAside.Invalidation

/-! # What holds of every announcement

Handlers may drop keys, enlist others and announce updates in turn, so nobody knows what an announcement comes to.
All of it is put together from few parts, however, and what holds of the parts and of every way of putting them
together holds of all announcements. -/

namespace CacheAside
set_option autoImplicit false

/-- Leaves as they are what is out of order, what is read and written as JSON, and what providers have delivered. -/
def Memory.Modest (f : Memory → Memory) : Prop :=
  ∀ m, (f m).outages = m.outages ∧ (f m).limits = m.limits ∧ (f m).fetched = m.fetched

/-- A property of operations that is kept by every way of putting them together. Removing keys has it. -/
structure Op.Closed (P : ∀ α : Type, Op α → Prop) : Prop where
  pure : ∀ {α : Type} (a : α), P α (Pure.pure a)
  throw : ∀ {α : Type} (f : Failure), P α (MonadExcept.throw f)
  bind : ∀ {α β : Type} {op : Op α} {f : α → Op β}, P α op → (∀ a, P β (f a)) → P β (op >>= f)
  tryCatch : ∀ {α : Type} {body : Op α} {handle : Failure → Op α}, P α body → (∀ f, P α (handle f)) →
    P α (MonadExcept.tryCatch body handle)
  get : P Memory MonadState.get
  modify : ∀ f, Memory.Modest f → P Unit (modifyThe Memory f)
  delete : ∀ key, P Unit (Cache.delete key)
  deleteByPattern : ∀ pattern, P ℕ (Cache.deleteByPattern pattern)

namespace Op.Closed
variable {P : ∀ α : Type, Op α → Prop} {α β : Type}

theorem note (h : Closed P) (n : Note) : P Unit (Op.note n) := h.modify _ fun _ => ⟨rfl, rfl, rfl⟩

theorem collect (h : Closed P) (f : Collector → Collector) : P Unit (Op.collect f) :=
  h.modify _ fun _ => ⟨rfl, rfl, rfl⟩

theorem map (h : Closed P) (f : α → β) {op : Op α} (hop : P α op) : P β (f <$> op) := by
  rw [← bind_pure_comp]
  exact h.bind hop fun _ => h.pure _

theorem contain (h : Closed P) {body : Op α} {handle : Failure → Op α} (hbody : P α body)
    (hhandle : ∀ f, P α (handle f)) : P α (Op.contain body handle) := by
  refine h.tryCatch hbody fun f => ?_
  split
  · exact hhandle f
  · exact h.throw f

theorem outcome (h : Closed P) {body : Op α} (hbody : P α body) : P (Except Failure α) (Op.outcome body) :=
  h.tryCatch (h.map _ hbody) fun _ => h.pure _

theorem duty (h : Closed P) (d : Duty) {body : Op α} (hbody : P α body) : P α (Op.duty d body) := by
  refine h.bind h.get fun m => ?_
  cases m.outage? d with
  | some f => exact h.throw f
  | none => exact hbody

theorem gather (h : Closed P) {ops : List (Op α)} (hops : ∀ op ∈ ops, P α op) : P (List α) (Op.gather [] ops) := by
  induction ops with
  | nil => exact h.pure _
  | cons op ops ih =>
    rw [Op.gather_cons]
    refine h.bind (h.outcome (hops op List.mem_cons_self)) fun first => ?_
    refine h.bind (h.outcome (ih fun op' hop' => hops op' (List.mem_cons_of_mem _ hop'))) fun others => ?_
    cases first with
    | error f => exact h.throw f
    | ok a =>
      cases others with
      | error f => exact h.throw f
      | ok as => exact h.pure _

end Op.Closed

/-! ## The service's own answer -/

/-- A property that removals have, and that every way of putting removals together keeps. -/
structure Op.Dropping (P : ∀ α : Type, Op α → Prop) : Prop where
  pure : ∀ {α : Type} (a : α), P α (Pure.pure a)
  note : ∀ event fields, P Unit (Invalidation.note .info event fields)
  bind : ∀ {α β : Type} {op : Op α} {f : α → Op β}, P α op → (∀ a, P β (f a)) → P β (op >>= f)
  discard : ∀ {α : Type} {op : Op α}, P α op → P Unit (Functor.discard op)
  duty : ∀ {α : Type} (d : Duty) {body : Op α}, P α body → P α (Op.duty d body)
  gather : ∀ {α : Type} {ops : List (Op α)}, (∀ op ∈ ops, P α op) → P (List α) (Op.gather [] ops)
  delete : ∀ key, P Unit (Cache.delete key)
  deleteByPattern : ∀ pattern, P ℕ (Cache.deleteByPattern pattern)

theorem Op.Closed.dropping {P : ∀ α : Type, Op α → Prop} (h : Closed P) : Dropping P where
  pure := h.pure
  note _ _ := h.note _
  bind := h.bind
  discard := h.map _
  duty := h.duty
  gather := h.gather
  delete := h.delete
  deleteByPattern := h.deleteByPattern

namespace Invalidation
variable {P : ∀ α : Type, Op α → Prop}

theorem dropping_dropAsset (h : Op.Dropping P) (asset : String) : P Unit (Market.dropAsset asset) := by
  refine h.duty _ (h.discard (h.gather ?_))
  intro op hop
  simp only [List.mem_cons, List.not_mem_nil, or_false] at hop
  obtain rfl | rfl := hop
  · exact h.delete _
  · exact h.delete _

theorem dropping_dropAll (h : Op.Dropping P) : P Unit News.dropAll := by
  refine h.duty _ (h.discard (h.gather ?_))
  intro op hop
  simp only [News.dropAllTasks, List.mem_cons, List.not_mem_nil, or_false] at hop
  obtain rfl | rfl | rfl := hop
  · exact h.discard (h.deleteByPattern _)
  · exact h.discard (h.deleteByPattern _)
  · exact h.delete _

theorem dropping_invalidate (h : Op.Dropping P) (u : Update) : P Unit (invalidate u) := by
  cases u with
  | asset id kind =>
    refine h.bind (h.note _ _) fun _ => ?_
    simp only
    split
    · exact h.duty _ (h.delete _)
    · exact dropping_dropAsset h _
  | news category trending =>
    refine h.bind (h.note _ _) fun _ => ?_
    have htrending : P Unit (if trending then News.dropTrending else pure ()) := by
      split
      · exact h.duty _ (h.delete _)
      · exact h.pure _
    cases category.isBlank with
    | true => exact h.bind (dropping_dropAll h) fun _ => htrending
    | false => exact h.bind (h.duty _ (h.delete _)) fun _ => htrending

/-! ## Handlers -/

theorem closed_perform (h : Op.Closed P) {announce : Announcement → Op Unit}
    (hannounce : ∀ a, P Unit (announce a)) (script : Script) : P Unit (perform announce script) := by
  induction script with
  | finish => exact h.pure _
  | fail f => exact h.throw f
  | drop key next ih => exact h.bind (h.delete key) fun _ => ih
  | enlist topic name label react next _ ih =>
    refine h.bind (h.modify _ fun m => ?_) fun _ => ih
    cases topic <;> exact ⟨rfl, rfl, rfl⟩
  | announce a next ih => exact h.bind (hannounce a) fun _ => ih

theorem closed_deliver (h : Op.Closed P) {announce : Announcement → Op Unit}
    (hannounce : ∀ a, P Unit (announce a)) (u : Update) (s : Subscriber) : P Unit (deliver announce u s) := by
  refine h.bind (h.modify _ fun _ => ⟨rfl, rfl, rfl⟩) fun _ => ?_
  cases s with
  | invalidation => exact dropping_invalidate h.dropping u
  | handler handler => exact closed_perform h hannounce (handler.react u)

theorem closed_deliverAll (h : Op.Closed P) {announce : Announcement → Op Unit}
    (hannounce : ∀ a, P Unit (announce a)) (u : Update) (subscribers : List Subscriber) :
    P Unit (deliverAll announce u subscribers) := by
  induction subscribers with
  | nil => exact h.pure _
  | cons s rest ih =>
    exact h.bind (h.contain (closed_deliver h hannounce u s) fun _ => h.note _) fun _ => ih

/-! ## Announcements -/

theorem closed_announceWithin (h : Op.Closed P) (levels : ℕ) (a : Announcement) :
    P Unit (announceWithin levels a) := by
  induction levels generalizing a with
  | zero => exact h.throw _
  | succ levels ih =>
    rw [announceWithin]
    cases accept a with
    | error refusal => exact h.throw _
    | ok u =>
      exact h.bind (h.collect _) fun _ => h.bind h.get fun m => closed_deliverAll h ih u _

end Invalidation
end CacheAside
