import CacheAside.Proofs.Cache.Containment
import CacheAside.Proofs.Resource.Aside

/-! # Who hears of updates, and what they have heard

The roster is the part of memory that the delivery of updates is about: who subscribes, what was delivered, what is
out of order, the counts, and the errors that the delivery has written down. The service's own answer to an update
leaves all of it alone and fails with nothing but what is out of order (`Invalidation.discreet_invalidate`). A
handler that announces no update itself ends as its script says, and all it does to the roster is to add those that
it enlists (`Invalidation.run_perform`). -/

namespace CacheAside
set_option autoImplicit false

/-! ## Rosters -/

/-- Whether a note tells of a subscriber that failed. -/
def Note.isDispatchError (n : Note) : Bool := n.logger = Invalidation.logger ∧ n.level = .error

/-- Newest first. -/
def Memory.dispatchErrors (m : Memory) : List Note := m.journal.filter Note.isDispatchError

structure Roster where
  subscribers : Topic → List Subscriber
  deliveries : List Delivery
  outages : List (Duty × Failure)
  collector : Option Collector
  errors : List Note

def Memory.roster (m : Memory) : Roster := ⟨m.subscribers, m.deliveries, m.outages, m.collector, m.dispatchErrors⟩

theorem Memory.outage?_of_roster {m m' : Memory} (h : m'.roster = m.roster) (d : Duty) : m'.outage? d = m.outage? d :=
  congrArg (fun r : Roster => Rows.find? d r.outages) h

theorem Memory.roster_noted {n : Note} (hn : n.isDispatchError = false) (m : Memory) :
    (m.noted n).roster = m.roster := by
  have herrors : (m.noted n).dispatchErrors = m.dispatchErrors := List.filter_cons_of_neg (by rw [hn]; decide)
  rw [roster, herrors]
  rfl

theorem World.SameService.roster {w w' : World} (h : w.SameService w') : w'.memory.roster = w.memory.roster := by
  obtain ⟨clients, hmemory⟩ := h
  rw [hmemory]
  rfl

namespace Op
variable {α β : Type}

theorem network_run (op : Op α) (w : World) : (op.run w).2.network = w.network := by
  obtain ⟨exchanges, htraced⟩ := op.traced_run w
  exact htraced.network

theorem contained_run (op : Op α) {w : World} (hw : w.network.Contained) : (op.run w).2.network.Contained := by
  rw [network_run]
  exact hw

/-- Leaves the roster alone, and fails with nothing but what is out of order. -/
structure IsDiscreet (op : Op α) : Prop where
  leaves : op.Leaves Memory.roster
  fails : ∀ w : World, w.network.Contained → ∀ f, (op.run w).1 = .error f → ∃ d, w.memory.outage? d = some f

namespace IsDiscreet

theorem of_ok {op : Op α} (hleaves : op.Leaves Memory.roster)
    (hok : ∀ w : World, w.network.Contained → ∃ a, (op.run w).1 = .ok a) : op.IsDiscreet := by
  refine ⟨hleaves, fun w hw f hf => ?_⟩
  obtain ⟨a, ha⟩ := hok w hw
  rw [ha] at hf
  cases hf

theorem pure (a : α) : (Pure.pure a : Op α).IsDiscreet := of_ok (Leaves.pure a) fun _ _ => ⟨a, rfl⟩

theorem note {n : Note} (hn : n.isDispatchError = false) : (Op.note n).IsDiscreet :=
  of_ok (Leaves.modify (Memory.roster_noted hn)) fun _ _ => ⟨(), rfl⟩

theorem bind {op : Op α} {f : α → Op β} (h : op.IsDiscreet) (hf : ∀ a, (f a).IsDiscreet) :
    (op >>= f).IsDiscreet := by
  refine ⟨h.leaves.bind fun a => (hf a).leaves, fun w hw e he => ?_⟩
  have hroster := h.leaves w
  have hw₁ := op.contained_run hw
  rw [run_bind] at he
  rcases hrun : op.run w with ⟨r, w₁⟩
  rw [hrun] at he hroster hw₁
  cases r with
  | error e' =>
    cases he
    exact h.fails w hw e (by rw [hrun])
  | ok a =>
    obtain ⟨d, hd⟩ := (hf a).fails w₁ hw₁ e he
    exact ⟨d, by rw [← hd, Memory.outage?_of_roster hroster]⟩

theorem discard {op : Op α} (h : op.IsDiscreet) : (Functor.discard op).IsDiscreet := by
  change ((fun _ => ()) <$> op).IsDiscreet
  rw [← bind_pure_comp]
  exact h.bind fun _ => pure ()

theorem duty (d : Duty) {body : Op α} (h : body.IsDiscreet) : (Op.duty d body).IsDiscreet := by
  refine ⟨h.leaves.duty d, fun w hw f hf => ?_⟩
  rw [run_duty] at hf
  cases hd : w.memory.outage? d with
  | some f' =>
    rw [hd] at hf
    cases hf
    exact ⟨d, hd⟩
  | none =>
    rw [hd] at hf
    exact h.fails w hw f hf

theorem gather {ops : List (Op α)} (h : ∀ op ∈ ops, op.IsDiscreet) : (Op.gather [] ops).IsDiscreet := by
  induction ops with
  | nil => exact pure []
  | cons op ops ih =>
    have hop := h op List.mem_cons_self
    have hops := ih fun op' hop' => h op' (List.mem_cons_of_mem _ hop')
    rw [Op.gather_cons]
    refine ⟨hop.leaves.outcome.bind fun first => hops.leaves.outcome.bind fun others => ?_, fun w hw f hf => ?_⟩
    · cases first with
      | error f => exact Leaves.throw f
      | ok a =>
        cases others with
        | error f => exact Leaves.throw f
        | ok as => exact Leaves.pure _
    · have hroster := hop.leaves w
      have hw₁ := op.contained_run hw
      rw [run_bind, run_outcome] at hf
      simp only at hf
      rw [run_bind, run_outcome] at hf
      rcases hfirst : op.run w with ⟨r, w₁⟩
      rw [hfirst] at hroster hw₁ hf
      rcases hothers : (Op.gather [] ops).run w₁ with ⟨r', w₂⟩
      rw [hothers] at hf
      cases r with
      | error e =>
        cases hf
        exact hop.fails w hw f (by rw [hfirst])
      | ok a =>
        cases r' with
        | error e =>
          cases hf
          obtain ⟨d, hd⟩ := hops.fails w₁ hw₁ f (by rw [hothers])
          exact ⟨d, by rw [← hd, Memory.outage?_of_roster hroster]⟩
        | ok as => cases hf

end IsDiscreet
end Op

/-! ## The service's own answer -/

namespace Cache

theorem roster_noted_of_cache {level : Level} {event : String} {fields : List (String × Json)} {f : Option Failure}
    (m : Memory) : (m.noted ⟨logger, level, event, fields, f⟩).roster = m.roster := by
  refine Memory.roster_noted ?_ m
  rw [Note.isDispatchError, decide_eq_false_iff_not]
  rintro ⟨h, -⟩
  change logger = Invalidation.logger at h
  exact absurd h (by decide)

theorem leaves_swallow (event : String) (fields : List (String × Json)) (f : Failure) :
    (swallow event fields f).Leaves Memory.roster := Op.Leaves.modify fun m => roster_noted_of_cache m

theorem leaves_debug (event : String) (fields : List (String × Json)) :
    (debug event fields).Leaves Memory.roster := Op.Leaves.modify fun m => roster_noted_of_cache m

theorem discreet_delete (key : String) : (delete key).IsDiscreet := by
  refine Op.IsDiscreet.of_ok ?_ fun w hw => ?_
  · have hremove : (Store.remove key).Leaves Memory.roster := fun w => (Store.sameService_reporting _ _ _ w).roster
    exact Op.Leaves.contain (hremove.discard.bind fun _ => leaves_debug _ _) fun f => leaves_swallow _ _ f
  · obtain ⟨exchanges, -, -, -, hok⟩ := delete_outcome key hw
    exact ⟨(), hok⟩

theorem discreet_deleteByPattern (pattern : String) : (deleteByPattern pattern).IsDiscreet := by
  refine Op.IsDiscreet.of_ok ?_ fun w hw => ?_
  · have hlist : (Store.keysMatching pattern).Leaves Memory.roster :=
      fun w => (Store.sameService_reporting _ _ _ w).roster
    have hremove : ∀ keys, (Store.removeMany keys).Leaves Memory.roster := by
      intro keys
      rw [Store.removeMany]
      split
      · exact Op.Leaves.pure 0
      · exact fun w => (Store.sameService_reporting _ _ _ w).roster
    refine Op.Leaves.contain (hlist.bind fun keys => ?_) fun f => (leaves_swallow _ _ f).bind fun _ => Op.Leaves.pure 0
    split
    · exact Op.Leaves.pure 0
    · exact (hremove keys).bind fun count => (leaves_debug _ _).bind fun _ => Op.Leaves.pure count
  · obtain ⟨exchanges, -, -, -, n, hok, -⟩ := deleteByPattern_outcome pattern hw
    exact ⟨n, hok⟩

end Cache

namespace Invalidation

theorem discreet_note (event : String) (fields : List (String × Json)) : (note .info event fields).IsDiscreet := by
  refine Op.IsDiscreet.note ?_
  rw [Note.isDispatchError, decide_eq_false_iff_not]
  rintro ⟨-, h⟩
  cases h

theorem dropping_discreet : Op.Dropping fun _ op => op.IsDiscreet where
  pure := Op.IsDiscreet.pure
  note := discreet_note
  bind := Op.IsDiscreet.bind
  discard := Op.IsDiscreet.discard
  duty := Op.IsDiscreet.duty
  gather := Op.IsDiscreet.gather
  delete := Cache.discreet_delete
  deleteByPattern := Cache.discreet_deleteByPattern

end Invalidation

/-! ## Handlers -/

namespace Script

/-- Whether it announces no update. -/
def isSilent : Script → Bool
  | .finish => true
  | .fail _ => true
  | .drop _ next => next.isSilent
  | .enlist _ _ _ _ next => next.isSilent
  | .announce _ _ => false

/-- What it ends in, if all it announces ends well. -/
def ending : Script → Except Failure Unit
  | .finish => .ok ()
  | .fail f => .error f
  | .drop _ next => next.ending
  | .enlist _ _ _ _ next => next.ending
  | .announce _ next => next.ending

/-- The handlers that it enlists, in order. -/
def enlisted : Script → Topic → List Handler
  | .finish, _ => []
  | .fail _, _ => []
  | .drop _ next, t => next.enlisted t
  | .enlist topic name label react next, t =>
    (if topic = t then [⟨name, label, react⟩] else []) ++ next.enlisted t
  | .announce _ next, t => next.enlisted t

end Script

namespace Roster

/-- With these handlers behind the subscribers that there are. -/
def joined (r : Roster) (more : Topic → List Handler) : Roster :=
  { r with subscribers := fun topic => r.subscribers topic ++ (more topic).map .handler }

@[simp] theorem joined_nil (r : Roster) : r.joined (fun _ => []) = r := by
  simp [joined]

@[simp] theorem joined_joined (r : Roster) (more later : Topic → List Handler) :
    (r.joined more).joined later = r.joined fun topic => more topic ++ later topic := by
  simp [joined]

end Roster

theorem Memory.subscribers_subscribe (m : Memory) (topic t : Topic) (s : Subscriber) :
    (m.subscribe topic s).subscribers t = m.subscribers t ++ if topic = t then [s] else [] := by
  cases topic <;> cases t <;> simp [subscribe, subscribers]

theorem Memory.roster_subscribe (m : Memory) (topic : Topic) (h : Handler) :
    (m.subscribe topic (.handler h)).roster = m.roster.joined fun t => if topic = t then [h] else [] := by
  have hsubscribers : (m.subscribe topic (.handler h)).subscribers = fun t =>
      m.subscribers t ++ (if topic = t then [h] else []).map .handler := by
    funext t
    rw [subscribers_subscribe]
    split <;> rfl
  rw [roster, hsubscribers]
  cases topic <;> rfl

namespace Invalidation

/-- What can be called is put behind the other handlers, and what cannot be called changes nothing. -/
theorem run_enlist (topic : Topic) (candidate : Option Handler) (w : World) :
    (enlist topic candidate).run w = match candidate with
      | none => (.error (.refused (.notCallable topic)), w)
      | some h => (.ok (), w.withMemory (·.subscribe topic (.handler h))) := by
  cases candidate <;> rfl

/-- A script that announces nothing ends as it says, and enlists the handlers that it names. -/
theorem run_perform {announce : Announcement → Op Unit} {s : Script} (hs : s.isSilent = true) {w : World}
    (hw : w.network.Contained) : ((perform announce s).run w).1 = s.ending ∧
      ((perform announce s).run w).2.memory.roster = w.memory.roster.joined s.enlisted := by
  induction s generalizing w with
  | finish => exact ⟨rfl, (Roster.joined_nil _).symm⟩
  | fail f => exact ⟨rfl, (Roster.joined_nil _).symm⟩
  | drop key next ih =>
    obtain ⟨exchanges, -, -, -, hok⟩ := Cache.delete_outcome key hw
    have hroster := (Cache.discreet_delete key).leaves w
    obtain ⟨hending, hjoined⟩ := ih hs ((Cache.delete key).contained_run hw)
    rw [perform, Op.run_bind]
    rcases hrun : (Cache.delete key).run w with ⟨r, w₁⟩
    rw [hrun] at hok hroster hending hjoined
    simp only at hok
    subst hok
    exact ⟨hending, by rw [hjoined, hroster]; rfl⟩
  | enlist topic name label react next _ ih =>
    rw [perform, Op.run_bind, run_enlist]
    simp only
    obtain ⟨hending, hjoined⟩ := ih hs (w := w.withMemory (·.subscribe topic (.handler ⟨name, label, react⟩))) hw
    refine ⟨hending, hjoined.trans ?_⟩
    rw [World.withMemory, Memory.roster_subscribe, Roster.joined_joined]
    rfl
  | announce a next _ => cases hs

end Invalidation
end CacheAside
