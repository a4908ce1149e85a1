import CacheAside.Proofs.Invalidation.Roster
import CacheAside.Proofs.Cache.Counting

/-! # Everybody has one turn

An update that is announced is counted once, and then every subscriber that there is at this moment has one turn, one
after the other and the service itself first (`Turns`). Whoever fails is written down once and keeps nobody from a
turn. Those who are enlisted on the way stand behind the others from then on and wait for the next update. Handlers
may announce updates in turn, and what these come to falls into the turn of the handler; where none does, the roster
after the update can be told from the scripts (`Invalidation.announce_in_turn`). -/

namespace CacheAside
set_option autoImplicit false

/-! ## Nothing is cancelled -/

/-- Every failure in it can be contained, also in what it enlists. -/
def Script.NeverCancels : Script → Prop
  | .finish => True
  | .fail f => f.isContained = true
  | .drop _ next => next.NeverCancels
  | .enlist _ _ _ react next => (∀ u, (react u).NeverCancels) ∧ next.NeverCancels
  | .announce _ next => next.NeverCancels

def Handler.NeverCancels (h : Handler) : Prop := ∀ u, (h.react u).NeverCancels

/-- Every failure that can come up can be contained. -/
structure World.IsUncancelled (w : World) : Prop where
  network : w.network.Contained
  outages : ∀ d f, w.memory.outage? d = some f → f.isContained = true
  handlers : ∀ topic h, .handler h ∈ w.memory.subscribers topic → h.NeverCancels

/-- Deliveries were made and handlers came in behind the others, and nothing else that updates are about changed but
the counts and the errors. -/
structure World.Onward (w w' : World) : Prop where
  network : w'.network = w.network
  outages : w'.memory.outages = w.memory.outages
  deliveries : w.memory.deliveries <:+ w'.memory.deliveries
  subscribers : ∀ topic, ∃ more : List Handler, (∀ h ∈ more, h.NeverCancels) ∧
    w'.memory.subscribers topic = w.memory.subscribers topic ++ more.map .handler

namespace World.Onward
variable {w w₁ w₂ w₃ : World}

theorem of_roster (hnetwork : w₁.network = w.network) {more : Topic → List Handler}
    (hroster : w₁.memory.roster = w.memory.roster.joined more) (hmore : ∀ topic, ∀ h ∈ more topic, h.NeverCancels) :
    w.Onward w₁ := by
  have hdeliveries : w₁.memory.deliveries = w.memory.deliveries := congrArg Roster.deliveries hroster
  refine ⟨hnetwork, congrArg Roster.outages hroster, ?_, fun topic => ⟨more topic, hmore topic, ?_⟩⟩
  · rw [hdeliveries]
  · exact congrFun (congrArg Roster.subscribers hroster) topic

theorem refl (w : World) : w.Onward w :=
  of_roster rfl (Roster.joined_nil _).symm fun _ _ h => absurd h List.not_mem_nil

theorem trans (h : w₁.Onward w₂) (h' : w₂.Onward w₃) : w₁.Onward w₃ := by
  refine ⟨h'.network.trans h.network, h'.outages.trans h.outages, h.deliveries.trans h'.deliveries, fun topic => ?_⟩
  obtain ⟨more, hmore, hsubscribers⟩ := h.subscribers topic
  obtain ⟨later, hlater, hsubscribers'⟩ := h'.subscribers topic
  refine ⟨more ++ later, fun s hs => (List.mem_append.1 hs).elim (hmore s) (hlater s), ?_⟩
  rw [hsubscribers', hsubscribers, List.map_append, List.append_assoc]

theorem isUncancelled (h : w.Onward w₁) (hw : w.IsUncancelled) : w₁.IsUncancelled := by
  refine ⟨h.network ▸ hw.network, fun d f hf => hw.outages d f ?_, fun topic s hs => ?_⟩
  · rw [Memory.outage?, ← h.outages]
    exact hf
  · obtain ⟨more, hmore, hsubscribers⟩ := h.subscribers topic
    rw [hsubscribers] at hs
    rcases List.mem_append.1 hs with hs | hs
    · exact hw.handlers topic s hs
    · obtain ⟨s', hs', hsame⟩ := List.mem_map.1 hs
      cases hsame
      exact hmore s hs'

end World.Onward

/-- Goes onward, and fails with nothing that cannot be contained. -/
def Op.Proceeds {α : Type} (op : Op α) : Prop := ∀ w : World, w.IsUncancelled →
  w.Onward (op.run w).2 ∧ ∀ f, (op.run w).1 = .error f → f.isContained = true

namespace Op.Proceeds
variable {α β : Type}

theorem pure (a : α) : (Pure.pure a : Op α).Proceeds := fun w _ => ⟨.refl w, fun f hf => by cases hf⟩

theorem throw {f : Failure} (hf : f.isContained = true) : (MonadExcept.throw f : Op α).Proceeds := by
  refine fun w _ => ⟨.refl w, fun f' hf' => ?_⟩
  cases hf'
  exact hf

theorem modify {f : Memory → Memory} (hf : ∀ w : World, w.Onward (w.withMemory f)) :
    (modify f : Op Unit).Proceeds := fun w _ => ⟨hf w, fun f hf => by cases hf⟩

theorem bind {op : Op α} {f : α → Op β} (h : op.Proceeds) (hf : ∀ a, (f a).Proceeds) : (op >>= f).Proceeds := by
  intro w hw
  obtain ⟨hfirst, hfails⟩ := h w hw
  rw [Op.run_bind]
  rcases hrun : op.run w with ⟨r, w₁⟩
  rw [hrun] at hfirst hfails
  cases r with
  | error e =>
    refine ⟨hfirst, fun f' hf' => ?_⟩
    cases hf'
    exact hfails e rfl
  | ok a =>
    obtain ⟨hsecond, hfails'⟩ := hf a w₁ (hfirst.isUncancelled hw)
    exact ⟨hfirst.trans hsecond, hfails'⟩

theorem of_isDiscreet {op : Op α} (h : op.IsDiscreet) : op.Proceeds := by
  intro w hw
  have hroster : (op.run w).2.memory.roster = w.memory.roster.joined fun _ => [] := by
    rw [Roster.joined_nil]
    exact h.leaves w
  refine ⟨.of_roster (op.network_run w) hroster fun _ _ hs => absurd hs List.not_mem_nil, fun f hf => ?_⟩
  obtain ⟨d, hd⟩ := h.fails w hw.network f hf
  exact hw.outages d f hd

end Op.Proceeds

namespace Invalidation

/-! ## Turns -/

theorem proceeds_perform {announce : Announcement → Op Unit} (hannounce : ∀ a, (announce a).Proceeds) {s : Script}
    (hs : s.NeverCancels) : (perform announce s).Proceeds := by
  induction s with
  | finish => exact .pure ()
  | fail f => exact .throw hs
  | drop key next ih => exact (Op.Proceeds.of_isDiscreet (Cache.discreet_delete key)).bind fun _ => ih hs
  | enlist topic name label react next _ ih =>
    refine (Op.Proceeds.modify fun w => ?_).bind fun _ => ih hs.2
    refine .of_roster rfl (Memory.roster_subscribe _ _ _) fun t h hh => ?_
    split at hh
    · rw [List.mem_singleton.1 hh]
      exact hs.1
    · cases hh
  | announce a next ih => exact (hannounce a).bind fun _ => ih hs

/-- What a subscriber does with an update. -/
def answer (announce : Announcement → Op Unit) (u : Update) : Subscriber → Op Unit
  | .invalidation => invalidate u
  | .handler h => perform announce (h.react u)

end Invalidation

/-- The world in which this is delivered, too. -/
def World.delivered (w : World) (d : Delivery) : World :=
  w.withMemory fun m => { m with deliveries := d :: m.deliveries }

theorem World.onward_delivered (w : World) (d : Delivery) : w.Onward (w.delivered d) :=
  ⟨rfl, rfl, List.suffix_cons _ _, (World.Onward.refl w).subscribers⟩

theorem World.onward_noted (w : World) (n : Note) : w.Onward (w.withMemory (.noted n)) :=
  ⟨rfl, rfl, List.suffix_rfl, (World.Onward.refl w).subscribers⟩

namespace Invalidation

theorem run_deliver (announce : Announcement → Op Unit) (u : Update) (s : Subscriber) (w : World) :
    (deliver announce u s).run w = (answer announce u s).run (w.delivered ⟨s, u⟩) := by
  cases s <;> rfl

theorem proceeds_answer {announce : Announcement → Op Unit} (hannounce : ∀ a, (announce a).Proceeds) (u : Update)
    {s : Subscriber} (hs : ∀ h, s = .handler h → h.NeverCancels) : (answer announce u s).Proceeds := by
  cases s with
  | invalidation => exact .of_isDiscreet (dropping_invalidate dropping_discreet u)
  | handler h => exact proceeds_perform hannounce (hs h rfl u)

/-- What is written down about a turn: nothing unless it failed. -/
def complaint? (u : Update) (t : Event Subscriber Unit) : Option Note :=
  match t.outcome with
  | .ok _ => none
  | .error f => some (failureNote u t.deed f)

/-- The world in which the turn behind this one begins. -/
def settled (u : Update) (t : Event Subscriber Unit) : World :=
  match complaint? u t with
  | none => t.after
  | some n => t.after.withMemory (.noted n)

/-- The turns that an update gives to subscribers, each in the world that the one before has left. -/
inductive Turns (announce : Announcement → Op Unit) (u : Update) : World → List (Event Subscriber Unit) → World → Prop
  | done (w : World) : Turns announce u w [] w
  | next {t : Event Subscriber Unit} {later : List (Event Subscriber Unit)} {w' : World}
      (performed : t.Performs (deliver announce u)) (rest : Turns announce u (settled u t) later w') :
      Turns announce u t.before (t :: later) w'

/-- Whatever happens in the turns, everybody has one. -/
theorem deliverAll_in_turn {announce : Announcement → Op Unit} (hannounce : ∀ a, (announce a).Proceeds) (u : Update)
    {subscribers : List Subscriber} (hs : ∀ h, .handler h ∈ subscribers → h.NeverCancels) {w : World}
    (hw : w.IsUncancelled) : ∃ turns w', (deliverAll announce u subscribers).run w = (.ok (), w') ∧
      Turns announce u w turns w' ∧ turns.map Event.deed = subscribers ∧ w.Onward w' ∧
      ∀ t ∈ turns, (t.before.delivered ⟨t.deed, u⟩).Onward t.after := by
  induction subscribers generalizing w with
  | nil => exact ⟨[], w, rfl, .done w, rfl, .refl w, fun t ht => absurd ht List.not_mem_nil⟩
  | cons s rest ih =>
    have hgiven := w.onward_delivered ⟨s, u⟩
    have hproceeds := proceeds_answer hannounce u (s := s) fun h hh => hs h (hh ▸ List.mem_cons_self)
    obtain ⟨hturn, hfails⟩ := hproceeds (w.delivered ⟨s, u⟩) (hgiven.isUncancelled hw)
    rw [← run_deliver announce u s w] at hturn hfails
    rcases hdeliver : (deliver announce u s).run w with ⟨r, w₁⟩
    rw [hdeliver] at hturn hfails
    let t : Event Subscriber Unit := ⟨s, w, r, w₁⟩
    have hcontained : (Op.contain (deliver announce u s) fun f => Op.note (failureNote u s f)).run w =
        (.ok (), settled u t) := by
      rw [Op.run_contain, hdeliver]
      cases r with
      | ok a => rfl
      | error f => exact if_pos (hfails f rfl)
    have honward : w.Onward (settled u t) := by
      rw [settled]
      cases complaint? u t with
      | none => exact hgiven.trans hturn
      | some n => exact (hgiven.trans hturn).trans (World.onward_noted _ n)
    obtain ⟨turns, w', hrun, hturns, hdeeds, hrest, heach⟩ :=
      ih (fun h hh => hs h (List.mem_cons_of_mem _ hh)) (honward.isUncancelled hw)
    refine ⟨t :: turns, w', ?_, .next (t := t) hdeliver hturns, ?_, honward.trans hrest, ?_⟩
    · rw [deliverAll, Op.run_bind, hcontained]
      exact hrun
    · rw [List.map_cons, hdeeds]
    · exact List.forall_mem_cons.2 ⟨hturn, heach⟩

end Invalidation

/-! ## Announcements -/

/-- The world in which an update of a topic is counted. -/
def World.counted (w : World) (topic : Topic) : World :=
  w.withMemory fun m => { m with
    collector := m.collector.map (·.bump "cache_invalidations_total" [Invalidation.eventType topic]) }

theorem World.onward_counted (w : World) (topic : Topic) : w.Onward (w.counted topic) :=
  ⟨rfl, rfl, List.suffix_rfl, (World.Onward.refl w).subscribers⟩

namespace Invalidation

theorem run_announceWithin {a : Announcement} {u : Update} (h : accept a = .ok u) (levels : ℕ) (w : World) :
    (announceWithin (levels + 1) a).run w =
      (deliverAll (announceWithin levels) u (w.memory.subscribers u.topic)).run (w.counted u.topic) := by
  rw [announceWithin, h]
  rfl

theorem proceeds_announceWithin (levels : ℕ) (a : Announcement) : (announceWithin levels a).Proceeds := by
  induction levels generalizing a with
  | zero => exact .throw rfl
  | succ levels ih =>
    cases haccept : accept a with
    | error refusal =>
      rw [announceWithin, haccept]
      exact .throw rfl
    | ok u =>
      intro w hw
      have hcounted := w.onward_counted u.topic
      obtain ⟨turns, w', hrun, -, -, honward, -⟩ :=
        deliverAll_in_turn ih u (hw.handlers u.topic) (hcounted.isUncancelled hw)
      rw [run_announceWithin haccept, hrun]
      exact ⟨hcounted.trans honward, fun f hf => by cases hf⟩

theorem ofJson?_eq_none {kind : Json} (h : ∀ k : AssetKind, kind ≠ .str k.name) : AssetKind.ofJson? kind = none := by
  cases kind with
  | str s =>
    refine List.find?_eq_none.2 fun k _ hk => h k ?_
    rw [of_decide_eq_true hk]
  | _ => rfl

/-! ## Updates that no handler passes on -/

end Invalidation

namespace Subscriber

/-- Whether it answers an update without announcing one. -/
def isSilent (u : Update) : Subscriber → Bool
  | .invalidation => true
  | .handler h => (h.react u).isSilent

/-- The handlers that it enlists when it hears of an update. -/
def enlisted (u : Update) : Subscriber → Topic → List Handler
  | .invalidation => fun _ => []
  | .handler h => (h.react u).enlisted

/-- What is written down about it where nothing is out of order. -/
def complaint? (u : Update) : Subscriber → Option Note
  | .invalidation => none
  | .handler h =>
    match (h.react u).ending with
    | .ok _ => none
    | .error f => some (Invalidation.failureNote u (.handler h) f)

end Subscriber

namespace Invalidation
variable {announce : Announcement → Op Unit} {u : Update}

theorem roster_deliver {s : Subscriber} (hs : s.isSilent u = true) {w : World} (hw : w.network.Contained) :
    ((deliver announce u s).run w).2.memory.roster = (w.delivered ⟨s, u⟩).memory.roster.joined (s.enlisted u) := by
  rw [run_deliver]
  cases s with
  | invalidation => exact ((dropping_invalidate dropping_discreet u).leaves _).trans (Roster.joined_nil _).symm
  | handler h => exact (run_perform hs (w := w.delivered ⟨.handler h, u⟩) hw).2

/-- The roster after a turn. -/
def heard (u : Update) (r : Roster) (t : Event Subscriber Unit) : Roster :=
  { r.joined (t.deed.enlisted u) with
    deliveries := ⟨t.deed, u⟩ :: r.deliveries
    errors := (complaint? u t).toList ++ r.errors }

theorem isDispatchError_failureNote (u : Update) (s : Subscriber) (f : Failure) :
    (failureNote u s f).isDispatchError = true := by
  cases u <;> rfl

theorem roster_settled {t : Event Subscriber Unit} (ht : t.Performs (deliver announce u))
    (hs : t.deed.isSilent u = true) (hw : t.before.network.Contained) :
    (settled u t).memory.roster = heard u t.before.memory.roster t := by
  have hafter : t.after.memory.roster = (t.before.delivered ⟨t.deed, u⟩).memory.roster.joined (t.deed.enlisted u) := by
    rw [← roster_deliver hs hw, ht]
  have hheard : heard u t.before.memory.roster t =
      { t.after.memory.roster with errors := (complaint? u t).toList ++ t.after.memory.roster.errors } := by
    rw [hafter]
    rfl
  rw [hheard, settled, complaint?]
  cases t.outcome with
  | ok a => rfl
  | error f =>
    have herrors : (t.after.memory.noted (failureNote u t.deed f)).dispatchErrors =
        failureNote u t.deed f :: t.after.memory.dispatchErrors :=
      List.filter_cons_of_pos (isDispatchError_failureNote u t.deed f)
    simp only [World.withMemory, Memory.roster, herrors]
    rfl

theorem Turns.roster {turns : List (Event Subscriber Unit)} {w w' : World} (h : Turns announce u w turns w')
    (hs : ∀ t ∈ turns, t.deed.isSilent u = true) (hw : w.network.Contained) :
    w'.memory.roster = turns.foldl (heard u) w.memory.roster := by
  induction h with
  | done w => rfl
  | @next t later w' performed rest ih =>
    have hnetwork : (settled u t).network = t.before.network := by
      have hafter := (deliver announce u t.deed).network_run t.before
      rw [performed] at hafter
      rw [settled]
      cases complaint? u t <;> exact hafter
    rw [ih (fun t' ht' => hs t' (List.mem_cons_of_mem _ ht')) (hnetwork ▸ hw), List.foldl_cons,
      roster_settled performed (hs t List.mem_cons_self) hw]

theorem foldl_heard (u : Update) (turns : List (Event Subscriber Unit)) (r : Roster) : turns.foldl (heard u) r =
    { r.joined fun topic => turns.flatMap fun t => t.deed.enlisted u topic with
      deliveries := (turns.map fun t => ⟨t.deed, u⟩).reverse ++ r.deliveries
      errors := (turns.filterMap (complaint? u)).reverse ++ r.errors } := by
  induction turns generalizing r with
  | nil => simp [Roster.joined]
  | cons t turns ih =>
    rw [List.foldl_cons, ih]
    cases hcomplaint : complaint? u t <;> simp [heard, Roster.joined, hcomplaint]

theorem outcome_handler {t : Event Subscriber Unit} (ht : t.Performs (deliver announce u)) {h : Handler}
    (hdeed : t.deed = .handler h) (hs : (h.react u).isSilent = true) (hw : t.before.network.Contained) :
    t.outcome = (h.react u).ending := by
  have hrun : (perform announce (h.react u)).run (t.before.delivered ⟨t.deed, u⟩) = (t.outcome, t.after) := by
    rw [← ht, run_deliver, hdeed]
    rfl
  have hdelivered : (t.before.delivered ⟨t.deed, u⟩).network.Contained := hw
  rw [← (run_perform hs hdelivered).1, hrun]

theorem outcome_invalidation {t : Event Subscriber Unit} (ht : t.Performs (deliver announce u))
    (hdeed : t.deed = .invalidation) (hduties : t.before.memory.outages = []) (hw : t.before.network.Contained) :
    t.outcome = .ok () := by
  have hrun : (invalidate u).run (t.before.delivered ⟨t.deed, u⟩) = (t.outcome, t.after) := by
    rw [← ht, run_deliver, hdeed]
    rfl
  cases houtcome : t.outcome with
  | ok a => rfl
  | error f =>
    obtain ⟨d, hd⟩ := (dropping_invalidate dropping_discreet u).fails (t.before.delivered ⟨t.deed, u⟩) hw f
      (by rw [hrun, houtcome])
    change Rows.find? d t.before.memory.outages = some f at hd
    rw [hduties] at hd
    cases hd

/-- Every turn begins with the same network and with the same things out of order. -/
theorem Turns.before {turns : List (Event Subscriber Unit)} {w w' : World} (h : Turns announce u w turns w')
    (heach : ∀ t ∈ turns, (t.before.delivered ⟨t.deed, u⟩).Onward t.after) :
    ∀ t ∈ turns, t.Performs (deliver announce u) ∧ t.before.network = w.network ∧
      t.before.memory.outages = w.memory.outages := by
  induction h with
  | done w => exact fun t ht => absurd ht List.not_mem_nil
  | @next t later w' performed rest ih =>
    have hafter := heach t List.mem_cons_self
    have hsettled : (settled u t).network = t.before.network ∧
        (settled u t).memory.outages = t.before.memory.outages := by
      rw [settled]
      cases complaint? u t <;> exact ⟨hafter.network, hafter.outages⟩
    refine List.forall_mem_cons.2 ⟨⟨performed, rfl, rfl⟩, fun t' ht' => ?_⟩
    obtain ⟨hperformed, hnetwork, houtages⟩ := ih (fun t' ht' => heach t' (List.mem_cons_of_mem _ ht')) t' ht'
    exact ⟨hperformed, hnetwork.trans hsettled.1, houtages.trans hsettled.2⟩

end Invalidation

/-! ## Counting updates -/

/-- Whether it has a counter of updates. -/
def Collector.CountsUpdates (c : Collector) : Prop :=
  ∃ f, c.families.find? "cache_invalidations_total" = some f ∧ f.IsCounter

theorem Collector.count_bump {c : Collector} {name : String} {f : Family} (hf : c.families.find? name = some f)
    (hcounter : f.IsCounter) (labels labels' : List String) :
    (c.bump name labels).count name labels' = c.count name labels' + if labels' = labels then 1 else 0 := by
  have hfamily : (c.bump name labels).families.find? name = some (f.bump labels) := by
    rw [bump, find?_change, if_pos rfl, hf]
    rfl
  rw [count, hfamily, count, hf]
  exact Family.count_bump hcounter labels labels'

namespace Invalidation

/-- An update that is heard by these subscribers: each of them has one turn, in this order, in which the update is
given to it, in a world where the update is counted already; those who come in stand behind these. -/
structure Heard (levels : ℕ) (u : Update) (handlers : Topic → List Handler) (w : World)
    (turns : List (Event Subscriber Unit)) (w' : World) : Prop where
  inTurn : Turns (announceWithin levels) u (w.counted u.topic) turns w'
  order : turns.map Event.deed = .invalidation :: (handlers u.topic).map .handler
  given : ∀ t ∈ turns, (⟨t.deed, u⟩ :: t.before.memory.deliveries) <:+ t.after.memory.deliveries
  joined : ∃ more : Topic → List Handler, ∀ topic,
    w'.memory.subscribers topic = .invalidation :: (handlers topic ++ more topic).map .handler
  uncancelled : w'.IsUncancelled

/-- An update that no handler passes on: nothing is delivered but this update, once in every turn; a handler fails
where its script says so, and the service itself only where something is out of order; every turn that failed is
written down once, and whoever came in is named by the scripts. -/
structure HeardAlone (u : Update) (handlers : Topic → List Handler) (w : World) (turns : List (Event Subscriber Unit))
    (w' : World) : Prop where
  deliveries : w'.memory.deliveries = (turns.map fun t => ⟨t.deed, u⟩).reverse ++ w.memory.deliveries
  subscribers : ∀ topic, w'.memory.subscribers topic = .invalidation ::
    (handlers topic ++ (handlers u.topic).flatMap fun h => (h.react u).enlisted topic).map .handler
  ending : ∀ t ∈ turns, ∀ h, t.deed = .handler h → t.outcome = (h.react u).ending
  service : w.memory.outages = [] → ∀ t ∈ turns, t.deed = .invalidation → t.outcome = .ok ()
  errors : w'.memory.dispatchErrors = (turns.filterMap (complaint? u)).reverse ++ w.memory.dispatchErrors
  failed : w.memory.outages = [] → turns.filterMap (complaint? u) =
    (handlers u.topic).filterMap fun h => Subscriber.complaint? u (.handler h)
  collector : w'.memory.collector = (w.counted u.topic).memory.collector

theorem flatMap_enlisted {turns : List (Event Subscriber Unit)} {u : Update} {handlers : List Handler}
    (h : turns.map Event.deed = .invalidation :: handlers.map .handler) (topic : Topic) :
    (turns.flatMap fun t => t.deed.enlisted u topic) = handlers.flatMap fun h => (h.react u).enlisted topic := by
  have hdeeds : (turns.flatMap fun t => t.deed.enlisted u topic) =
      (turns.map Event.deed).flatMap fun s => s.enlisted u topic := by
    rw [List.flatMap_map]
  rw [hdeeds, h, List.flatMap_cons, List.flatMap_map]
  rfl

theorem heardAlone {levels : ℕ} {u : Update} {handlers : Topic → List Handler} {w w' : World}
    {turns : List (Event Subscriber Unit)} (hw : w.network.Contained)
    (hregistered : ∀ topic, w.memory.subscribers topic = .invalidation :: (handlers topic).map .handler)
    (hturns : Turns (announceWithin levels) u (w.counted u.topic) turns w')
    (horder : turns.map Event.deed = .invalidation :: (handlers u.topic).map .handler)
    (heach : ∀ t ∈ turns, (t.before.delivered ⟨t.deed, u⟩).Onward t.after)
    (hsilent : ∀ h ∈ handlers u.topic, (h.react u).isSilent = true) : HeardAlone u handlers w turns w' := by
  have hdeeds : ∀ t ∈ turns, t.deed.isSilent u = true := by
    intro t ht
    have hmem : t.deed ∈ turns.map Event.deed := List.mem_map_of_mem ht
    rw [horder] at hmem
    rcases List.mem_cons.1 hmem with hdeed | hmem
    · rw [hdeed]
      rfl
    · obtain ⟨h, hh, hdeed⟩ := List.mem_map.1 hmem
      rw [← hdeed]
      exact hsilent h hh
  have hroster : w'.memory.roster = _ := (hturns.roster hdeeds hw).trans (foldl_heard u turns _)
  have hbefore := hturns.before heach
  have hhandlers : ∀ t ∈ turns, ∀ h, t.deed = .handler h → t.outcome = (h.react u).ending := by
    intro t ht h hdeed
    obtain ⟨hperformed, hnetwork, -⟩ := hbefore t ht
    have hmem := hdeeds t ht
    rw [hdeed] at hmem
    exact outcome_handler hperformed hdeed hmem (hnetwork ▸ hw)
  have hservice : w.memory.outages = [] → ∀ t ∈ turns, t.deed = .invalidation → t.outcome = .ok () := by
    intro hduties t ht hdeed
    obtain ⟨hperformed, hnetwork, houtages⟩ := hbefore t ht
    exact outcome_invalidation hperformed hdeed (houtages.trans hduties) (hnetwork ▸ hw)
  refine ⟨congrArg Roster.deliveries hroster, fun topic => ?_, hhandlers, hservice, congrArg Roster.errors hroster,
    fun hduties => ?_, congrArg Roster.collector hroster⟩
  · have hsubscribers := congrFun (congrArg Roster.subscribers hroster) topic
    have hjoined : w'.memory.subscribers topic = w.memory.subscribers topic ++
        (turns.flatMap fun t => t.deed.enlisted u topic).map .handler := hsubscribers
    rw [hjoined, flatMap_enlisted horder, hregistered, List.map_append, List.cons_append]
  · have hcomplaints : ∀ t ∈ turns, complaint? u t = t.deed.complaint? u := by
      intro t ht
      rw [complaint?]
      cases hdeed : t.deed with
      | invalidation =>
        rw [hservice hduties t ht hdeed]
        rfl
      | handler h =>
        rw [hhandlers t ht h hdeed]
        rfl
    have hdeeds : turns.filterMap (fun t => t.deed.complaint? u) =
        (turns.map Event.deed).filterMap (Subscriber.complaint? u) := by
      rw [List.filterMap_map]
      rfl
    rw [List.filterMap_congr hcomplaints, hdeeds, horder, List.filterMap_cons_none rfl, List.filterMap_map]
    rfl

/-- Where handlers are registered behind the service itself and nothing is cancelled, every update that is accepted
is counted once and heard in turn, and the announcement ends well however many turns fail. An asset update of an
unknown kind is refused and changes nothing. A handler is put behind the others of its topic, however often it is
there already; what cannot be called is refused and changes nothing. -/
theorem announce_in_turn {w : World} (hw : w.IsUncancelled) {handlers : Topic → List Handler}
    (hregistered : ∀ topic, w.memory.subscribers topic = .invalidation :: (handlers topic).map .handler) :
    (∀ levels u, ∃ turns w', (announceWithin (levels + 1) (announcement u)).run w = (.ok (), w') ∧
      Heard levels u handlers w turns w' ∧
      ((∀ h ∈ handlers u.topic, (h.react u).isSilent = true) → HeardAlone u handlers w turns w') ∧
      ∀ c, w.memory.collector = some c → c.CountsUpdates → ∃ c', (w.counted u.topic).memory.collector = some c' ∧
        ∀ labels, c'.count "cache_invalidations_total" labels =
          c.count "cache_invalidations_total" labels + if labels = [eventType u.topic] then 1 else 0) ∧
    (∀ levels id kind, (∀ k : AssetKind, kind ≠ .str k.name) →
      (announceWithin (levels + 1) (.asset id kind)).run w = (.error (.refused (.unknownKind kind)), w) ∧
        (Refusal.unknownKind kind).report.code = .str "VALIDATION_ERROR") ∧
    ∀ topic, (enlist topic none).run w = (.error (.refused (.notCallable topic)), w) ∧
      (Refusal.notCallable topic).report.code = .str "VALIDATION_ERROR" ∧
      ∀ h, ∃ w', (enlist topic (some h)).run w = (.ok (), w') ∧ ∀ t, w'.memory.subscribers t =
        .invalidation :: (handlers t ++ if topic = t then [h] else []).map .handler := by
  refine ⟨fun levels u => ?_, fun levels id kind hkind => ⟨?_, rfl⟩,
    fun topic => ⟨rfl, rfl, fun h => ⟨_, rfl, fun t => ?_⟩⟩⟩
  · have hcounted := w.onward_counted u.topic
    obtain ⟨turns, w', hrun, hturns, horder, honward, heach⟩ := deliverAll_in_turn
      (proceeds_announceWithin levels) u (hw.handlers u.topic) (hcounted.isUncancelled hw)
    rw [hregistered] at horder
    refine ⟨turns, w', ?_, ⟨hturns, horder, fun t ht => (heach t ht).deliveries, ?_,
      (hcounted.trans honward).isUncancelled hw⟩, heardAlone hw.network hregistered hturns horder heach, ?_⟩
    · rw [run_announceWithin (accept_announcement u), hrun]
    · choose more _ hmore using (hcounted.trans honward).subscribers
      refine ⟨more, fun topic => ?_⟩
      rw [hmore, hregistered, List.map_append, List.cons_append]
    · rintro c hc ⟨f, hf, hcounter⟩
      refine ⟨c.bump "cache_invalidations_total" [eventType u.topic], ?_, Collector.count_bump hf hcounter _⟩
      rw [World.counted, World.withMemory, hc]
      rfl
  · rw [announceWithin, accept, ofJson?_eq_none hkind]
    rfl
  · change (w.memory.subscribe topic (.handler h)).subscribers t = _
    rw [Memory.subscribers_subscribe, hregistered, List.map_append, List.cons_append]
    split <;> rfl

/-- A handler that fails, enlisted twice, and behind it one that enlists another for assets and for news. -/
def attendants : Topic → List Handler
  | .asset =>
    let failing : Handler := ⟨.str "failing", "failing", fun _ => .fail (.fault .runtime "boom")⟩
    let late (topic : Topic) (next : Script) : Script := .enlist topic (.str "late") "late" (fun _ => .finish) next
    [failing, failing, ⟨.str "inviting", "inviting", fun _ => late .asset (late .news .finish)⟩]
  | .news => []

def attended : World := (World.fresh []).withMemory fun m =>
  { m with
    collector := some (Collector.start "cache")
    assetSubscribers := .invalidation :: (attendants .asset).map .handler
    newsSubscribers := .invalidation :: (attendants .news).map .handler }

/-- All four have their turn and none of the late ones, two failures are written down, and one update is counted. -/
theorem announce_in_turn_attended : ∃ w' c,
    (announce (.asset (.str "XLM") (.str "price"))).run attended = (.ok (), w') ∧
    w'.memory.deliveries.length = 4 ∧ w'.memory.dispatchErrors.length = 2 ∧
    (w'.memory.subscribers .asset).length = 5 ∧ (w'.memory.subscribers .news).length = 2 ∧
    w'.memory.collector = some c ∧ c.count "cache_invalidations_total" ["asset_updated"] = 1 ∧
    c.count "cache_invalidations_total" ["news_updated"] = 0 := by
  have hregistered : ∀ topic, attended.memory.subscribers topic =
      .invalidation :: (attendants topic).map .handler := fun topic => by cases topic <;> rfl
  have huncancelled : attended.IsUncancelled := by
    refine ⟨World.contained_fresh [], (fun d f hf => by cases hf), fun topic h hh => ?_⟩
    rw [hregistered] at hh
    obtain ⟨h', hmem, hsame⟩ := List.mem_map.1 (List.mem_of_ne_of_mem Subscriber.noConfusion hh)
    obtain rfl := Subscriber.handler.inj hsame
    cases topic with
    | asset =>
      simp only [attendants, List.mem_cons, List.not_mem_nil, or_false] at hmem
      obtain rfl | rfl | rfl := hmem
      · exact fun _ => rfl
      · exact fun _ => rfl
      · exact fun _ => ⟨fun _ => trivial, fun _ => trivial, trivial⟩
    | news => cases hmem
  obtain ⟨hheard, -, -⟩ := announce_in_turn huncancelled hregistered
  obtain ⟨turns, w', hrun, hinTurn, halone, hcounted⟩ := hheard 31 (.asset (.str "XLM") .price)
  have halone := halone (by decide)
  obtain ⟨c, hc, hcount⟩ := hcounted (Collector.start "cache") rfl ⟨_, rfl, _, rfl⟩
  refine ⟨w', c, hrun, ?_, ?_, ?_, ?_, halone.collector.trans hc, hcount _, hcount _⟩
  · have hlength := congrArg List.length hinTurn.order
    rw [List.length_map] at hlength
    rw [halone.deliveries, List.length_append, List.length_reverse, List.length_map, hlength]
    rfl
  · rw [halone.errors, halone.failed rfl, List.length_append, List.length_reverse]
    rfl
  · rw [halone.subscribers]
    rfl
  · rw [halone.subscribers]
    rfl

end Invalidation
end CacheAside
