import CacheAside.Proofs.Resource.Owner
import CacheAside.Proofs.Cache.Effect

/-! # What reads leave alone

A read changes the client, the journal, the tally, the remembered calls of providers, the random numbers and the
counts of the cache in the collector, and nothing else. So any part of memory that does not look at these is the same
after it (`Resource.leaves_read`), whatever is read, found, or fails. -/

namespace CacheAside
set_option autoImplicit false

variable {α β γ : Type}

/-! ## Operations that leave a part of memory -/

/-- Leaves this part of memory as it is, whatever it comes to. -/
def Op.Leaves (view : Memory → γ) (op : Op α) : Prop := ∀ w : World, view (op.run w).2.memory = view w.memory

namespace Op.Leaves
variable {view : Memory → γ}

theorem pure (a : α) : (Pure.pure a : Op α).Leaves view := fun _ => rfl

theorem throw (f : Failure) : (MonadExcept.throw f : Op α).Leaves view := fun _ => rfl

theorem get : (MonadState.get : Op Memory).Leaves view := fun _ => rfl

theorem modify {f : Memory → Memory} (hf : ∀ m, view (f m) = view m) : (modify f : Op Unit).Leaves view :=
  fun w => hf w.memory

theorem bind {op : Op α} {f : α → Op β} (h : op.Leaves view) (hf : ∀ a, (f a).Leaves view) :
    (op >>= f).Leaves view := by
  intro w
  have hop := h w
  rw [Op.run_bind]
  rcases hrun : op.run w with ⟨r, w₁⟩
  rw [hrun] at hop
  cases r with
  | ok a => exact (hf a w₁).trans hop
  | error e => exact hop

theorem tryCatch {body : Op α} {handle : Failure → Op α} (h : body.Leaves view)
    (hhandle : ∀ f, (handle f).Leaves view) : (MonadExcept.tryCatch body handle).Leaves view := by
  intro w
  have hbody := h w
  rw [Op.run_tryCatch]
  rcases hrun : body.run w with ⟨r, w₁⟩
  rw [hrun] at hbody
  cases r with
  | ok a => exact hbody
  | error f => exact (hhandle f w₁).trans hbody

theorem contain {body : Op α} {handle : Failure → Op α} (h : body.Leaves view)
    (hhandle : ∀ f, (handle f).Leaves view) : (Op.contain body handle).Leaves view := by
  refine h.tryCatch fun f => ?_
  split
  · exact hhandle f
  · exact throw f

theorem discard {op : Op α} (h : op.Leaves view) : (Functor.discard op).Leaves view := by
  change ((fun _ => ()) <$> op).Leaves view
  rw [← bind_pure_comp]
  exact h.bind fun _ => pure ()

theorem outcome {body : Op α} (h : body.Leaves view) : (Op.outcome body).Leaves view := by
  intro w
  rw [Op.run_outcome]
  exact h w

theorem conclude (r : Except Failure α) : (Op.conclude r).Leaves view := by
  cases r with
  | ok a => exact pure a
  | error f => exact throw f

theorem duty (d : Duty) {body : Op α} (h : body.Leaves view) : (Op.duty d body).Leaves view := by
  refine get.bind fun m => ?_
  cases m.outage? d with
  | some f => exact throw f
  | none => exact h

end Op.Leaves

/-! ## Parts that no read changes -/

/-- A part of memory that looks at nothing of what reads change. -/
structure Memory.Aside (view : Memory → γ) : Prop where
  clients : ∀ (m : Memory) clients, view { m with clients } = view m
  journal : ∀ (m : Memory) journal, view { m with journal } = view m
  tally : ∀ (m : Memory) tally, view { m with tally } = view m
  fetches : ∀ (m : Memory) fetches, view { m with fetches } = view m
  fetched : ∀ (m : Memory) fetched, view { m with fetched } = view m
  draws : ∀ (m : Memory) draws, view { m with draws } = view m
  counts : ∀ (m : Memory) (change : Series → Series), ∀ name ∈ Rows.keys Collector.cacheFamilies,
    view { m with collector := m.collector.map (·.change name change) } = view m

variable {view : Memory → γ}

theorem Op.leaves_note (h : Memory.Aside view) (n : Note) : (Op.note n).Leaves view :=
  Op.Leaves.modify fun m => h.journal m _

theorem Op.leaves_collect (h : Memory.Aside view) {name : String} (hname : name ∈ Rows.keys Collector.cacheFamilies)
    (change : Series → Series) : (Op.collect (·.change name change)).Leaves view :=
  Op.Leaves.modify fun m => h.counts m change name hname

namespace Store

theorem leaves_of_sameService (h : Memory.Aside view) {op : Op α} (hop : ∀ w : World, w.SameService (op.run w).2) :
    op.Leaves view := by
  intro w
  obtain ⟨clients, hmemory⟩ := hop w
  rw [hmemory]
  exact h.clients w.memory clients

theorem leaves_send (h : Memory.Aside view) (c : Command) : (send c).Leaves view :=
  leaves_of_sameService h (sameService_send c)

theorem leaves_reporting (h : Memory.Aside view) (operation : String) (details : List (String × Json)) (c : Command) :
    (reporting operation details (send c)).Leaves view :=
  leaves_of_sameService h (sameService_reporting operation details c)

theorem leaves_isHealthy (h : Memory.Aside view) : isHealthy.Leaves view := by
  refine ((leaves_send h .ping).bind fun _ => Op.Leaves.pure true).tryCatch fun f => ?_
  cases f with
  | client fault text => exact Op.Leaves.pure false
  | _ => exact Op.Leaves.throw _

theorem leaves_start (h : Memory.Aside view) : start.Leaves view := by
  have hping : (do
      send .ping
      let m ← get
      Op.note ⟨logger, .info, "Redis store started", [("redis_url", .str m.endpoint.url)], none⟩ :
      Op Unit).Leaves view :=
    (leaves_send h .ping).bind fun _ => Op.Leaves.get.bind fun _ => Op.leaves_note h _
  refine (hping.tryCatch fun f => ?_).tryCatch fun f => ?_
  · cases f with
    | client fault text => exact (Op.leaves_note h _).bind fun _ => Op.Leaves.throw _
    | _ => exact Op.Leaves.throw _
  · cases f <;> exact Op.Leaves.throw _

theorem leaves_stop (h : Memory.Aside view) : stop.Leaves view := by
  have hclose : ∀ n : ℕ, (Op.command n .close).Leaves view := by
    intro n w
    obtain ⟨clients, hmemory⟩ := w.sameService_answer n .close
    rw [Op.run_command, hmemory]
    exact h.clients w.memory clients
  refine Op.Leaves.get.bind fun m => ?_
  cases m.clients.held with
  | none => exact Op.Leaves.pure ()
  | some n =>
    refine (hclose n).bind fun _ => (Op.Leaves.modify fun m => h.clients m _).bind fun _ => Op.leaves_note h _

end Store

/-! ## The cache -/

namespace Cache
variable (h : Memory.Aside view)
include h

theorem leaves_recordHit (key : String) : (recordHit key).Leaves view := by
  refine (Op.Leaves.get.bind fun _ => Op.Leaves.pure _).bind fun bucket => ?_
  refine (Op.Leaves.modify fun m => h.tally m _).bind fun _ => ?_
  exact (Op.leaves_collect h (by decide) _).bind fun _ => Op.Leaves.pure bucket

theorem leaves_recordMiss (key : String) : (recordMiss key).Leaves view := by
  refine (Op.Leaves.get.bind fun _ => Op.Leaves.pure _).bind fun bucket => ?_
  refine (Op.Leaves.modify fun m => h.tally m _).bind fun _ => ?_
  exact (Op.leaves_collect h (by decide) _).bind fun _ => Op.Leaves.pure bucket

theorem leaves_get (key : String) : (get key).Leaves view := by
  refine Op.Leaves.contain ?_ fun f => ?_
  · refine (Store.leaves_reporting h _ _ _).bind fun found => ?_
    cases found with
    | none => exact (leaves_recordMiss h key).discard.bind fun _ => Op.Leaves.pure _
    | some text =>
      refine Op.Leaves.get.bind fun m => ?_
      cases Json.read m.limits text with
      | error e => exact Op.Leaves.throw _
      | ok v => exact (leaves_recordHit h key).discard.bind fun _ => Op.Leaves.pure _
  · refine (Op.leaves_note h _).bind fun _ => ?_
    exact (leaves_recordMiss h key).discard.bind fun _ => Op.Leaves.pure _

theorem leaves_place (key : String) (value : Payload) (s : Seconds) : (place key value s).Leaves view := by
  refine Op.Leaves.get.bind fun m => ?_
  cases value.text m.limits with
  | error e => exact Op.Leaves.throw _
  | ok text =>
    simp only
    cases s.isPositive? with
    | none => exact Op.Leaves.throw _
    | some positive => cases positive <;> exact (Store.leaves_reporting h _ _ _).bind fun _ => Op.leaves_note h _

theorem leaves_set (key : String) (value : Payload) (seconds : Option Seconds) :
    (set key value seconds).Leaves view := by
  rw [set_eq]
  refine Op.Leaves.contain ?_ fun f => Op.leaves_note h _
  cases seconds with
  | some s => exact (Op.Leaves.pure s).bind fun s => leaves_place h key value s
  | none =>
    have hlifetime : (lifetime key).Leaves view := by
      refine Op.Leaves.get.bind fun m => ?_
      split
      · exact Op.Leaves.throw _
      · exact Op.Leaves.pure _
    exact hlifetime.bind fun s => leaves_place h key value s

theorem leaves_callProvider (key : String) {provider : Op Payload} (hprovider : provider.Leaves view) :
    (callProvider key provider).Leaves view := by
  refine (Op.Leaves.modify fun m => h.fetches m _).bind fun _ => hprovider.outcome.bind fun outcome => ?_
  have hrest : (bucketFor key >>= fun bucket =>
      Op.collect (·.observe "provider_duration_seconds" [bucket] Memory.lapse) >>= fun _ =>
        Op.conclude outcome).Leaves view := by
    refine (Op.Leaves.get.bind fun _ => Op.Leaves.pure _).bind fun bucket => ?_
    exact (Op.leaves_collect h (by decide) _).bind fun _ => Op.Leaves.conclude outcome
  cases outcome with
  | ok value => exact (Op.Leaves.modify fun m => h.fetched m _).bind fun _ => hrest
  | error f =>
    simp only
    split
    · exact (Op.leaves_note h _).bind fun _ => hrest
    · exact hrest

theorem leaves_getOrSet (key : String) {provider : Op Payload} (hprovider : provider.Leaves view)
    (seconds : Option Seconds) : (getOrSet key provider seconds).Leaves view := by
  refine (leaves_get h key).bind fun found => ?_
  cases found with
  | null =>
    refine (leaves_callProvider h key hprovider).bind fun value => ?_
    exact (leaves_set h key value seconds).bind fun _ => Op.Leaves.pure value
  | _ => exact Op.Leaves.pure _

theorem leaves_serverInfo : serverInfo.Leaves view := by
  refine Op.Leaves.contain ?_ fun f => (Op.leaves_note h _).bind fun _ => Op.Leaves.pure _
  exact (Store.leaves_reporting h _ _ _).bind fun _ => Op.Leaves.pure _

end Cache

/-! ## The feed -/

namespace Feed
variable (h : Memory.Aside view)
include h

theorem leaves_draw : draw.Leaves view := by
  intro w
  rw [draw, Op.run_bind, Op.run_get]
  cases hdraws : w.memory.draws with
  | nil => simp [hdraws]
  | cons x rest =>
    simp only [hdraws]
    exact h.draws w.memory (rest ++ [x])

theorem leaves_between (base width : Float) : (between base width).Leaves view :=
  (leaves_draw h).bind fun _ => Op.Leaves.pure _

theorem leaves_drawSnapshot (asset : Json) : (drawSnapshot asset).Leaves view := by
  refine (leaves_between h _ _).bind fun price => (leaves_between h _ _).bind fun volume => ?_
  refine (leaves_between h _ _).bind fun cap => (leaves_between h _ _).bind fun change => ?_
  cases asset with
  | str a => exact Op.Leaves.get.bind fun _ => Op.Leaves.pure _
  | _ => exact Op.Leaves.throw _

theorem leaves_drawIndicators : drawIndicators.Leaves view := by
  refine (leaves_between h _ _).bind fun strength => (leaves_draw h).bind fun value => ?_
  refine (leaves_draw h).bind fun signal => (leaves_draw h).bind fun histogram => ?_
  refine (leaves_between h _ _).bind fun upper => (leaves_between h _ _).bind fun middle => ?_
  refine (leaves_between h _ _).bind fun lower => (leaves_between h _ _).bind fun simple20 => ?_
  refine (leaves_between h _ _).bind fun simple50 => (leaves_between h _ _).bind fun exponential12 => ?_
  exact Op.Leaves.pure _

omit h in
theorem leaves_ago (seconds : ℕ) : (ago seconds).Leaves view := by
  refine Op.Leaves.get.bind fun m => ?_
  cases m.clock.earlier seconds with
  | some i => exact Op.Leaves.pure i
  | none => exact Op.Leaves.throw _

end Feed

/-! ## Reads -/

namespace Resource
variable (h : Memory.Aside view)
include h

theorem leaves_provider (r : Resource) : r.provider.Leaves view := by
  cases r with
  | snapshot a =>
    refine Op.Leaves.duty _ ((Op.leaves_note h _).bind fun _ => ?_)
    exact (Feed.leaves_drawSnapshot h _).bind fun _ => Op.Leaves.pure _
  | extended a =>
    refine Op.Leaves.duty _ ((Op.leaves_note h _).bind fun _ => (Feed.leaves_drawIndicators h).bind fun _ => ?_)
    exact (Feed.leaves_drawSnapshot h _).bind fun _ => Op.Leaves.pure _
  | news c =>
    refine Op.Leaves.duty _ ((Op.leaves_note h _).bind fun _ => (Feed.leaves_ago _).bind fun _ => ?_)
    exact (Feed.leaves_ago _).bind fun _ => Op.Leaves.pure _
  | trending =>
    refine Op.Leaves.duty _ ((Op.leaves_note h _).bind fun _ => Op.Leaves.get.bind fun _ => ?_)
    exact (Feed.leaves_ago _).bind fun _ => Op.Leaves.pure _

theorem leaves_read (r : Resource) : r.read.Leaves view := by
  have hcached : ∀ r : Resource, (Cache.getOrSet r.key r.provider (some r.lifetime)).Leaves view := fun r =>
    Cache.leaves_getOrSet h r.key (r.leaves_provider h) _
  cases r with
  | snapshot a =>
    refine Op.Leaves.duty _ ((Op.Leaves.conclude _).bind fun a => ?_)
    exact Op.Leaves.duty _ (hcached (.snapshot a))
  | extended a =>
    refine Op.Leaves.duty _ ((Op.Leaves.conclude _).bind fun a => ?_)
    exact Op.Leaves.duty _ (hcached (.extended a))
  | news c =>
    refine Op.Leaves.duty _ ((Op.Leaves.conclude _).bind fun c => ?_)
    exact Op.Leaves.duty _ (hcached (.news c))
  | trending => exact Op.Leaves.duty _ (Op.Leaves.duty _ (hcached .trending))

end Resource
end CacheAside
