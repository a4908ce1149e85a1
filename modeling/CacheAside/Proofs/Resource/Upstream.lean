import CacheAside.Proofs.Resource.Aside
import CacheAside.Proofs.Cache.Containment

/-! # Reads that go upstream

The feed makes no call to the store and calls no provider, whatever it delivers (`Offline`). So a read of a
resource calls the feed once, for its key, if the cache answers with null, and not at all otherwise
(`Resource.fetches_read_iff`). -/

namespace CacheAside
set_option autoImplicit false

/-! ## Operations without calls -/

/-- An operation that makes no call, calls no provider and writes no error of the cache. -/
def Offline {α : Type} (op : Op α) : Prop :=
  ∀ w : World, Accounted w (op.run w).2 [] 0 ∧ (op.run w).2.memory.fetches = w.memory.fetches

theorem Offline.detached {provider : Op Payload} (h : Offline provider) : Detached provider := fun w => (h w).1

namespace Offline
variable {α β : Type}

theorem pure (a : α) : Offline (Pure.pure a : Op α) := fun w => ⟨Accounted.refl w, rfl⟩

theorem throw (f : Failure) : Offline (MonadExcept.throw f : Op α) := fun w => ⟨Accounted.refl w, rfl⟩

theorem get : Offline (MonadState.get : Op Memory) := fun w => ⟨Accounted.refl w, rfl⟩

theorem note {n : Note} (hn : n.isCacheError = false) : Offline (Op.note n) :=
  fun w => ⟨(Accounted.refl w).quiet (quiet_noted hn), rfl⟩

theorem bind {op : Op α} {f : α → Op β} (h : Offline op) (hf : ∀ a, Offline (f a)) : Offline (op >>= f) := by
  intro w
  obtain ⟨hop, hfetches⟩ := h w
  rw [Op.run_bind]
  rcases hrun : op.run w with ⟨r, w₁⟩
  rw [hrun] at hop hfetches
  cases r with
  | error e => exact ⟨hop, hfetches⟩
  | ok a =>
    obtain ⟨hnext, hfetches'⟩ := hf a w₁
    exact ⟨hop.trans hnext, hfetches'.trans hfetches⟩

theorem duty (d : Duty) {body : Op α} (h : Offline body) : Offline (Op.duty d body) := by
  refine get.bind fun m => ?_
  cases m.outage? d with
  | some f => exact throw f
  | none => exact h

end Offline

namespace Feed

theorem offline_draw : Offline draw := by
  intro w
  rw [draw, Op.run_bind, Op.run_get]
  cases hdraws : w.memory.draws with
  | nil => simpa only [hdraws] using Offline.pure 0.0 w
  | cons x rest =>
    simp only [hdraws]
    exact ⟨(Accounted.refl w).quiet (f := fun m => { m with draws := rest ++ [x] }) fun _ => ⟨rfl, rfl⟩, rfl⟩

theorem offline_between (base width : Float) : Offline (between base width) :=
  offline_draw.bind fun _ => Offline.pure _

theorem offline_drawSnapshot (asset : Json) : Offline (drawSnapshot asset) := by
  refine (offline_between _ _).bind fun price => (offline_between _ _).bind fun volume => ?_
  refine (offline_between _ _).bind fun cap => (offline_between _ _).bind fun change => ?_
  cases asset with
  | str a => exact Offline.get.bind fun _ => Offline.pure _
  | _ => exact Offline.throw _

theorem offline_drawIndicators : Offline drawIndicators := by
  refine (offline_between _ _).bind fun strength => ?_
  refine offline_draw.bind fun value => offline_draw.bind fun signal => offline_draw.bind fun histogram => ?_
  refine (offline_between _ _).bind fun upper => (offline_between _ _).bind fun middle => ?_
  refine (offline_between _ _).bind fun lower => (offline_between _ _).bind fun simple20 => ?_
  exact (offline_between _ _).bind fun simple50 => (offline_between _ _).bind fun exponential12 => Offline.pure _

theorem offline_ago (seconds : ℕ) : Offline (ago seconds) := by
  refine Offline.get.bind fun m => ?_
  cases m.clock.earlier seconds with
  | some i => exact Offline.pure i
  | none => exact Offline.throw _

theorem offline_fetchSnapshot (asset : Json) : Offline (fetchSnapshot asset) := by
  refine Offline.duty _ ((Offline.note (by rfl)).bind fun _ => ?_)
  exact (offline_drawSnapshot asset).bind fun _ => Offline.pure _

theorem offline_fetchExtended (asset : Json) : Offline (fetchExtended asset) := by
  refine Offline.duty _ ((Offline.note (by rfl)).bind fun _ => ?_)
  exact offline_drawIndicators.bind fun _ => (offline_drawSnapshot asset).bind fun _ => Offline.pure _

theorem offline_fetchNews (category : Json) : Offline (fetchNews category) := by
  refine Offline.duty _ ((Offline.note (by rfl)).bind fun _ => ?_)
  cases category with
  | str c => exact (offline_ago _).bind fun _ => (offline_ago _).bind fun _ => Offline.pure _
  | _ => exact Offline.throw _

theorem offline_fetchTrending : Offline fetchTrending := by
  refine Offline.duty _ ((Offline.note (by rfl)).bind fun _ => Offline.get.bind fun m => ?_)
  exact (offline_ago _).bind fun _ => Offline.pure _

end Feed

/-! ## One read -/

/-- Two worlds whose memories differ at most in the client, the journal and the counts. -/
def World.SameAffairs (w w' : World) : Prop :=
  ∃ clients journal tally collector, w'.memory = { w.memory with clients, journal, tally, collector }

namespace World.SameAffairs
variable {w w' : World}

theorem of_sameService (h : w.SameService w') : w.SameAffairs w' := by
  obtain ⟨b, hb⟩ := h
  exact ⟨b, _, _, _, hb⟩

theorem withMemory (h : w.SameAffairs w') {f : Memory → Memory}
    (hf : ∀ m, ∃ journal tally collector, f m = { m with journal, tally, collector }) :
    w.SameAffairs (w'.withMemory f) := by
  obtain ⟨b, _, _, _, hw'⟩ := h
  obtain ⟨journal, tally, collector, hm⟩ := hf w'.memory
  refine ⟨b, journal, tally, collector, ?_⟩
  rw [World.withMemory, hm, hw']

theorem fetches (h : w.SameAffairs w') : w'.memory.fetches = w.memory.fetches := by
  obtain ⟨_, _, _, _, hw'⟩ := h
  rw [hw']

end World.SameAffairs

namespace Cache
variable {w : World}

theorem sameAffairs_get (key : String) (w : World) : w.SameAffairs ((get key).run w).2 := by
  have hfetch : w.SameAffairs ((Store.fetch key).run w).2 := .of_sameService (Store.sameService_reporting _ _ _ w)
  rw [run_get]
  rcases hrun : (Store.fetch key).run w with ⟨r, w₁⟩
  rw [hrun] at hfetch
  have hmiss := hfetch.withMemory (f := missIn key) fun m => ⟨_, _, _, rfl⟩
  have hswallowed : ∀ f, w.SameAffairs ((w₁.withMemory (swallowIn "Cache get error" [("key", .str key)] f)).withMemory
      (missIn key)) := fun f =>
    (hfetch.withMemory fun m => ⟨_, _, _, rfl⟩).withMemory fun m => ⟨_, _, _, rfl⟩
  cases r with
  | error f =>
    simp only
    split
    · exact hswallowed f
    · exact hfetch
  | ok found =>
    cases found with
    | none => exact hmiss
    | some text =>
      simp only
      cases Json.read w.memory.limits text with
      | error e => exact hswallowed _
      | ok v => exact hfetch.withMemory fun m => ⟨_, _, _, rfl⟩

theorem sameAffairs_set (key : String) (value : Payload) (seconds : Option Seconds) (w : World) :
    w.SameAffairs ((set key value seconds).run w).2 := by
  obtain ⟨clients, journal, hmemory⟩ := sameCounts_set key value seconds w
  exact ⟨clients, journal, _, _, hmemory⟩

theorem fetches_callProvider (key : String) {provider : Op Payload} (hprovider : provider.Leaves Memory.fetches)
    (w : World) : ((callProvider key provider).run w).2.memory.fetches = key :: w.memory.fetches := by
  rw [run_callProvider]
  have hfetches := hprovider (w.withMemory (fetchIn key))
  have hdelivered : ∀ (r : Except Failure Payload) (m : Memory), (deliveredIn key r m).fetches = m.fetches := by
    intro r m
    cases r with
    | ok value => rfl
    | error f =>
      rw [deliveredIn]
      cases f.isContained <;> rfl
  exact (hdelivered _ _).trans hfetches

/-- A read answered with null calls its provider once. -/
theorem fetches_getOrSet (key : String) {provider : Op Payload} (hprovider : provider.Leaves Memory.fetches)
    (seconds : Option Seconds) (hnull : ((get key).run w).1 = .ok .null) :
    ((getOrSet key provider seconds).run w).2.memory.fetches = key :: w.memory.fetches := by
  have hread := (sameAffairs_get key w).fetches
  rw [run_getOrSet]
  rcases hget : (get key).run w with ⟨r, w₁⟩
  rw [hget] at hread hnull
  simp only at hnull
  subst hnull
  simp only
  have hcalled := fetches_callProvider key hprovider w₁
  rcases hcall : (callProvider key provider).run w₁ with ⟨r, w₂⟩
  rw [hcall] at hcalled
  have hboth : w₂.memory.fetches = key :: w.memory.fetches := by rw [hcalled, hread]
  cases r with
  | error f => exact hboth
  | ok value =>
    have hwritten := (sameAffairs_set key value seconds w₂).fetches
    simp only
    rcases hset : (set key value seconds).run w₂ with ⟨r, w₃⟩
    rw [hset] at hwritten
    cases r <;> exact hwritten.trans hboth

/-- A read answered with a value calls no provider. -/
theorem fetches_getOrSet_of_hit (key : String) (provider : Op Payload) (seconds : Option Seconds) {v : Json}
    (hhit : ((get key).run w).1 = .ok v) (hv : v ≠ .null) :
    ((getOrSet key provider seconds).run w).2.memory.fetches = w.memory.fetches := by
  have hread := (sameAffairs_get key w).fetches
  rw [run_getOrSet]
  rcases hget : (get key).run w with ⟨r, w₁⟩
  rw [hget] at hread hhit
  simp only at hhit
  subst hhit
  cases v with
  | null => exact absurd rfl hv
  | _ => exact hread

/-- What the store does not hold is read as null. -/
theorem get_of_missing {key : String} (hw : w.network.Contained) (hmissing : w.server.find? key = none) :
    ((get key).run w).1 = .ok .null := by
  obtain ⟨exchanges, -, -, -, hok, -⟩ := get_outcome key hw
  have hnull : (w.server.waits (w.network.pauses w.history exchanges)).valueAt w.memory.limits key = .null := by
    rw [Server.valueAt, Server.find?_waits_eq_none hmissing]
  rw [hok, hnull, ite_self]

end Cache

/-! ## Reads from outside -/

namespace Resource

theorem offline_provider (r : Resource) : Offline r.provider := by
  cases r with
  | snapshot a => exact Feed.offline_fetchSnapshot _
  | extended a => exact Feed.offline_fetchExtended _
  | news c => exact Feed.offline_fetchNews _
  | trending => exact Feed.offline_fetchTrending

/-- Where nothing is out of order, a read of an accepted resource is one read of the cache. -/
theorem run_read {r : Resource} (hr : r.IsAccepted) {w : World} (hduties : w.memory.outages = []) :
    r.read.run w = (Cache.getOrSet r.key r.provider (some r.lifetime)).run w := by
  have haccepted : ∀ (a : String) (body : String → Op Payload), (Api.accepted (.ok a) body) = body a :=
    fun _ _ => rfl
  cases r with
  | snapshot a =>
    rw [read, Api.snapshot, Op.run_duty_of_no_outages _ _ hduties, Api.assetName_of_isName hr, haccepted,
      Market.readSnapshot, Op.run_duty_of_no_outages _ _ hduties]
    rfl
  | extended a =>
    rw [read, Api.extended, Op.run_duty_of_no_outages _ _ hduties, Api.assetName_of_isName hr, haccepted,
      Market.readExtended, Op.run_duty_of_no_outages _ _ hduties]
    rfl
  | news c =>
    rw [read, Api.news, Op.run_duty_of_no_outages _ _ hduties, Api.categoryName_of_isName hr.1 hr.2, haccepted,
      News.readCategory, Op.run_duty_of_no_outages _ _ hduties]
    rfl
  | trending =>
    rw [read, Api.trending, Op.run_duty_of_no_outages _ _ hduties, News.readTrending,
      Op.run_duty_of_no_outages _ _ hduties]
    rfl

/-- A read of an accepted resource fetches it, once, if and only if the cache answers with null. -/
theorem fetches_read_iff {r : Resource} (hr : r.IsAccepted) {w : World} (hw : w.network.Contained)
    (hduties : w.memory.outages = []) :
    (r.read.run w).2.memory.fetches = r.key :: w.memory.fetches ↔ ((Cache.get r.key).run w).1 = .ok .null := by
  rw [run_read hr hduties]
  constructor
  · intro hfetched
    obtain ⟨exchanges, -, -, -, hok, -⟩ := Cache.get_outcome r.key hw
    by_contra hnull
    have hvalue := hnull
    rw [hok, Except.ok.injEq] at hvalue
    rw [Cache.fetches_getOrSet_of_hit _ _ _ hok hvalue] at hfetched
    exact List.cons_ne_self _ _ hfetched.symm
  · exact Cache.fetches_getOrSet r.key (fun w => (r.offline_provider w).2) _

end Resource
end CacheAside
