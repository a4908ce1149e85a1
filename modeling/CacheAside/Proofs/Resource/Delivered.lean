import CacheAside.Proofs.Resource.Shown
import CacheAside.Proofs.Resource.Upstream

/-! # Reads that are always answered

Where nothing is out of order and the calendar reaches back to the articles, the feed delivers a value of every
resource (`delivers_provider`). So a read of an accepted resource is answered whatever becomes of the calls to the
store: with what the cache has, or with a value of the resource where it has nothing (`read_answered`). -/

namespace CacheAside
set_option autoImplicit false

/-! ## Operations that end in a value -/

/-- Nothing is out of order, and the instants of all articles have dates. -/
structure Memory.IsReady (m : Memory) : Prop where
  outages : m.outages = []
  calendar : ∀ seconds ∈ [1800, 3600, 7200], (m.clock.earlier seconds).isSome = true

theorem World.SameAffairs.isReady {w w' : World} (h : w.SameAffairs w') (hw : w.memory.IsReady) :
    w'.memory.IsReady := by
  obtain ⟨_, _, _, _, hw'⟩ := h
  rw [hw']
  exact ⟨hw.outages, hw.calendar⟩

/-- Ends in one of these values, where the memory is ready and stays so. -/
def Op.Delivers {α : Type} (Q : α → Prop) (op : Op α) : Prop :=
  ∀ w : World, w.memory.IsReady → ∃ a w', op.run w = (.ok a, w') ∧ w'.memory.IsReady ∧ Q a

namespace Op.Delivers
variable {α β : Type} {Q : α → Prop} {R : β → Prop}

theorem pure {a : α} (h : Q a) : Delivers Q (Pure.pure a : Op α) := fun w hw => ⟨a, w, rfl, hw, h⟩

theorem bind {op : Op α} {f : α → Op β} (h : op.Delivers Q) (hf : ∀ a, Q a → (f a).Delivers R) :
    (op >>= f).Delivers R := by
  intro w hw
  obtain ⟨a, w₁, hrun, hw₁, ha⟩ := h w hw
  obtain ⟨b, w₂, hrun₂, hw₂, hb⟩ := hf a ha w₁ hw₁
  refine ⟨b, w₂, ?_, hw₂, hb⟩
  rw [Op.run_bind, hrun]
  exact hrun₂

theorem get : Delivers Memory.IsReady (MonadState.get : Op Memory) := fun w hw => ⟨w.memory, w, rfl, hw, hw⟩

theorem set {m : Memory} (hm : m.IsReady) : Delivers (fun _ => True) (MonadState.set m : Op Unit) :=
  fun w _ => ⟨(), { w with memory := m }, rfl, hm, trivial⟩

theorem note (n : Note) : Delivers (fun _ => True) (Op.note n) :=
  fun w hw => ⟨(), w.withMemory (Memory.noted n), rfl, ⟨hw.outages, hw.calendar⟩, trivial⟩

theorem duty (d : Duty) {body : Op α} (h : body.Delivers Q) : (Op.duty d body).Delivers Q := by
  intro w hw
  rw [Op.run_duty_of_no_outages d body hw.outages]
  exact h w hw

end Op.Delivers

/-! ## The feed -/

namespace Feed

theorem delivers_draw : draw.Delivers fun _ => True := by
  refine Op.Delivers.get.bind fun m hm => ?_
  cases m.draws with
  | nil => exact Op.Delivers.pure trivial
  | cons x rest =>
    have hdrawn : ({ m with draws := rest ++ [x] } : Memory).IsReady := ⟨hm.outages, hm.calendar⟩
    exact (Op.Delivers.set hdrawn).bind fun _ _ => Op.Delivers.pure trivial

theorem delivers_between (base width : Float) : (between base width).Delivers fun _ => True := by
  refine delivers_draw.bind fun x _ => ?_
  exact Op.Delivers.pure trivial

theorem delivers_drawSnapshot (a : String) : (drawSnapshot (.str a)).Delivers fun s => s.asset = a := by
  refine (delivers_between _ _).bind fun price _ => (delivers_between _ _).bind fun volume _ => ?_
  refine (delivers_between _ _).bind fun cap _ => (delivers_between _ _).bind fun change _ => ?_
  exact Op.Delivers.get.bind fun m _ => Op.Delivers.pure rfl

theorem delivers_drawIndicators : drawIndicators.Delivers fun _ => True := by
  refine (delivers_between _ _).bind fun strength _ => delivers_draw.bind fun value _ => ?_
  refine delivers_draw.bind fun signal _ => delivers_draw.bind fun histogram _ => ?_
  refine (delivers_between _ _).bind fun upper _ => (delivers_between _ _).bind fun middle _ => ?_
  refine (delivers_between _ _).bind fun lower _ => (delivers_between _ _).bind fun simple20 _ => ?_
  refine (delivers_between _ _).bind fun simple50 _ => (delivers_between _ _).bind fun exponential12 _ => ?_
  exact Op.Delivers.pure trivial

theorem delivers_ago {seconds : ℕ} (h : seconds ∈ [1800, 3600, 7200]) : (ago seconds).Delivers fun _ => True := by
  refine Op.Delivers.get.bind fun m hm => ?_
  obtain ⟨i, hi⟩ := Option.isSome_iff_exists.1 (hm.calendar seconds h)
  rw [hi]
  exact Op.Delivers.pure trivial

end Feed

namespace Resource

theorem delivers_provider (r : Resource) : r.provider.Delivers r.Gives := by
  cases r with
  | snapshot a =>
    refine Op.Delivers.duty _ ((Op.Delivers.note _).bind fun _ _ => ?_)
    exact (Feed.delivers_drawSnapshot a).bind fun s hs => Op.Delivers.pure ⟨_, rfl, s, hs, rfl⟩
  | extended a =>
    refine Op.Delivers.duty _ ((Op.Delivers.note _).bind fun _ _ => Feed.delivers_drawIndicators.bind fun i _ => ?_)
    exact (Feed.delivers_drawSnapshot a).bind fun s hs => Op.Delivers.pure ⟨_, rfl, s, i, hs, rfl⟩
  | news c =>
    refine Op.Delivers.duty _ ((Op.Delivers.note _).bind fun _ _ => ?_)
    refine (Feed.delivers_ago (by decide)).bind fun hourAgo _ => ?_
    exact (Feed.delivers_ago (by decide)).bind fun twoHoursAgo _ => Op.Delivers.pure ⟨_, rfl, hourAgo, twoHoursAgo, rfl⟩
  | trending =>
    refine Op.Delivers.duty _ ((Op.Delivers.note _).bind fun _ _ => Op.Delivers.get.bind fun m _ => ?_)
    exact (Feed.delivers_ago (by decide)).bind fun halfHourAgo _ => Op.Delivers.pure ⟨_, rfl, m.clock, halfHourAgo, rfl⟩

end Resource

/-! ## Reads -/

theorem Server.exists_of_valueAt {s : Server} {limits : Json.Limits} {key : String} {v : Json}
    (h : s.valueAt limits key = v) (hne : v ≠ .null) :
    ∃ e, s.find? key = some e ∧ Json.read limits e.text = .ok v := by
  rw [valueAt] at h
  cases hfind : s.find? key with
  | none =>
    rw [hfind] at h
    exact absurd h.symm hne
  | some e =>
    rw [hfind] at h
    cases hread : Json.read limits e.text with
    | error err =>
      simp only [hread] at h
      exact absurd h.symm hne
    | ok v' =>
      simp only [hread] at h
      exact ⟨e, rfl, by rw [hread, h]⟩

/-- What a read finds stood in the store before. -/
theorem Cache.exists_of_get {w : World} {key : String} {found : Json} (hw : w.network.Contained)
    (hfound : ((get key).run w).1 = .ok found) (hne : found ≠ .null) :
    ∃ e, w.server.find? key = some e ∧ Json.read w.memory.limits e.text = .ok found := by
  obtain ⟨exchanges, -, -, -, hok, -⟩ := get_outcome key hw
  rw [hfound, Except.ok.injEq] at hok
  split at hok
  · obtain ⟨late, hlate, hread⟩ := Server.exists_of_valueAt hok.symm hne
    rw [Server.find?_waits] at hlate
    cases hfind : w.server.find? key with
    | none =>
      rw [hfind, Entry.aged_none] at hlate
      cases hlate
    | some e =>
      rw [hfind] at hlate
      exact ⟨e, rfl, by rw [← Entry.text_aged hlate, hread]⟩
  · exact absurd hok hne

/-! ## What a read depends on -/

theorem World.answer_withMemory (w : World) (f : Memory → Memory) (client : Option ℕ) (c : Command) :
    (w.withMemory f).answer client c = ((w.answer client c).1, (w.answer client c).2.withMemory f) := by
  have harrival : (w.withMemory f).onArrival c = w.onArrival c := rfl
  have hfailure : (w.withMemory f).network.failure (w.withMemory f).history c = w.network.failure w.history c := rfl
  rw [answer, answer, harrival, hfailure]
  cases w.network.failure w.history c <;> rfl

/-- Giving a command comes to the same whatever else is in memory. -/
theorem Store.fst_send_withMemory {w : World} {f : Memory → Memory}
    (hclients : (f w.memory).clients = w.memory.clients) (hendpoint : (f w.memory).endpoint = w.memory.endpoint)
    (c : Command) : ((send c).run (w.withMemory f)).1 = ((send c).run w).1 := by
  have hmemory : (w.withMemory f).memory = f w.memory := rfl
  rw [run_send, run_send, hmemory, hclients, hendpoint]
  cases w.memory.clients.held with
  | some n =>
    simp only
    rw [World.answer_withMemory]
  | none =>
    simp only
    rw [World.answer_withMemory]
    rcases w.answer none (.open w.memory.endpoint) with ⟨r, w₁⟩
    cases r with
    | error e => rfl
    | ok u => exact (World.answer_fst _ _ c).trans (World.answer_fst w₁.renewed _ c).symm

theorem Cache.fst_get_withMemory {w : World} {f : Memory → Memory}
    (hclients : (f w.memory).clients = w.memory.clients) (hendpoint : (f w.memory).endpoint = w.memory.endpoint)
    (hlimits : (f w.memory).limits = w.memory.limits) (key : String) :
    ((get key).run (w.withMemory f)).1 = ((get key).run w).1 := by
  have hfetch : ((Store.fetch key).run (w.withMemory f)).1 = ((Store.fetch key).run w).1 := by
    rw [Store.fetch, Store.run_reporting, Store.run_reporting]
    simp only [Store.fst_send_withMemory hclients hendpoint]
  rw [run_get, run_get, show (w.withMemory f).memory.limits = w.memory.limits from hlimits]
  rcases hrun : (Store.fetch key).run (w.withMemory f) with ⟨r, w₁⟩
  rcases hrun' : (Store.fetch key).run w with ⟨r', w₂⟩
  rw [hrun, hrun'] at hfetch
  obtain rfl : r = r' := hfetch
  cases r with
  | error e =>
    simp only
    split <;> rfl
  | ok found =>
    cases found with
    | none => rfl
    | some text =>
      simp only
      cases Json.read w.memory.limits text <;> rfl

/-- Where calls to the store fail or find nothing that can be read, a read is answered from the feed, and otherwise
from the store. -/
theorem Resource.read_answered {r : Resource} (hr : r.IsAccepted) {w : World} (hw : w.network.Contained)
    (hready : w.memory.IsReady) :
    ∃ found v w', ((Cache.get r.key).run w).1 = .ok found ∧ r.read.run w = (.ok (.json v), w') ∧
      (found = .null → r.Shows v) ∧ (found ≠ .null → v = found) := by
  rw [run_read hr hready.outages, Cache.run_getOrSet]
  obtain ⟨exchanges, hsettled, -, -, hok, -⟩ := Cache.get_outcome r.key hw
  have hsame := Cache.sameAffairs_get r.key w
  have hnetwork := hsettled.traced.contained hw
  rcases hget : (Cache.get r.key).run w with ⟨outcome, w₁⟩
  rw [hget] at hok hsame hnetwork
  obtain ⟨found, rfl⟩ : ∃ found, outcome = .ok found := ⟨_, hok⟩
  by_cases hnull : found = .null
  · subst hnull
    -- a miss: the feed delivers, and what becomes of the write does not matter
    have hfetching : (w₁.withMemory (Cache.fetchIn r.key)).memory.IsReady :=
      ⟨(hsame.isReady hready).outages, (hsame.isReady hready).calendar⟩
    obtain ⟨_, w₂, hrun, -, v, rfl, hshows⟩ := r.delivers_provider _ hfetching
    have hcall : (Cache.callProvider r.key r.provider).run w₁ =
        (.ok (.json v), w₂.withMemory (Cache.deliveredIn r.key (.ok (.json v)))) := by
      rw [Cache.run_callProvider]
      simp only [hrun]
    have hcalled := (Cache.callProvider_outcome r.key r.offline_provider.detached w₁).2
    rw [hcall] at hcalled
    obtain ⟨-, -, -, hset, -⟩ := Cache.set_outcome r.key (.json v) (some r.lifetime) (hcalled.traced.contained hnetwork)
    rcases hwrite : (Cache.set r.key (.json v) (some r.lifetime)).run
      (w₂.withMemory (Cache.deliveredIn r.key (.ok (.json v)))) with ⟨written, w₃⟩
    rw [hwrite] at hset
    obtain rfl : written = .ok () := hset
    refine ⟨.null, v, w₃, rfl, ?_, fun _ => hshows, fun h => absurd rfl h⟩
    simp only [hcall, hwrite]
  · refine ⟨found, found, w₁, rfl, ?_, fun h => absurd h hnull, fun _ => rfl⟩
    cases found with
    | null => exact absurd rfl hnull
    | _ => rfl

end CacheAside
