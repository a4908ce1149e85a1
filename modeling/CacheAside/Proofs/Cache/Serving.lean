import CacheAside.Proofs.Cache.Counting
import CacheAside.Proofs.Cache.Outcome
import CacheAside.Proofs.Resource.Aside

/-! # Served or fetched

A value other than null that is found under a key is what a caller gets, and nothing else happens but the read. In all
other cases the provider is called once and timed once; what it delivers is given to the caller whatever becomes of the
write, and its failure is passed on as it is, with nothing written (`Cache.served_or_fetched`). -/

namespace CacheAside
set_option autoImplicit false

/-! ## The calls of one command -/

/-- The exchanges that giving a command takes: itself alone where there is a client, else an opening first, and nothing
more where that fails. -/
inductive Giving (c : Command) : List Exchange → Prop
  | alone (n : ℕ) (f : Option Failure) : Giving c [⟨some n, c, f⟩]
  | unopened (endpoint : Endpoint) (f : Failure) : Giving c [⟨none, .open endpoint, some f⟩]
  | opened (n : ℕ) (endpoint : Endpoint) (f : Option Failure) :
      Giving c [⟨some n, c, f⟩, ⟨none, .open endpoint, none⟩]

/-- Whether an exchange is more than a look at the server, and might change it if it does not fail. -/
def Exchange.intrudes (x : Exchange) : Bool := !x.command.isSilent

/-- At most one call that might change the server, and that one writes under this key. -/
structure WritesOnce (key : String) (exchanges : List Exchange) : Prop where
  once : exchanges.countP Exchange.intrudes ≤ 1
  under : ∀ x ∈ exchanges, x.intrudes = true →
    ∃ text, x.command = .set key text ∨ ∃ seconds, x.command = .setFor key seconds text

theorem writesOnce_nil (key : String) : WritesOnce key [] := ⟨Nat.zero_le 1, fun _ hx => (List.not_mem_nil hx).elim⟩

namespace Giving
variable {c : Command} {exchanges : List Exchange}

theorem not_intrudes (h : Giving c exchanges) (hc : c.isSilent = true) : ∀ x ∈ exchanges, x.intrudes = false := by
  have hgiven : ∀ client f, (⟨client, c, f⟩ : Exchange).intrudes = false := by
    intro client f
    rw [Exchange.intrudes, hc]
    rfl
  have hopening : ∀ endpoint f, (⟨none, .open endpoint, f⟩ : Exchange).intrudes = false := fun _ _ => rfl
  cases h <;> simp [hgiven, hopening]

theorem countP_intrudes (h : Giving c exchanges) : exchanges.countP Exchange.intrudes ≤ 1 := by
  have hopening : ∀ endpoint f, (⟨none, .open endpoint, f⟩ : Exchange).intrudes = false := fun _ _ => rfl
  cases h with
  | alone n f => exact List.countP_le_length
  | unopened endpoint f => exact List.countP_le_length
  | opened n endpoint f =>
    simp only [List.countP_cons, List.countP_nil, hopening, Bool.false_eq_true, if_false]
    split <;> decide

theorem command_of_intrudes (h : Giving c exchanges) {x : Exchange} (hx : x ∈ exchanges) (hi : x.intrudes = true) :
    x.command = c := by
  cases h with
  | alone n f =>
    rw [List.mem_singleton.1 hx]
  | unopened endpoint f =>
    rw [List.mem_singleton.1 hx] at hi
    cases hi
  | opened n endpoint f =>
    rcases List.mem_cons.1 hx with rfl | hx
    · rfl
    · rw [List.mem_singleton.1 hx] at hi
      cases hi

theorem writesOnce (h : Giving c exchanges) {key : String}
    (hc : ∃ text, c = .set key text ∨ ∃ seconds, c = .setFor key seconds text) : WritesOnce key exchanges :=
  ⟨h.countP_intrudes, fun _ hx hi => h.command_of_intrudes hx hi ▸ hc⟩

end Giving

namespace Store

theorem giving_send (c : Command) (w : World) :
    ∃ exchanges, Traced w ((send c).run w).2 exchanges ∧ Giving c exchanges := by
  rw [run_send]
  cases w.memory.clients.held with
  | some n => exact ⟨_, w.traced_answer n c, .alone n _⟩
  | none =>
    have hopening := w.traced_answer none (.open w.memory.endpoint)
    have hreply := w.answer_fst none (.open w.memory.endpoint)
    simp only
    rcases hanswer : w.answer none (.open w.memory.endpoint) with ⟨r, w₁⟩
    rw [hanswer] at hopening hreply
    cases hfailure : w.network.failure w.history (.open w.memory.endpoint) with
    | some f =>
      rw [hfailure] at hopening hreply
      obtain rfl : r = .error f := hreply
      exact ⟨_, hopening, .unopened _ f⟩
    | none =>
      rw [hfailure] at hopening hreply
      obtain rfl : r = .ok () := hreply
      exact ⟨_, (hopening.trans w₁.traced_renewed).trans (World.traced_answer _ _ c), .opened _ _ _⟩

theorem giving_reporting (operation : String) (details : List (String × Json)) (c : Command) (w : World) :
    ∃ exchanges, Traced w ((reporting operation details (send c)).run w).2 exchanges ∧ Giving c exchanges := by
  rw [run_reporting]
  exact giving_send c w

end Store

/-! ## Timing -/

/-- The family that times providers. -/
def Memory.durations (m : Memory) : Option Family := m.collector.bind (·.families.find? "provider_duration_seconds")

/-- Whether there is a collector, and one that times providers. -/
def Memory.IsTimed (m : Memory) : Prop := ∃ f rows, m.durations = some f ∧ f.series = .observations rows

/-- How often a provider was timed for the keys of a bucket. -/
def Memory.timings (m : Memory) (bucket : String) : ℕ := m.durations.elim 0 (·.count [bucket])

namespace Family

theorem count_observe {f : Family} {rows : List (List String × List Float)} (h : f.series = .observations rows)
    (values : List String) (x : Float) (values' : List String) :
    count { f with series := f.series.observe values x } values' =
      f.count values' + if values' = values then 1 else 0 := by
  simp only [count, h, Series.observe, Series.count?, Rows.find?_put]
  by_cases hvalues : values' = values
  · subst hvalues
    cases Rows.find? values' rows <;> simp
  · simp [hvalues]

end Family

namespace Cache

theorem durations_hitIn (key : String) (m : Memory) : (hitIn key m).durations = m.durations :=
  (Collector.bind_find?_change m.collector "cache_hits_total" _ _).trans (if_neg (by decide))

theorem durations_missIn (key : String) (m : Memory) : (missIn key m).durations = m.durations :=
  (Collector.bind_find?_change m.collector "cache_misses_total" _ _).trans (if_neg (by decide))

theorem deliveredIn_eq (key : String) (outcome : Except Failure Payload) (m : Memory) :
    ∃ journal fetched, deliveredIn key outcome m = { m with
      journal
      fetched
      collector := m.collector.map (·.observe "provider_duration_seconds" [m.bucket key] Memory.lapse) } := by
  cases outcome with
  | ok value => exact ⟨m.journal, _ :: m.fetched, rfl⟩
  | error f =>
    rw [deliveredIn]
    cases f.isContained with
    | true => exact ⟨_ :: m.journal, m.fetched, rfl⟩
    | false => exact ⟨m.journal, m.fetched, rfl⟩

theorem durations_deliveredIn (key : String) (outcome : Except Failure Payload) (m : Memory) :
    (deliveredIn key outcome m).durations =
      m.durations.map fun f => { f with series := f.series.observe [m.bucket key] Memory.lapse } := by
  obtain ⟨journal, fetched, hmemory⟩ := deliveredIn_eq key outcome m
  rw [hmemory]
  exact (Collector.bind_find?_change m.collector _ _ _).trans (if_pos rfl)

theorem timings_deliveredIn (key : String) (outcome : Except Failure Payload) {m : Memory} (h : m.IsTimed)
    (bucket : String) :
    (deliveredIn key outcome m).timings bucket = m.timings bucket + if bucket = m.bucket key then 1 else 0 := by
  obtain ⟨f, rows, hf, hrows⟩ := h
  rw [Memory.timings, durations_deliveredIn, Memory.timings, hf]
  refine (Family.count_observe hrows [m.bucket key] Memory.lapse [bucket]).trans ?_
  simp only [List.cons.injEq, and_true, Option.elim]

/-! ## Reading -/

/-- The value that a read of a key finds, if it does not fail and finds a text that can be read. -/
def found? (key : String) (w : World) : Option Json :=
  match ((Store.fetch key).run w).1 with
  | .ok (some text) => (Json.read w.memory.limits text).toOption
  | _ => none

/-- A read looks at the server, may write to the journal, and counts a hit if it finds a value and a miss if not. -/
theorem run_get_found {w : World} (hw : w.network.Contained) (key : String) :
    ∃ w₁ reading, Traced w w₁ reading ∧ (∀ x ∈ reading, x.intrudes = false) ∧ w.SameCounts w₁ ∧
      (get key).run w = match found? key w with
        | some v => (.ok v, w₁.withMemory (hitIn key))
        | none => (.ok .null, w₁.withMemory (missIn key)) := by
  obtain ⟨reading, htraced, hgiving⟩ : ∃ reading, Traced w ((Store.fetch key).run w).2 reading ∧
    Giving (.get key) reading := Store.giving_reporting _ _ _ w
  have hsame := (Store.sent_fetch key hw).same.sameCounts
  have hcontained := (Store.sent_fetch key hw).contained
  have hquiet := hgiving.not_intrudes rfl
  rw [run_get, found?]
  rcases hfetch : (Store.fetch key).run w with ⟨r, w₁⟩
  rw [hfetch] at htraced hsame hcontained
  cases r with
  | error f =>
    simp only [hcontained f rfl, if_true]
    exact ⟨_, reading, htraced.withMemory _, hquiet, hsame.noted _, rfl⟩
  | ok found =>
    cases found with
    | none => exact ⟨w₁, reading, htraced, hquiet, hsame, rfl⟩
    | some text =>
      simp only
      cases Json.read w.memory.limits text with
      | ok v => exact ⟨w₁, reading, htraced, hquiet, hsame, rfl⟩
      | error e => exact ⟨_, reading, htraced.withMemory _, hquiet, hsame.noted _, rfl⟩

/-! ## Writing -/

theorem write_once (key text : String) (left : Option Seconds) (w : World) :
    ∃ writing, Traced w ((write key text left).run w).2 writing ∧ WritesOnce key writing := by
  cases left with
  | none =>
    obtain ⟨writing, htraced, hgiving⟩ : ∃ writing, Traced w ((Store.write key text).run w).2 writing ∧
      Giving (.set key text) writing := Store.giving_reporting _ _ _ w
    exact ⟨writing, htraced, hgiving.writesOnce ⟨text, .inl rfl⟩⟩
  | some s =>
    obtain ⟨writing, htraced, hgiving⟩ : ∃ writing, Traced w ((Store.writeFor key text s).run w).2 writing ∧
      Giving (.setFor key s text) writing := Store.giving_reporting _ _ _ w
    exact ⟨writing, htraced, hgiving.writesOnce ⟨text, .inr ⟨s, rfl⟩⟩⟩

theorem set_once (key : String) (value : Payload) (seconds : Option Seconds) (w : World) :
    ∃ writing, Traced w ((set key value seconds).run w).2 writing ∧ WritesOnce key writing := by
  rw [run_set]
  cases order w.memory key value seconds with
  | error f =>
    simp only
    split
    · exact ⟨[], Traced.of_memory w _, writesOnce_nil key⟩
    · exact ⟨[], Traced.refl w, writesOnce_nil key⟩
  | ok sent =>
    obtain ⟨text, left⟩ := sent
    obtain ⟨writing, htraced, honce⟩ := write_once key text left w
    simp only
    rcases hwrite : (write key text left).run w with ⟨r, w₁⟩
    rw [hwrite] at htraced
    cases r with
    | ok u => exact ⟨writing, htraced.withMemory _, honce⟩
    | error f =>
      simp only
      split
      · exact ⟨writing, htraced.withMemory _, honce⟩
      · exact ⟨writing, htraced, honce⟩

/-! ## Both -/

/-- Leaves the buckets of keys alone, and a collector that times providers able to do so. -/
structure KeepsTiming (provider : Op Payload) : Prop where
  buckets : provider.Leaves Memory.tallyRegistry
  timed : ∀ w : World, w.memory.IsTimed → (provider.run w).2.memory.IsTimed

/-- A look at the store, which leaves it to time; these providers were called for meanwhile, and none was timed. -/
structure Consulted (w w₁ : World) (reading : List Exchange) (called : List String) : Prop where
  traced : Traced w w₁ reading
  looks : ∀ x ∈ reading, x.intrudes = false
  server : w₁.server = w.server.waits (w.network.pauses w.history reading)
  fetches : w₁.memory.fetches = called ++ w.memory.fetches
  durations : w₁.memory.durations = w.memory.durations

theorem Consulted.timings {w w₁ : World} {reading : List Exchange} {called : List String}
    (h : Consulted w w₁ reading called) (bucket : String) : w₁.memory.timings bucket = w.memory.timings bucket := by
  rw [Memory.timings, h.durations]
  rfl

/-- What follows on the call of a provider: it is timed once in the bucket of its key, no other provider is called, and
what it delivered is written once at most, but a failure not at all. -/
structure HandedOn (key bucket : String) (outcome : Except Failure Payload) (w₂ w' : World) (writing : List Exchange) :
    Prop where
  traced : Traced w₂ w' writing
  fetches : w'.memory.fetches = w₂.memory.fetches
  timings : ∀ b, w'.memory.timings b = w₂.memory.timings b + if b = bucket then 1 else 0
  written : WritesOnce key writing
  unwritten : ∀ f, outcome = .error f → writing = []

/-- A read answers with the value that it finds, and with null if there is none. -/
theorem get_consulted {w : World} (hw : w.network.Contained) (key : String) :
    ∃ w₁ reading, (get key).run w = (.ok ((found? key w).getD .null), w₁) ∧ Consulted w w₁ reading [] ∧
      w₁.memory.tallyRegistry = w.memory.tallyRegistry := by
  obtain ⟨w₁, reading, htraced, hlooks, ⟨clients, journal, hmemory⟩, hrun⟩ := run_get_found hw key
  have hserver := htraced.server_of_silent fun x hx => by
    have hlook := hlooks x hx
    rw [Exchange.intrudes, Bool.not_eq_false'] at hlook
    rw [Exchange.isSilent, hlook, Bool.or_true]
  have hcounted : ∀ count : Memory → Memory, (∀ m, (count m).durations = m.durations) →
      (∀ m, (count m).fetches = m.fetches) → Consulted w (w₁.withMemory count) reading [] := by
    intro count hdurations hfetches
    refine ⟨htraced.withMemory _, hlooks, hserver, (hfetches _).trans ?_, (hdurations _).trans ?_⟩
    · rw [hmemory]
      rfl
    · rw [hmemory]
      rfl
  have hregistry : w₁.memory.tallyRegistry = w.memory.tallyRegistry := by rw [hmemory]
  rw [hrun]
  cases found? key w with
  | none => exact ⟨_, reading, rfl, hcounted _ (durations_missIn key) fun _ => rfl, hregistry⟩
  | some v => exact ⟨_, reading, rfl, hcounted _ (durations_hitIn key) fun _ => rfl, hregistry⟩

theorem callProvider_handedOn (key : String) {provider : Op Payload} (hprovider : KeepsTiming provider) {w : World}
    (htimed : w.memory.IsTimed) :
    let called := provider.run (w.withMemory (fetchIn key))
    ∃ w', (callProvider key provider).run w = (called.1, w') ∧
      HandedOn key (w.memory.bucket key) called.1 called.2 w' [] := by
  intro called
  have hbucket : called.2.memory.bucket key = w.memory.bucket key :=
    congrArg (Registry.bucket · key) (hprovider.buckets (w.withMemory (fetchIn key)))
  have htimed' : called.2.memory.IsTimed := hprovider.timed (w.withMemory (fetchIn key)) htimed
  refine ⟨_, run_callProvider key provider w, Traced.of_memory called.2 _, ?_, fun b => ?_, writesOnce_nil key,
    fun _ _ => rfl⟩
  · obtain ⟨journal, fetched, hmemory⟩ := deliveredIn_eq key called.1 called.2.memory
    change (deliveredIn key called.1 called.2.memory).fetches = called.2.memory.fetches
    rw [hmemory]
  · rw [← hbucket]
    exact timings_deliveredIn key called.1 htimed' b

/-- A write after the call of a provider that delivered. -/
theorem HandedOn.set {key bucket : String} {value : Payload} {w w₁ : World}
    (h : HandedOn key bucket (.ok value) w w₁ []) (seconds : Option Seconds) :
    ∃ writing, HandedOn key bucket (.ok value) w ((set key value seconds).run w₁).2 writing := by
  obtain ⟨writing, htraced, honce⟩ := set_once key value seconds w₁
  obtain ⟨clients, journal, hmemory⟩ := sameCounts_set key value seconds w₁
  refine ⟨writing, by simpa using h.traced.trans htraced, ?_, fun b => ?_, honce, fun f hf => by cases hf⟩
  · rw [hmemory]
    exact h.fetches
  · rw [← h.timings b, hmemory]
    rfl

/-- A read answered with null goes on with its provider. -/
theorem getOrSet_of_null {key : String} {w w₁ : World} (hget : (get key).run w = (.ok .null, w₁))
    (hw : w₁.network.Contained) (htimed : w₁.memory.IsTimed) {provider : Op Payload}
    (hprovider : KeepsTiming provider) (seconds : Option Seconds) :
    let called := provider.run (w₁.withMemory (fetchIn key))
    ∃ w' writing, (getOrSet key provider seconds).run w = (called.1, w') ∧
      HandedOn key (w₁.memory.bucket key) called.1 called.2 w' writing := by
  intro called
  obtain ⟨w₂, hcall, hhanded⟩ := callProvider_handedOn key hprovider htimed
  obtain ⟨foreign, hforeign⟩ := Op.traced_run provider (w₁.withMemory (fetchIn key))
  have hcontained := hhanded.traced.contained (hforeign.contained hw)
  change (callProvider key provider).run w₁ = (called.1, w₂) at hcall
  change HandedOn key (w₁.memory.bucket key) called.1 called.2 w₂ [] at hhanded
  rw [run_getOrSet, hget]
  simp only [hcall]
  cases hdelivered : called.1 with
  | error f => exact ⟨w₂, [], rfl, hdelivered ▸ hhanded⟩
  | ok value =>
    rw [hdelivered] at hhanded
    obtain ⟨-, -, -, hok, -⟩ := set_outcome key value seconds hcontained
    obtain ⟨writing, hwritten⟩ := hhanded.set seconds
    simp only
    rcases hset : (Cache.set key value seconds).run w₂ with ⟨r, w'⟩
    rw [hset] at hok hwritten
    obtain rfl : r = .ok () := hok
    exact ⟨w', writing, rfl, hwritten⟩

/-- On any network whose failures can be contained, a value other than null that is found under a key is the answer,
whoever the provider is, and only the read happens. Otherwise the provider is called once and timed once. What it
delivers is the answer whatever becomes of writing it; a failure, a cancellation too, is passed on as it is and nothing
is written. -/
theorem served_or_fetched {w : World} (hw : w.network.Contained) (htimed : w.memory.IsTimed) (key : String) :
    (∀ v, found? key w = some v → v ≠ .null → ∃ w' reading, Consulted w w' reading [] ∧
      ∀ provider seconds, (getOrSet key provider seconds).run w = (.ok (.json v), w')) ∧
    ((∀ v, found? key w = some v → v = .null) → ∃ w₁ reading, Consulted w w₁ reading [key] ∧
      ∀ provider seconds, KeepsTiming provider → ∃ w' writing,
        (getOrSet key provider seconds).run w = ((provider.run w₁).1, w') ∧
        HandedOn key (w.memory.bucket key) (provider.run w₁).1 (provider.run w₁).2 w' writing) := by
  obtain ⟨w₁, reading, hget, hconsulted, hregistry⟩ := get_consulted hw key
  refine ⟨fun v hfound hv => ?_, fun hnull => ?_⟩
  · refine ⟨w₁, reading, hconsulted, fun provider seconds => ?_⟩
    rw [run_getOrSet, hget, hfound]
    cases v with
    | null => exact absurd rfl hv
    | _ => rfl
  · have hcalled : Consulted w (w₁.withMemory (fetchIn key)) reading [key] :=
      ⟨hconsulted.traced.withMemory _, hconsulted.looks, hconsulted.server, congrArg (key :: ·) hconsulted.fetches,
        hconsulted.durations⟩
    have hvalue : (found? key w).getD .null = .null := by
      cases hfound : found? key w with
      | none => rfl
      | some v => exact hnull v hfound
    rw [hvalue] at hget
    have htimed₁ : w₁.memory.IsTimed := by
      rw [Memory.IsTimed, hconsulted.durations]
      exact htimed
    refine ⟨_, reading, hcalled, fun provider seconds hprovider => ?_⟩
    obtain ⟨w', writing, hrun, hhanded⟩ :=
      getOrSet_of_null hget (hconsulted.traced.contained hw) htimed₁ hprovider seconds
    rw [Memory.bucket, hregistry] at hhanded
    exact ⟨w', writing, hrun, hhanded⟩

/-- A service with a collector that has done nothing yet, with these entries in its store. -/
def monitored (entries : List (String × Entry)) : World :=
  (World.fresh entries).withMemory fun m => { m with collector := some (Collector.start "cache") }

/-- A zero is a value like others; for a null the provider is called, and its cancellation is passed on and timed. -/
theorem served_or_fetched_cancelled :
    let w := monitored [("zero", ⟨"0", none⟩), ("null", ⟨"null", none⟩)]
    (∃ w', (getOrSet "zero" (throw (.cancelled "")) none).run w = (.ok (.json (.int 0)), w') ∧
      w'.memory.fetches = []) ∧
    ∃ w', (getOrSet "null" (throw (.cancelled "")) none).run w = (.error (.cancelled ""), w') ∧
      w'.memory.fetches = ["null"] ∧ w'.memory.timings "null" = 0 + 1 ∧
      w'.server.find? "null" = some ⟨"null", none⟩ := by
  intro w
  have htimed : w.memory.IsTimed := ⟨_, [], rfl, rfl⟩
  have hcontained := World.contained_fresh [("zero", ⟨"0", none⟩), ("null", ⟨"null", none⟩)]
  constructor
  · obtain ⟨w', reading, hconsulted, hrun⟩ :=
      (served_or_fetched (w := w) hcontained htimed "zero").1 (.int 0) rfl (by simp)
    exact ⟨w', hrun _ _, hconsulted.fetches⟩
  · have hnull : ∀ v, found? "null" w = some v → v = .null := by
      rintro v ⟨⟩
      rfl
    obtain ⟨w₁, reading, hconsulted, hcall⟩ := (served_or_fetched (w := w) hcontained htimed "null").2 hnull
    obtain ⟨w', writing, hrun, hhanded⟩ := hcall (throw (.cancelled "")) none ⟨Op.Leaves.throw _, fun _ h => h⟩
    refine ⟨w', hrun, hhanded.fetches.trans hconsulted.fetches, ?_, ?_⟩
    · exact (hhanded.timings "null").trans (congrArg (· + 1) (hconsulted.timings "null"))
    · have hserver := hhanded.traced.server
      rw [hhanded.unwritten _ rfl] at hserver
      change w'.server = w₁.server at hserver
      rw [hserver, hconsulted.server]
      exact Server.find?_waits_endless rfl _

end Cache
end CacheAside
