import CacheAside.Cache
import CacheAside.Proofs.Store.Sending

/-! # What the operations of the cache do

One equation for each operation: its outcome and the world after it, from the outcome of the calls to the
store that it makes. They hold on every network, and nothing below them looks into an operation again. -/

namespace CacheAside
set_option autoImplicit false

def World.withMemory (w : World) (f : Memory → Memory) : World := { w with memory := f w.memory }

theorem Traced.withMemory {w w' : World} {exchanges : List Exchange} (h : Traced w w' exchanges)
    (f : Memory → Memory) : Traced w (w'.withMemory f) exchanges :=
  h.trans (Traced.of_memory w' (f w'.memory))

def Memory.noted (n : Note) (m : Memory) : Memory := { m with journal := n :: m.journal }

theorem Op.run_discard {α : Type} (op : Op α) (w : World) :
    (discard op).run w = match op.run w with
      | (.ok _, w) => (.ok (), w)
      | (.error f, w) => (.error f, w) := by
  change ((fun _ => ()) <$> op).run w = _
  rw [← bind_pure_comp, run_bind]
  rcases op.run w with ⟨r, w'⟩
  cases r <;> rfl

theorem Op.run_duty_of_no_outages {α : Type} (d : Duty) (body : Op α) {w : World} (h : w.memory.outages = []) :
    (Op.duty d body).run w = body.run w := by
  have hnone : w.memory.outage? d = none := by
    rw [Memory.outage?, h]
    rfl
  rw [run_duty, hnone]

/-- Operations started at once that all end in a value. -/
theorem Op.run_gather_cons {α : Type} {op : Op α} {ops : List (Op α)} {w w₁ w₂ : World} {a : α} {as : List α}
    (hfirst : op.run w = (.ok a, w₁)) (hothers : (Op.gather [] ops).run w₁ = (.ok as, w₂)) :
    (Op.gather [] (op :: ops)).run w = (.ok (a :: as), w₂) := by
  rw [Op.gather_cons, Op.run_bind, Op.run_outcome, hfirst]
  simp only
  rw [Op.run_bind, Op.run_outcome, hothers]
  rfl

/-- Two worlds whose memories differ at most in the client and the journal. -/
def World.SameCounts (w w' : World) : Prop := ∃ clients journal, w'.memory = { w.memory with clients, journal }

theorem World.SameService.sameCounts {w w' : World} (h : w.SameService w') : w.SameCounts w' := by
  obtain ⟨clients, hmemory⟩ := h
  exact ⟨clients, w.memory.journal, hmemory⟩

theorem World.SameCounts.limits {w w' : World} (h : w.SameCounts w') : w'.memory.limits = w.memory.limits := by
  obtain ⟨clients, journal, hmemory⟩ := h
  rw [hmemory]

theorem World.SameCounts.noted {w w' : World} (h : w.SameCounts w') (n : Note) :
    w.SameCounts (w'.withMemory (.noted n)) := by
  obtain ⟨clients, journal, hmemory⟩ := h
  refine ⟨clients, n :: journal, ?_⟩
  rw [withMemory, hmemory]
  rfl

namespace Cache

/-! ## Memory -/

def hitIn (key : String) (m : Memory) : Memory :=
  { m with
    tally := m.tally.hit (m.bucket key)
    collector := m.collector.map (·.bump "cache_hits_total" [m.bucket key]) }

def missIn (key : String) (m : Memory) : Memory :=
  { m with
    tally := m.tally.miss (m.bucket key)
    collector := m.collector.map (·.bump "cache_misses_total" [m.bucket key]) }

def swallowIn (event : String) (fields : List (String × Json)) (f : Failure) (m : Memory) : Memory :=
  m.noted ⟨logger, .error, event, fields, some f⟩

def debugIn (event : String) (fields : List (String × Json)) (m : Memory) : Memory :=
  m.noted ⟨logger, .debug, event, fields, none⟩

/-! ## Reading -/

/-- A read of the store leaves the limits that its text is then read within. -/
theorem limits_fetch (key : String) (w : World) :
    ((Store.fetch key).run w).2.memory.limits = w.memory.limits := by
  obtain ⟨clients, hmemory⟩ := Store.sameService_reporting "get" [("key", .str key)] (.get key) w
  rw [Store.fetch, hmemory]

theorem run_get (key : String) (w : World) :
    (get key).run w = match (Store.fetch key).run w with
      | (.ok none, w₁) => (.ok .null, w₁.withMemory (missIn key))
      | (.ok (some text), w₁) =>
        match Json.read w.memory.limits text with
        | .ok v => (.ok v, w₁.withMemory (hitIn key))
        | .error e =>
          (.ok .null, (w₁.withMemory (swallowIn "Cache get error" [("key", .str key)] (.unreadable e))).withMemory
            (missIn key))
      | (.error f, w₁) =>
        if f.isContained then
          (.ok .null, (w₁.withMemory (swallowIn "Cache get error" [("key", .str key)] f)).withMemory (missIn key))
        else (.error f, w₁) := by
  have hlimits := limits_fetch key w
  rw [get, Op.run_contain, Op.run_bind]
  rcases hfetch : (Store.fetch key).run w with ⟨r, w₁⟩
  rw [hfetch] at hlimits
  rw [← show w₁.memory.limits = w.memory.limits from hlimits]
  cases r with
  | error f => rfl
  | ok found =>
    cases found with
    | none => rfl
    | some text =>
      simp only [Op.run_bind, Op.run_get]
      cases Json.read w₁.memory.limits text <;> rfl

/-! ## Writing -/

/-- The seconds that a value is written for, if they can be told. -/
def secondsFor (m : Memory) (key : String) : Option Seconds → Except Failure Seconds
  | some s => .ok s
  | none =>
    match m.misfiled.bind (·.lookupFault? (.str key)) with
    | some f => .error f
    | none => .ok (m.registry.lifetime m.otherwise key)

/-- What a write sends to the store, the text and the seconds if it ends, or why it sends nothing. -/
def order (m : Memory) (key : String) (value : Payload) (seconds : Option Seconds) :
    Except Failure (String × Option Seconds) :=
  match secondsFor m key seconds with
  | .error f => .error f
  | .ok s =>
    match value.text m.limits with
    | .error e => .error (.unwritable e)
    | .ok text =>
      match s.isPositive? with
      | none => .error .uncountable
      | some true => .ok (text, some s)
      | some false => .ok (text, none)

def write (key text : String) : Option Seconds → Op Unit
  | none => Store.write key text
  | some s => Store.writeFor key text s

def writtenIn (key : String) : Option Seconds → Memory → Memory
  | none => debugIn "Cached key without expiration" [("key", .str key)]
  | some s => debugIn "Cached key" [("key", .str key), ("ttl", s.json)]

theorem run_lifetime (key : String) (w : World) : (lifetime key).run w = (secondsFor w.memory key none, w) := by
  rw [lifetime, Op.run_bind, Op.run_get, secondsFor]
  simp only
  cases w.memory.misfiled.bind (·.lookupFault? (.str key)) <;> rfl

/-- What is left to do of a write once its seconds are told. -/
def place (key : String) (value : Payload) (s : Seconds) : Op Unit := do
  match value.text (← MonadState.get).limits with
  | .error e => throw (.unwritable e)
  | .ok text =>
    match s.isPositive? with
    | none => throw .uncountable
    | some true => do
      Store.writeFor key text s
      debug "Cached key" [("key", .str key), ("ttl", s.json)]
    | some false => do
      Store.write key text
      debug "Cached key without expiration" [("key", .str key)]

theorem set_eq (key : String) (value : Payload) (seconds : Option Seconds) :
    set key value seconds =
      Op.contain ((match seconds with | some s => pure s | none => lifetime key) >>= place key value)
        fun f => swallow "Cache set error" [("key", .str key)] f := by
  cases seconds <;> rfl

theorem run_set (key : String) (value : Payload) (seconds : Option Seconds) (w : World) :
    (set key value seconds).run w = match order w.memory key value seconds with
      | .error f =>
        if f.isContained then (.ok (), w.withMemory (swallowIn "Cache set error" [("key", .str key)] f))
        else (.error f, w)
      | .ok (text, left) =>
        match (write key text left).run w with
        | (.ok _, w) => (.ok (), w.withMemory (writtenIn key left))
        | (.error f, w) =>
          if f.isContained then (.ok (), w.withMemory (swallowIn "Cache set error" [("key", .str key)] f))
          else (.error f, w) := by
  have hseconds : (match seconds with
      | some s => pure s
      | none => lifetime key : Op Seconds).run w = (secondsFor w.memory key seconds, w) := by
    cases seconds with
    | some s => rfl
    | none => exact run_lifetime key w
  rw [set_eq, Op.run_contain, Op.run_bind, hseconds, order]
  cases secondsFor w.memory key seconds with
  | error f => rfl
  | ok s =>
    simp only [place, Op.run_bind, Op.run_get]
    cases value.text w.memory.limits with
    | error e => rfl
    | ok text =>
      simp only
      cases s.isPositive? with
      | none => rfl
      | some b =>
        cases b with
        | true =>
          simp only [write, Op.run_bind]
          rcases (Store.writeFor key text s).run w with ⟨r, w'⟩
          cases r <;> rfl
        | false =>
          simp only [write, Op.run_bind]
          rcases (Store.write key text).run w with ⟨r, w'⟩
          cases r <;> rfl

theorem sameCounts_write (key text : String) (left : Option Seconds) (w : World) :
    w.SameCounts ((write key text left).run w).2 := by
  cases left with
  | none => exact (Store.sameService_reporting _ _ _ w).sameCounts
  | some s => exact (Store.sameService_reporting _ _ _ w).sameCounts

/-- A write of a value changes nothing in memory but the client and the journal. -/
theorem sameCounts_set (key : String) (value : Payload) (seconds : Option Seconds) (w : World) :
    w.SameCounts ((set key value seconds).run w).2 := by
  have hsame : w.SameCounts w := ⟨w.memory.clients, w.memory.journal, rfl⟩
  rw [run_set]
  cases order w.memory key value seconds with
  | error f =>
    simp only
    split
    · exact hsame.noted _
    · exact hsame
  | ok sent =>
    obtain ⟨text, left⟩ := sent
    have hwrite := sameCounts_write key text left w
    simp only
    rcases hrun : (write key text left).run w with ⟨r, w₁⟩
    rw [hrun] at hwrite
    cases r with
    | ok u => cases left <;> exact hwrite.noted _
    | error f =>
      simp only
      split
      · exact hwrite.noted _
      · exact hwrite

/-! ## Providers -/

def fetchIn (key : String) (m : Memory) : Memory := { m with fetches := key :: m.fetches }

def timedIn (key : String) (m : Memory) : Memory :=
  { m with collector := m.collector.map (·.observe "provider_duration_seconds" [m.bucket key] Memory.lapse) }

def deliveredIn (key : String) (outcome : Except Failure Payload) (m : Memory) : Memory :=
  timedIn key (match outcome with
    | .error f => if f.isContained then swallowIn "Cache provider error" [("key", .str key)] f m else m
    | .ok value => { m with fetched := (key, value) :: m.fetched })

theorem run_callProvider (key : String) (provider : Op Payload) (w : World) :
    (callProvider key provider).run w =
      let p := provider.run (w.withMemory (fetchIn key))
      (p.1, p.2.withMemory (deliveredIn key p.1)) := by
  rw [callProvider, Op.run_bind, Op.run_modify]
  change (Op.outcome provider >>= _).run (w.withMemory (fetchIn key)) = _
  rw [Op.run_bind, Op.run_outcome]
  rcases provider.run (w.withMemory (fetchIn key)) with ⟨r, w₁⟩
  cases r with
  | ok p => rfl
  | error f =>
    have hdelivered : w₁.withMemory (deliveredIn key (.error f)) =
        if f.isContained then (w₁.withMemory (swallowIn "Cache provider error" [("key", .str key)] f)).withMemory
          (timedIn key) else w₁.withMemory (timedIn key) := by
      rw [World.withMemory, deliveredIn]
      split <;> rfl
    simp only [hdelivered]
    split <;> rfl

theorem run_getOrSet (key : String) (provider : Op Payload) (seconds : Option Seconds) (w : World) :
    (getOrSet key provider seconds).run w = match (get key).run w with
      | (.error f, w) => (.error f, w)
      | (.ok .null, w) =>
        match (callProvider key provider).run w with
        | (.error f, w) => (.error f, w)
        | (.ok value, w) =>
          match (set key value seconds).run w with
          | (.error f, w) => (.error f, w)
          | (.ok _, w) => (.ok value, w)
      | (.ok v, w) => (.ok (.json v), w) := by
  rw [getOrSet, Op.run_bind]
  rcases (get key).run w with ⟨r, w₁⟩
  cases r with
  | error f => rfl
  | ok v =>
    cases v with
    | null =>
      simp only [Op.run_bind]
      rcases (callProvider key provider).run w₁ with ⟨r, w₂⟩
      cases r with
      | error f => rfl
      | ok value =>
        simp only
        rcases (set key value seconds).run w₂ with ⟨r, w₃⟩
        cases r <;> rfl
    | _ => rfl

/-! ## Removing -/

theorem run_delete (key : String) (w : World) :
    (delete key).run w = match (Store.remove key).run w with
      | (.ok _, w) => (.ok (), w.withMemory (debugIn "Deleted cache key" [("key", .str key)]))
      | (.error f, w) =>
        if f.isContained then (.ok (), w.withMemory (swallowIn "Cache delete error" [("key", .str key)] f))
        else (.error f, w) := by
  rw [delete, Op.run_contain, Op.run_bind, Op.run_discard]
  rcases (Store.remove key).run w with ⟨r, w₁⟩
  cases r <;> rfl

theorem run_deleteByPattern (pattern : String) (w : World) :
    (deleteByPattern pattern).run w = match (Store.keysMatching pattern).run w with
      | (.error f, w) =>
        if f.isContained then
          (.ok 0, w.withMemory (swallowIn "Cache pattern delete error" [("pattern", .str pattern)] f))
        else (.error f, w)
      | (.ok keys, w) =>
        if keys.isEmpty then (.ok 0, w)
        else
          match (Store.removeMany keys).run w with
          | (.ok count, w) =>
            (.ok count, w.withMemory (debugIn "Deleted cache keys by pattern"
              [("pattern", .str pattern), ("count", .nat count)]))
          | (.error f, w) =>
            if f.isContained then
              (.ok 0, w.withMemory (swallowIn "Cache pattern delete error" [("pattern", .str pattern)] f))
            else (.error f, w) := by
  rw [deleteByPattern, Op.run_contain, Op.run_bind]
  rcases (Store.keysMatching pattern).run w with ⟨r, w₁⟩
  cases r with
  | error f => rfl
  | ok keys =>
    simp only
    cases hkeys : keys.isEmpty with
    | true => simp only [if_true]; rfl
    | false =>
      simp only [Bool.false_eq_true, if_false, Op.run_bind]
      rcases (Store.removeMany keys).run w₁ with ⟨r, w₂⟩
      cases r <;> rfl

theorem run_invalidateEntity (type name : Json) (w : World) :
    (invalidateEntity type name).run w =
      match (deleteByPattern (entityPattern type.plain (Key.segment name))).run w with
      | (.ok count, w) => (.ok count, w.withMemory (Memory.noted ⟨logger, .info, "Invalidated entity cache",
          [("entity_type", type), ("entity_id", name), ("count", .nat count)], none⟩))
      | (.error f, w) => (.error f, w) := by
  rw [invalidateEntity, Op.run_bind]
  rcases (deleteByPattern (entityPattern type.plain (Key.segment name))).run w with ⟨r, w₁⟩
  cases r <;> rfl

/-! ## Diagnostics -/

theorem run_serverInfo (w : World) :
    serverInfo.run w = match (Store.reporting "server_info" [] (Store.send .describe)).run w with
      | (.ok info, w) => (.ok info.render, w)
      | (.error f, w) =>
        if f.isContained then (.ok infoUnavailable, w.withMemory (swallowIn "Error fetching Redis info" [] f))
        else (.error f, w) := by
  rw [serverInfo, Op.run_contain, Store.serverInfo, Op.run_bind]
  rcases (Store.reporting "server_info" [] (Store.send .describe)).run w with ⟨r, w₁⟩
  cases r <;> rfl

end Cache
end CacheAside
