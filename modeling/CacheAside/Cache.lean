import CacheAside.Store
import CacheAside.Payload

/-! # The cache

Values are kept in the store as JSON text under a key. Failures of the store and of reading or writing
JSON never reach a caller: a read becomes a miss, a write or a removal has no effect, and each such
failure is written to the journal once. Only the failure of a provider reaches the caller of
`getOrSet`. -/

namespace CacheAside.Cache
set_option autoImplicit false

def logger : String := "cache.service"

def debug (event : String) (fields : List (String × Json)) : Op Unit :=
  Op.note ⟨logger, .debug, event, fields, none⟩

/-- Writes down a contained failure. -/
def swallow (event : String) (fields : List (String × Json)) (f : Failure) : Op Unit :=
  Op.note ⟨logger, .error, event, fields, some f⟩

/-! ## Counting -/

def bucketFor (key : String) : Op String := return (← get).bucket key

/-- Counts a hit in the bucket of a key, in the tally and in the collector. -/
def recordHit (key : String) : Op String := do
  let bucket ← bucketFor key
  modify fun m => { m with tally := m.tally.hit bucket }
  Op.collect (·.bump "cache_hits_total" [bucket])
  return bucket

def recordMiss (key : String) : Op String := do
  let bucket ← bucketFor key
  modify fun m => { m with tally := m.tally.miss bucket }
  Op.collect (·.bump "cache_misses_total" [bucket])
  return bucket

def metrics : Op Json := return (← get).tally.json

def clearMetrics : Op Unit := do
  modify fun m => { m with tally := m.tally.clear m.tallyRegistry }
  debug "Cache metrics cleared" []

/-! ## Reading and writing -/

/-- The value under a key; null where there is none or it cannot be had. -/
def get (key : String) : Op Json :=
  Op.contain
    (do
      match ← Store.fetch key with
      | none =>
        discard (recordMiss key)
        return .null
      | some text =>
        match Json.read (← MonadState.get).limits text with
        | .error e => throw (.unreadable e)
        | .ok v =>
          discard (recordHit key)
          return v)
    fun f => do
      swallow "Cache get error" [("key", .str key)] f
      discard (recordMiss key)
      return .null

/-- The seconds that a key lives when nothing else is said. -/
def lifetime (key : String) : Op Seconds := do
  let m ← MonadState.get
  match m.misfiled.bind (·.lookupFault? (.str key)) with
  | some f => throw f
  | none => return m.registry.lifetime m.otherwise key

/-- Writes a value. Given seconds win over the registry; without positive seconds it stays for ever. -/
def set (key : String) (value : Payload) (seconds : Option Seconds) : Op Unit :=
  Op.contain
    (do
      let seconds ← match seconds with
        | some s => pure s
        | none => lifetime key
      match value.text (← MonadState.get).limits with
      | .error e => throw (.unwritable e)
      | .ok text =>
        match seconds.isPositive? with
        | none => throw .uncountable
        | some true =>
          Store.writeFor key text seconds
          debug "Cached key" [("key", .str key), ("ttl", seconds.json)]
        | some false =>
          Store.write key text
          debug "Cached key without expiration" [("key", .str key)])
    fun f => swallow "Cache set error" [("key", .str key)] f

/-- Calls a provider for a key: the call and what it delivers are remembered, its failure is written down and passed
on, and its duration observed whatever comes of it. -/
def callProvider (key : String) (provider : Op Payload) : Op Payload := do
  modify fun m => { m with fetches := key :: m.fetches }
  let outcome ← Op.outcome provider
  match outcome with
  | .error f => if f.isContained then swallow "Cache provider error" [("key", .str key)] f
  | .ok value => modify fun m => { m with fetched := (key, value) :: m.fetched }
  let bucket ← bucketFor key
  Op.collect (·.observe "provider_duration_seconds" [bucket] Memory.lapse)
  Op.conclude outcome

/-- The cached value, unless it is null; else what the provider delivers, which is then cached. -/
def getOrSet (key : String) (provider : Op Payload) (seconds : Option Seconds) : Op Payload := do
  match ← get key with
  | .null =>
    let value ← callProvider key provider
    set key value seconds
    return value
  | v => return .json v

/-! ## Removing -/

def delete (key : String) : Op Unit :=
  Op.contain
    (do
      discard (Store.remove key)
      debug "Deleted cache key" [("key", .str key)])
    fun f => swallow "Cache delete error" [("key", .str key)] f

/-- Removes the keys that match a pattern in one batch; answers how many there were. -/
def deleteByPattern (pattern : String) : Op Nat :=
  Op.contain
    (do
      let keys ← Store.keysMatching pattern
      if keys.isEmpty then return 0
      let count ← Store.removeMany keys
      debug "Deleted cache keys by pattern" [("pattern", .str pattern), ("count", .nat count)]
      return count)
    fun f => do
      swallow "Cache pattern delete error" [("pattern", .str pattern)] f
      return 0

/-- The pattern of the keys that mention an entity: its type and, unless it is empty, its name are segments
that others stand before and after. -/
def entityPattern (type name : String) : String :=
  if name = "" then "cache:*:" ++ type ++ ":*" else "cache:*:" ++ type ++ ":" ++ name ++ ":*"

/-- Removes what mentions an entity, in every namespace. A blank name is none. -/
def invalidateEntity (type name : Json) : Op Nat := do
  let count ← deleteByPattern (entityPattern type.plain (Key.segment name))
  Op.note ⟨logger, .info, "Invalidated entity cache", [("entity_type", type),
    ("entity_id", name), ("count", .nat count)], none⟩
  return count

/-! ## Diagnostics -/

def infoUnavailable : String := "Unable to fetch Redis info"

def serverInfo : Op String :=
  Op.contain Store.serverInfo fun f => do
    swallow "Error fetching Redis info" [] f
    return infoUnavailable

def summary : Op Json := do
  let m ← MonadState.get
  match m.misfiled with
  | some filed => Op.conclude filed.summary
  | none => return m.registry.summary

end CacheAside.Cache
