import CacheAside.Proofs.Cache.Serving
import CacheAside.Proofs.Resource.Upstream

/-! # Misses and calls of providers

A lookup counts a miss where nothing is found and a hit where something is, null too; but null is no answer, so the
provider is called for it as well. Hence the calls of providers for a bucket are the misses that it counts and the
lookups that found null (`Cache.calls_are_misses_and_nulls`), and where a null is found they are more than the misses
(`Cache.hit_and_called`). -/

namespace CacheAside.Cache
set_option autoImplicit false

/-! ## One lookup -/

/-- A read with a provider that counts nothing and calls no other one. -/
structure Lookup where
  key : String
  provider : Op Payload
  seconds : Option Seconds
  countsNothing : provider.Leaves Memory.books
  callsNone : provider.Leaves Memory.fetches

namespace Lookup

def op (l : Lookup) : Op Payload := getOrSet l.key l.provider l.seconds

/-- What the lookup is counted as: a hit where a value is found, null too. -/
def verdict (l : Lookup) (w : World) : Verdict :=
  match found? l.key w with
  | some _ => .hit
  | none => .miss

def findsNull (l : Lookup) (w : World) : Bool :=
  match found? l.key w with
  | some .null => true
  | _ => false

/-- The keys that a provider is called for. -/
def called (l : Lookup) (w : World) : List String := if l.verdict w = .miss ∨ l.findsNull w then [l.key] else []

theorem verdict_eq_miss_iff (l : Lookup) (w : World) : l.verdict w = .miss ↔ found? l.key w = none := by
  rw [verdict]
  cases found? l.key w <;> simp

theorem findsNull_iff (l : Lookup) (w : World) : l.findsNull w = true ↔ found? l.key w = some .null := by
  rw [findsNull]
  cases found? l.key w with
  | none => simp
  | some v => cases v <;> simp

variable {w : World}

theorem verdict?_eq (l : Lookup) (hw : w.network.Contained) : verdict? l.key w = some (l.verdict w) := by
  have hcontained := (Store.sent_fetch l.key hw).contained
  rw [Cache.verdict?, verdict, found?]
  cases hfetch : ((Store.fetch l.key).run w).1 with
  | error f => simp [hcontained f hfetch]
  | ok found =>
    cases found with
    | none => rfl
    | some text =>
      simp only
      cases Json.read w.memory.limits text <;> rfl

theorem books_op (l : Lookup) (hw : w.network.Contained) :
    (l.op.run w).2.memory.books = w.memory.books.count (l.verdict w) l.key := by
  rw [op, books_getOrSet l.key l.countsNothing, l.verdict?_eq hw]
  rfl

theorem fetches_op (l : Lookup) (hw : w.network.Contained) :
    (l.op.run w).2.memory.fetches = l.called w ++ w.memory.fetches := by
  obtain ⟨w₁, -, hget, -, -⟩ := get_consulted hw l.key
  have hanswer := congrArg Prod.fst hget
  rw [called, verdict, findsNull]
  cases hfound : found? l.key w with
  | none =>
    rw [hfound] at hanswer
    exact fetches_getOrSet l.key l.callsNone l.seconds hanswer
  | some v =>
    rw [hfound] at hanswer
    cases v with
    | null => exact fetches_getOrSet l.key l.callsNone l.seconds hanswer
    | _ => exact fetches_getOrSet_of_hit l.key l.provider l.seconds hanswer Json.noConfusion

/-- A provider is called for a miss and for a null, and the two exclude each other. -/
theorem countP_called (l : Lookup) (w : World) (p : String → Bool) :
    (l.called w).countP p =
      (if l.verdict w = .miss ∧ p l.key then 1 else 0) + if l.findsNull w && p l.key then 1 else 0 := by
  rw [called, verdict, findsNull]
  cases found? l.key w with
  | none => simp [List.countP_singleton]
  | some v => cases v <;> simp [List.countP_singleton]

end Lookup

/-! ## Runs of lookups -/

theorem Books.number_count (b : Books) (v : Verdict) (key : String) (v' : Verdict) (bucket : String) :
    ((b.count v key).tally.counter bucket).number v' =
      (b.tally.counter bucket).number v' + if v' = v ∧ bucket = b.registry.bucket key then 1 else 0 := by
  rw [Books.counter_count]
  by_cases hbucket : bucket = b.registry.bucket key
  · simp [hbucket, Counter.number_add]
  · simp [hbucket]

/-- How often a provider was called for a key of a bucket. -/
def callsFor (r : Registry) (bucket : String) (m : Memory) : ℕ := m.fetches.countP (r.bucket · = bucket)

/-- How many lookups of keys of a bucket found null. -/
def nullsFor (r : Registry) (bucket : String) (events : List (Event Lookup Payload)) : ℕ :=
  events.countP fun e => e.deed.findsNull e.before && r.bucket e.deed.key = bucket

/-- The calls of providers and the misses in step after the lookups so far. -/
structure Attuned (start : World) (past : List (Event Lookup Payload)) (w : World) : Prop where
  network : w.network = start.network
  registry : w.memory.tallyRegistry = start.memory.tallyRegistry
  calls : ∀ bucket, callsFor start.memory.tallyRegistry bucket w.memory + (start.memory.tally.counter bucket).misses =
    callsFor start.memory.tallyRegistry bucket start.memory + (w.memory.tally.counter bucket).misses +
      nullsFor start.memory.tallyRegistry bucket past

theorem Attuned.step {start : World} (hstart : start.network.Contained) {past : List (Event Lookup Payload)}
    {e : Event Lookup Payload} (h : Attuned start past e.before) (he : e.Performs Lookup.op) :
    Attuned start (past ++ [e]) e.after := by
  have hw : e.before.network.Contained := h.network ▸ hstart
  have hbooks := e.deed.books_op hw
  have hfetches := e.deed.fetches_op hw
  obtain ⟨exchanges, htraced⟩ := Op.traced_run e.deed.op e.before
  rw [he] at hbooks hfetches htraced
  simp only at hbooks hfetches
  have hregistry : e.after.memory.tallyRegistry = start.memory.tallyRegistry :=
    (congrArg Books.registry hbooks).trans h.registry
  refine ⟨htraced.network.trans h.network, hregistry, fun bucket => ?_⟩
  have hcalls : callsFor start.memory.tallyRegistry bucket e.after.memory =
      (e.deed.called e.before).countP (start.memory.bucket · = bucket) +
        callsFor start.memory.tallyRegistry bucket e.before.memory := by
    rw [callsFor, hfetches, List.countP_append]
    rfl
  have hmisses : (e.after.memory.tally.counter bucket).misses = (e.before.memory.tally.counter bucket).misses +
      if .miss = e.deed.verdict e.before ∧ bucket = start.memory.bucket e.deed.key then 1 else 0 := by
    have hnumber := Books.number_count e.before.memory.books (e.deed.verdict e.before) e.deed.key .miss bucket
    rw [← hbooks] at hnumber
    rw [Memory.bucket, ← h.registry]
    exact hnumber
  have hnulls : nullsFor start.memory.tallyRegistry bucket (past ++ [e]) =
      nullsFor start.memory.tallyRegistry bucket past +
        if e.deed.findsNull e.before && decide (start.memory.bucket e.deed.key = bucket) then 1 else 0 := by
    rw [nullsFor, List.countP_append, List.countP_singleton]
    rfl
  rw [hcalls, hmisses, hnulls, Lookup.countP_called]
  have hbefore := h.calls bucket
  simp only [decide_eq_true_eq, eq_comm (a := Verdict.miss), eq_comm (a := bucket)] at hbefore ⊢
  omega

/-- In every run of lookups on a network whose failures can be contained, whatever stands in the store and whatever the
providers come to, each lookup counts one hit or one miss in the bucket of its key, a miss where nothing is found. Its
provider is called once where a miss is counted or null is found, and else not at all. So in every bucket the calls of
providers are the misses counted and the lookups that found null, all since the start. -/
theorem calls_are_misses_and_nulls {w : World} (hw : w.network.Contained) {lookups : List Lookup}
    {past rest : List (Event Lookup Payload)} {e : Event Lookup Payload}
    (h : record Lookup.op lookups w = past ++ e :: rest) :
    (∃ v, e.after.memory.books = e.before.memory.books.count v e.deed.key ∧
      (v = .miss ↔ found? e.deed.key e.before = none) ∧
      ((v = .miss ∨ found? e.deed.key e.before = some .null) ∧
          e.after.memory.fetches = e.deed.key :: e.before.memory.fetches ∨
        v = .hit ∧ found? e.deed.key e.before ≠ some .null ∧
          e.after.memory.fetches = e.before.memory.fetches)) ∧
    ∀ bucket, callsFor w.memory.tallyRegistry bucket e.after.memory + (w.memory.tally.counter bucket).misses =
      callsFor w.memory.tallyRegistry bucket w.memory + (e.after.memory.tally.counter bucket).misses +
        nullsFor w.memory.tallyRegistry bucket (past ++ [e]) := by
  obtain ⟨hbefore, he⟩ := record_invariant (P := Attuned w) (fun _ _ => Attuned.step hw)
    ⟨rfl, rfl, fun _ => rfl⟩ h
  refine ⟨⟨e.deed.verdict e.before, ?_, e.deed.verdict_eq_miss_iff e.before, ?_⟩, (hbefore.step hw he).calls⟩
  · have hbooks := e.deed.books_op (hbefore.network ▸ hw)
    rwa [he] at hbooks
  · have hfetches := e.deed.fetches_op (hbefore.network ▸ hw)
    rw [he, Lookup.called] at hfetches
    split at hfetches
    · rename_i hcalled
      exact .inl ⟨hcalled.imp_right (e.deed.findsNull_iff e.before).1, hfetches⟩
    · rename_i hcalled
      obtain ⟨hmiss, hnull⟩ := not_or.1 hcalled
      refine .inr ⟨?_, fun h => hnull ((e.deed.findsNull_iff e.before).2 h), hfetches⟩
      cases hverdict : e.deed.verdict e.before with
      | hit => rfl
      | miss => exact absurd hverdict hmiss

/-- Of two lookups with the same provider of null the second finds what the first one wrote. -/
theorem calls_are_misses_and_nulls_twice :
    let lookup : Lookup := ⟨"k", pure (.json .null), some (.whole 60), Op.Leaves.pure _, Op.Leaves.pure _⟩
    ∃ first second, record Lookup.op [lookup, lookup] (World.fresh []) = [first, second] ∧
      callsFor Registry.builtin "k" second.after.memory =
        (second.after.memory.tally.counter "k").misses + nullsFor Registry.builtin "k" [first, second] := by
  intro lookup
  have h : record Lookup.op [lookup, lookup] (World.fresh []) = [_] ++ _ :: [] := rfl
  have hcalls := (calls_are_misses_and_nulls (World.contained_fresh []) h).2 "k"
  have hstart : callsFor (World.fresh []).memory.tallyRegistry "k" (World.fresh []).memory = 0 := rfl
  have hmisses : ((World.fresh []).memory.tally.counter "k").misses = 0 := rfl
  rw [hstart, hmisses, Nat.zero_add, Nat.add_zero] at hcalls
  exact ⟨_, _, h, hcalls⟩

/-- A stored null is a hit, yet the provider is called for it: one miss, and two calls. -/
theorem hit_and_called :
    let lookup : Lookup := ⟨"k", pure (.json .null), some (.whole 60), Op.Leaves.pure _, Op.Leaves.pure _⟩
    ∃ first second, record Lookup.op [lookup, lookup] (World.fresh []) = [first, second] ∧
      second.before.memory.tally.counter "k" = ⟨0, 1⟩ ∧ second.before.memory.fetches = ["k"] ∧
      second.after.memory.tally.counter "k" = ⟨1, 1⟩ ∧ second.after.memory.fetches = ["k", "k"] :=
  ⟨_, _, rfl, rfl, rfl, rfl, rfl⟩

end CacheAside.Cache
