import CacheAside.Proofs.Cache.Effect
import CacheAside.Proofs.Run.Record

/-! # Every read is counted once

A read counts one hit or one miss in the bucket of its key, in the tally and in the collector alike, and
nothing else counts; clearing sets the tally to zero and leaves the collector as it is. `Books` is the part of
memory that this is about, with one equation for each operation, and over a run the tally and the collector
stay in step. -/

namespace CacheAside
set_option autoImplicit false

/-! ## Sums over rows -/

namespace Rows
variable {κ α : Type} [DecidableEq κ]

theorem sum_put (f : α → ℕ) (k : κ) (v : α) (rows : List (κ × α)) :
    ((put k v rows).map fun row => f row.2).sum + (find? k rows).elim 0 f =
      (rows.map fun row => f row.2).sum + f v := by
  induction rows with
  | nil => simp [put, find?]
  | cons row rest ih =>
    obtain ⟨k', v'⟩ := row
    by_cases h : k' = k
    · simp only [put, find?, h, if_true, List.map_cons, List.sum_cons, Option.elim]
      omega
    · simp only [put, find?, h, if_false, List.map_cons, List.sum_cons]
      omega

theorem mem_of_find? {k : κ} {v : α} {rows : List (κ × α)} (h : find? k rows = some v) : (k, v) ∈ rows := by
  induction rows with
  | nil => cases h
  | cons row rest ih =>
    obtain ⟨k', v'⟩ := row
    rw [find?] at h
    split at h
    · rename_i hk
      cases h
      rw [hk]
      exact List.mem_cons_self
    · exact List.mem_cons_of_mem _ (ih h)

theorem forall_put {P : α → Prop} {k : κ} {v : α} {rows : List (κ × α)} (hv : P v) (h : ∀ row ∈ rows, P row.2) :
    ∀ row ∈ put k v rows, P row.2 := by
  induction rows with
  | nil =>
    intro row hrow
    rw [List.mem_singleton.1 hrow]
    exact hv
  | cons first rest ih =>
    obtain ⟨k', v'⟩ := first
    have hrest := ih fun row hrow => h row (List.mem_cons_of_mem _ hrow)
    intro row hrow
    rw [put] at hrow
    split at hrow
    · rcases List.mem_cons.1 hrow with rfl | hrow
      · exact hv
      · exact h row (List.mem_cons_of_mem _ hrow)
    · rcases List.mem_cons.1 hrow with rfl | hrow
      · exact h _ List.mem_cons_self
      · exact hrest row hrow

theorem forall_collect {P : α → Prop} {rows : List (κ × α)} (h : ∀ row ∈ rows, P row.2) :
    ∀ row ∈ collect rows, P row.2 := by
  suffices hfold : ∀ (rows acc : List (κ × α)), (∀ row ∈ rows, P row.2) → (∀ row ∈ acc, P row.2) →
      ∀ row ∈ rows.foldl (fun acc row => put row.1 row.2 acc) acc, P row.2 from
    hfold rows [] h fun row hrow => by cases hrow
  intro rows
  induction rows with
  | nil => exact fun acc _ hacc => hacc
  | cons first rest ih =>
    intro acc h hacc
    have hrest : ∀ row ∈ rest, P row.2 := fun row hrow => h row (List.mem_cons_of_mem _ hrow)
    exact ih _ hrest (forall_put (h first List.mem_cons_self) hacc)

end Rows

/-! ## Tallies -/

/-- What a read comes to. -/
inductive Verdict where
  | hit
  | miss
deriving DecidableEq, Repr

namespace Verdict

def add : Verdict → Counter → Counter
  | .hit => Counter.addHit
  | .miss => Counter.addMiss

/-- The family of the collector that counts along. -/
def family : Verdict → String
  | .hit => "cache_hits_total"
  | .miss => "cache_misses_total"

end Verdict

namespace Counter

def number (c : Counter) : Verdict → ℕ
  | .hit => c.hits
  | .miss => c.misses

theorem number_add (c : Counter) (v v' : Verdict) :
    (v.add c).number v' = c.number v' + if v' = v then 1 else 0 := by
  cases v <;> cases v' <;> rfl

theorem total_add (c : Counter) (v : Verdict) : (v.add c).total = c.total + 1 := by
  cases v with
  | hit => exact Nat.succ_add c.hits c.misses
  | miss => rfl

end Counter

namespace Tally

/-- All reads that are counted, over all buckets. -/
def total (t : Tally) : ℕ := (t.rows.map fun row => row.2.total).sum

theorem counter_put (t : Tally) (bucket : String) (c : Counter) (bucket' : String) :
    counter (t.put bucket c) bucket' = if bucket' = bucket then c else t.counter bucket' := by
  rw [counter, Table.find?_put, counter]
  split <;> rfl

theorem total_put (t : Tally) (bucket : String) (c : Counter) :
    total (t.put bucket c) + (t.counter bucket).total = total t + c.total := by
  have hcounter : (t.counter bucket).total = (t.find? bucket).elim 0 Counter.total := by
    rw [counter]
    cases t.find? bucket <;> rfl
  rw [hcounter]
  exact Rows.sum_put Counter.total bucket c t.rows

theorem eq_zero_of_mem_zeros {buckets : List String} : ∀ row ∈ (zeros buckets).rows, row.2 = Counter.zero := by
  have hzero : ∀ row ∈ buckets.map (·, Counter.zero), row.2 = Counter.zero := by
    intro row hrow
    obtain ⟨bucket, -, rfl⟩ := List.mem_map.1 hrow
    rfl
  exact Rows.forall_collect (P := (· = Counter.zero)) hzero

theorem counter_zeros (buckets : List String) (bucket : String) : (zeros buckets).counter bucket = Counter.zero := by
  rw [counter]
  cases h : (zeros buckets).find? bucket with
  | none => rfl
  | some c => exact eq_zero_of_mem_zeros _ (Rows.mem_of_find? h)

theorem total_zeros (buckets : List String) : total (zeros buckets) = 0 := by
  refine List.sum_eq_zero fun n hn => ?_
  obtain ⟨row, hrow, rfl⟩ := List.mem_map.1 hn
  rw [eq_zero_of_mem_zeros row hrow]
  rfl

end Tally

/-! ## Collectors -/

namespace Family

def bump (f : Family) (values : List String) : Family := { f with series := f.series.bump values }

def IsCounter (f : Family) : Prop := ∃ rows, f.series = .counts rows

def count (f : Family) (values : List String) : ℕ := (f.series.count? values).getD 0

theorem IsCounter.bump {f : Family} (h : f.IsCounter) (values : List String) : (f.bump values).IsCounter := by
  obtain ⟨rows, hrows⟩ := h
  refine ⟨Rows.put values ((Rows.find? values rows).getD 0 + 1) rows, ?_⟩
  rw [Family.bump, hrows, Series.bump]

theorem count_bump {f : Family} (h : f.IsCounter) (values values' : List String) :
    (f.bump values).count values' = f.count values' + if values' = values then 1 else 0 := by
  obtain ⟨rows, hrows⟩ := h
  simp only [count, bump, hrows, Series.bump, Series.count?, Rows.find?_put]
  by_cases hvalues : values' = values
  · subst hvalues
    simp
  · simp [hvalues]

end Family

namespace Collector

theorem find?_change (c : Collector) (name : String) (f : Series → Series) (name' : String) :
    (c.change name f).families.find? name' =
      if name' = name then (c.families.find? name).map fun family => { family with series := f family.series }
      else c.families.find? name' := by
  rw [change]
  by_cases hname : name' = name
  · subst hname
    cases h : c.families.find? name' <;> simp [h]
  · cases h : c.families.find? name <;> simp [hname]

/-- The families of a collector that may be missing, after one of them has changed. -/
theorem bind_find?_change (c : Option Collector) (name : String) (f : Series → Series) (name' : String) :
    (c.map (·.change name f)).bind (·.families.find? name') =
      if name' = name then
        (c.bind (·.families.find? name)).map fun family => { family with series := f family.series }
      else c.bind (·.families.find? name') := by
  cases c with
  | none => simp
  | some c => exact find?_change c name f name'

theorem service_change (c : Collector) (name : String) (f : Series → Series) :
    (c.change name f).service = c.service := by
  rw [change]
  cases c.families.find? name <;> rfl

end Collector

/-! ## Books -/

theorem Op.snd_run_discard {α : Type} (op : Op α) (w : World) : ((discard op : Op Unit).run w).2 = (op.run w).2 := by
  rw [run_discard]
  rcases op.run w with ⟨r, w'⟩
  cases r <;> rfl

theorem Op.fst_run_discard {α : Type} {op : Op α} {w : World} {f : Failure}
    (h : ((discard op : Op Unit).run w).1 = .error f) : (op.run w).1 = .error f := by
  rw [run_discard] at h
  rcases hrun : op.run w with ⟨r, w'⟩
  rw [hrun] at h
  cases r with
  | ok a => cases h
  | error f' =>
    cases h
    rfl

/-- What counting reads and writes: the registry that tells the buckets, the tally, and the families of the
collector that count along. -/
structure Books where
  registry : Registry
  tally : Tally
  family : Verdict → Option Family

namespace Books

def count (b : Books) (v : Verdict) (key : String) : Books :=
  let bucket := b.registry.bucket key
  { b with
    tally := b.tally.put bucket (v.add (b.tally.counter bucket))
    family := fun v' => if v' = v then (b.family v).map (·.bump [bucket]) else b.family v' }

def clear (b : Books) : Books := { b with tally := b.tally.clear b.registry }

/-- How often the collector counted a verdict in a bucket. -/
def exported (b : Books) (v : Verdict) (bucket : String) : ℕ :=
  ((b.family v).bind fun f => f.series.count? [bucket]).getD 0

/-- Whether there are counters that count along. -/
def AreExported (b : Books) : Prop := ∀ v, ∃ f rows, b.family v = some f ∧ f.series = .counts rows

theorem counter_count (b : Books) (v : Verdict) (key bucket : String) :
    (b.count v key).tally.counter bucket =
      if bucket = b.registry.bucket key then v.add (b.tally.counter bucket) else b.tally.counter bucket := by
  rw [count, Tally.counter_put]
  split
  · rename_i h
    rw [h]
  · rfl

theorem total_count (b : Books) (v : Verdict) (key : String) :
    (b.count v key).tally.total = b.tally.total + 1 := by
  have h := Tally.total_put b.tally (b.registry.bucket key) (v.add (b.tally.counter (b.registry.bucket key)))
  rw [Counter.total_add] at h
  have hcount : (b.count v key).tally.total =
      Tally.total (b.tally.put (b.registry.bucket key) (v.add (b.tally.counter (b.registry.bucket key)))) := rfl
  omega

theorem areExported_count {b : Books} (h : b.AreExported) (v : Verdict) (key : String) :
    (b.count v key).AreExported := by
  intro v'
  obtain ⟨f, rows, hf, hrows⟩ := h v'
  by_cases hv : v' = v
  · subst hv
    obtain ⟨rows', hrows'⟩ := Family.IsCounter.bump ⟨rows, hrows⟩ [b.registry.bucket key]
    refine ⟨f.bump [b.registry.bucket key], rows', ?_, hrows'⟩
    rw [count]
    simp [hf]
  · refine ⟨f, rows, ?_, hrows⟩
    rw [count]
    simp [hv, hf]

theorem exported_count {b : Books} (h : b.AreExported) (v : Verdict) (key : String) (v' : Verdict)
    (bucket : String) :
    (b.count v key).exported v' bucket =
      b.exported v' bucket + if v' = v ∧ bucket = b.registry.bucket key then 1 else 0 := by
  obtain ⟨f, rows, hf, hrows⟩ := h v'
  by_cases hv : v' = v
  · subst hv
    have hbump := Family.count_bump ⟨rows, hrows⟩ [b.registry.bucket key] [bucket]
    rw [exported, exported, count]
    simpa [hf, Family.count] using hbump
  · rw [exported, exported, count]
    simp [hv]

theorem counter_clear (b : Books) (bucket : String) : b.clear.tally.counter bucket = Counter.zero :=
  Tally.counter_zeros _ bucket

theorem total_clear (b : Books) : b.clear.tally.total = 0 := Tally.total_zeros _

end Books

def Memory.books (m : Memory) : Books where
  registry := m.tallyRegistry
  tally := m.tally
  family v := m.collector.bind (·.families.find? v.family)

theorem World.SameService.books {w w' : World} (h : w.SameService w') : w'.memory.books = w.memory.books := by
  obtain ⟨b, hb⟩ := h
  rw [hb]
  rfl

namespace Memory

/-- The part of a change of the collector that the books see. -/
theorem family_change (m : Memory) (name : String) (f : Series → Series) (v : Verdict) :
    (m.collector.map (·.change name f)).bind (·.families.find? v.family) =
      if v.family = name then (m.books.family v).map fun family => { family with series := f family.series }
      else m.books.family v := by
  refine (Collector.bind_find?_change m.collector name f v.family).trans ?_
  split
  · rename_i h
    rw [← h]
    rfl
  · rfl

theorem books_count (key : String) (m : Memory) (v : Verdict) :
    Memory.books { m with
      tally := m.tally.put (m.bucket key) (v.add (m.tally.counter (m.bucket key)))
      collector := m.collector.map (·.bump v.family [m.bucket key]) } = m.books.count v key := by
  have hfamily : (fun v' : Verdict =>
      (m.collector.map (·.bump v.family [m.bucket key])).bind (·.families.find? v'.family)) =
        (m.books.count v key).family := by
    funext v'
    refine (family_change m v.family (Series.bump [m.bucket key]) v').trans ?_
    cases v <;> cases v' <;> rfl
  rw [books, hfamily]
  rfl

end Memory

namespace Cache

theorem books_hitIn (key : String) (m : Memory) : (hitIn key m).books = m.books.count .hit key :=
  Memory.books_count key m .hit

theorem books_missIn (key : String) (m : Memory) : (missIn key m).books = m.books.count .miss key :=
  Memory.books_count key m .miss

theorem books_deliveredIn (key : String) (outcome : Except Failure Payload) (m : Memory) :
    (deliveredIn key outcome m).books = m.books := by
  have hobserve : ∀ m : Memory, Memory.books { m with
      collector := m.collector.map (·.observe "provider_duration_seconds" [m.bucket key] Memory.lapse) } =
        m.books := by
    intro m
    have hfamily : (fun v : Verdict => (m.collector.map (·.observe "provider_duration_seconds" [m.bucket key]
        Memory.lapse)).bind (·.families.find? v.family)) = m.books.family := by
      funext v
      refine (m.family_change "provider_duration_seconds" (Series.observe [m.bucket key] Memory.lapse) v).trans ?_
      rw [if_neg]
      cases v <;> decide
    rw [Memory.books, hfamily]
    rfl
  cases outcome with
  | ok p => exact hobserve m
  | error f =>
    refine (hobserve _).trans ?_
    simp only
    split <;> rfl

/-! ## Operations -/

/-- An operation that counts nothing. -/
def KeepsBooks {α : Type} (op : Op α) : Prop := ∀ w, (op.run w).2.memory.books = w.memory.books

theorem keepsBooks_reporting (operation : String) (details : List (String × Json)) (c : Command) :
    KeepsBooks (Store.reporting operation details (Store.send c)) :=
  fun w => (Store.sameService_reporting operation details c w).books

theorem keepsBooks_fetch (key : String) : KeepsBooks (Store.fetch key) := keepsBooks_reporting _ _ _

theorem keepsBooks_remove (key : String) : KeepsBooks (Store.remove key) := keepsBooks_reporting _ _ _

theorem keepsBooks_keysMatching (pattern : String) : KeepsBooks (Store.keysMatching pattern) :=
  keepsBooks_reporting _ _ _

theorem keepsBooks_removeMany (keys : List String) : KeepsBooks (Store.removeMany keys) := by
  intro w
  rw [Store.removeMany]
  split
  · rfl
  · exact keepsBooks_reporting _ _ _ w

/-- What a read of a key is counted as: a hit where a text stands that can be read. A read that is broken off
is not counted. -/
def verdict? (key : String) (w : World) : Option Verdict :=
  match ((Store.fetch key).run w).1 with
  | .ok none => some .miss
  | .ok (some text) =>
    match Json.read w.memory.limits text with
    | .ok _ => some .hit
    | .error _ => some .miss
  | .error f => if f.isContained then some .miss else none

/-- The books after a read, as it is counted. -/
def countedAs (b : Books) (key : String) : Option Verdict → Books
  | some v => b.count v key
  | none => b

theorem isSome_verdict? (key : String) {w : World} (hw : w.network.Contained) : (verdict? key w).isSome = true := by
  have hcontained := (Store.sent_fetch key hw).contained
  rw [verdict?]
  cases hfetch : ((Store.fetch key).run w).1 with
  | error f => simp [hcontained f hfetch]
  | ok found =>
    cases found with
    | none => rfl
    | some text =>
      simp only
      cases Json.read w.memory.limits text <;> rfl

theorem books_get (key : String) (w : World) :
    ((get key).run w).2.memory.books = countedAs w.memory.books key (verdict? key w) := by
  have hbooks := keepsBooks_fetch key w
  rw [run_get, verdict?]
  rcases hfetch : (Store.fetch key).run w with ⟨r, w₁⟩
  rw [hfetch] at hbooks
  rw [← hbooks]
  cases r with
  | error f =>
    cases hf : f.isContained with
    | true =>
      simp only [hf, if_true]
      exact books_missIn key _
    | false =>
      simp only [hf, Bool.false_eq_true, if_false]
      rfl
  | ok found =>
    cases found with
    | none => exact books_missIn key _
    | some text =>
      simp only
      cases Json.read w.memory.limits text with
      | ok v => exact books_hitIn key _
      | error e => exact books_missIn key _

/-- A read that ends in a failure was broken off. -/
theorem verdict?_eq_none {key : String} {w : World} {f : Failure} (h : ((get key).run w).1 = .error f) :
    verdict? key w = none := by
  rw [run_get] at h
  rw [verdict?]
  rcases hfetch : (Store.fetch key).run w with ⟨r, w₁⟩
  rw [hfetch] at h
  cases r with
  | error f' =>
    cases hf : f'.isContained with
    | true => simp [hf] at h
    | false => simp [hf]
  | ok found =>
    cases found with
    | none => cases h
    | some text =>
      simp only at h
      cases hread : Json.read w.memory.limits text <;> rw [hread] at h <;> cases h

theorem keepsBooks_set (key : String) (value : Payload) (seconds : Option Seconds) :
    KeepsBooks (set key value seconds) := by
  intro w
  obtain ⟨clients, journal, hmemory⟩ := sameCounts_set key value seconds w
  rw [hmemory]
  rfl

theorem keepsBooks_callProvider (key : String) {provider : Op Payload} (hprovider : KeepsBooks provider) :
    KeepsBooks (callProvider key provider) := by
  intro w
  rw [run_callProvider]
  exact (books_deliveredIn key _ _).trans (hprovider _)

/-- Only the reading part counts. -/
theorem books_getOrSet (key : String) {provider : Op Payload} (hprovider : KeepsBooks provider)
    (seconds : Option Seconds) (w : World) :
    ((getOrSet key provider seconds).run w).2.memory.books = countedAs w.memory.books key (verdict? key w) := by
  rw [← books_get, run_getOrSet]
  rcases (get key).run w with ⟨r, w₁⟩
  cases r with
  | error f => rfl
  | ok v =>
    cases v with
    | null =>
      have hcall := keepsBooks_callProvider key hprovider w₁
      simp only
      rcases hrun : (callProvider key provider).run w₁ with ⟨r, w₂⟩
      rw [hrun] at hcall
      cases r with
      | error f => exact hcall
      | ok value =>
        have hset := (keepsBooks_set key value seconds w₂).trans hcall
        simp only
        rcases hwrite : (set key value seconds).run w₂ with ⟨r, w₃⟩
        rw [hwrite] at hset
        cases r <;> exact hset
    | _ => rfl

theorem keepsBooks_delete (key : String) : KeepsBooks (delete key) := by
  intro w
  have hbooks := keepsBooks_remove key w
  rw [run_delete]
  rcases hrun : (Store.remove key).run w with ⟨r, w₁⟩
  rw [hrun] at hbooks
  cases r with
  | ok n => exact hbooks
  | error f =>
    simp only
    split <;> exact hbooks

theorem keepsBooks_deleteByPattern (pattern : String) : KeepsBooks (deleteByPattern pattern) := by
  intro w
  have hlist := keepsBooks_keysMatching pattern w
  rw [run_deleteByPattern]
  rcases hrun : (Store.keysMatching pattern).run w with ⟨r, w₁⟩
  rw [hrun] at hlist
  cases r with
  | error f =>
    simp only
    split <;> exact hlist
  | ok keys =>
    have hremove := (keepsBooks_removeMany keys w₁).trans hlist
    simp only
    split
    · exact hlist
    · rcases hrun₂ : (Store.removeMany keys).run w₁ with ⟨r, w₂⟩
      rw [hrun₂] at hremove
      cases r with
      | ok n => exact hremove
      | error f =>
        simp only
        split <;> exact hremove

/-! ## Runs -/

/-- A call to the cache. A provider is any operation that counts nothing. -/
inductive Use where
  | get (key : String)
  | getOrSet (key : String) (provider : Op Payload) (keeps : KeepsBooks provider) (seconds : Option Seconds)
  | set (key : String) (value : Payload) (seconds : Option Seconds)
  | delete (key : String)
  | deleteByPattern (pattern : String)
  | clearMetrics

namespace Use

def op : Use → Op Unit
  | .get key => discard (Cache.get key)
  | .getOrSet key provider _ seconds => discard (Cache.getOrSet key provider seconds)
  | .set key value seconds => Cache.set key value seconds
  | .delete key => Cache.delete key
  | .deleteByPattern pattern => discard (Cache.deleteByPattern pattern)
  | .clearMetrics => Cache.clearMetrics

/-- The key that is read. -/
def key? : Use → Option String
  | .get key | .getOrSet key _ _ _ => some key
  | _ => none

def clears : Use → Bool
  | .clearMetrics => true
  | _ => false

theorem clears_of_key? {u : Use} {key : String} (h : u.key? = some key) : u.clears = false := by
  cases u <;> first | rfl | cases h

/-- What the call is counted as in a world. -/
def verdict? (u : Use) (w : World) : Option Verdict := u.key?.bind (Cache.verdict? · w)

/-- The books after the call. -/
def books (u : Use) (w : World) : Books :=
  match u.key? with
  | some key => countedAs w.memory.books key (Cache.verdict? key w)
  | none => if u.clears then w.memory.books.clear else w.memory.books

theorem books_op (u : Use) (w : World) : (u.op.run w).2.memory.books = u.books w := by
  cases u with
  | get key =>
    rw [op, Op.snd_run_discard]
    exact books_get key w
  | getOrSet key provider keeps seconds =>
    rw [op, Op.snd_run_discard]
    exact books_getOrSet key keeps seconds w
  | set key value seconds => exact keepsBooks_set key value seconds w
  | delete key => exact keepsBooks_delete key w
  | deleteByPattern pattern =>
    rw [op, Op.snd_run_discard]
    exact keepsBooks_deleteByPattern pattern w
  | clearMetrics => rfl

end Use

/-- The calls since the metrics were cleared last, the latest first. -/
def sinceClear (events : List (Event Use Unit)) : List (Event Use Unit) :=
  events.reverse.takeWhile fun e => !e.deed.clears

/-- What clearing took off the counters of a bucket, all in all. -/
def cleared (events : List (Event Use Unit)) (v : Verdict) (bucket : String) : ℕ :=
  ((events.filter (·.deed.clears)).map fun e => (e.before.memory.tally.counter bucket).number v).sum

def isRead (e : Event Use Unit) : Bool := e.deed.key?.isSome

def isCounted (e : Event Use Unit) : Bool := (e.deed.verdict? e.before).isSome

theorem sinceClear_append (events : List (Event Use Unit)) (e : Event Use Unit) :
    sinceClear (events ++ [e]) = if e.deed.clears then [] else e :: sinceClear events :=
  takeWhile_reverse_concat (fun e : Event Use Unit => e.deed.clears) events e

theorem cleared_append (events : List (Event Use Unit)) (e : Event Use Unit) (v : Verdict) (bucket : String) :
    cleared (events ++ [e]) v bucket = cleared events v bucket +
      if e.deed.clears then (e.before.memory.tally.counter bucket).number v else 0 := by
  rw [cleared, cleared, List.filter_append, List.map_append, List.sum_append]
  cases h : e.deed.clears <;> simp [h]

/-- The three things that a call can do to the books. -/
theorem books_cases {e : Event Use Unit} (he : e.Performs Use.op) :
    (∃ key v, e.deed.key? = some key ∧ verdict? key e.before = some v ∧ isCounted e = true ∧
        e.deed.clears = false ∧ e.after.memory.books = e.before.memory.books.count v key) ∨
      (isCounted e = false ∧ e.deed.clears = true ∧ e.after.memory.books = e.before.memory.books.clear) ∨
      (isCounted e = false ∧ e.deed.clears = false ∧ e.after.memory.books = e.before.memory.books) := by
  have hbooks : e.after.memory.books = e.deed.books e.before := by
    rw [← Use.books_op, he]
  rw [Use.books] at hbooks
  cases hkey : e.deed.key? with
  | none =>
    have hcounted : isCounted e = false := by rw [isCounted, Use.verdict?, hkey]; rfl
    rw [hkey] at hbooks
    cases hclears : e.deed.clears with
    | true =>
      rw [hclears] at hbooks
      exact .inr (.inl ⟨hcounted, rfl, hbooks⟩)
    | false =>
      rw [hclears] at hbooks
      exact .inr (.inr ⟨hcounted, rfl, hbooks⟩)
  | some key =>
    have hclears := Use.clears_of_key? hkey
    rw [hkey] at hbooks
    change _ = countedAs e.before.memory.books key (verdict? key e.before) at hbooks
    cases hv : verdict? key e.before with
    | none =>
      have hcounted : isCounted e = false := by rw [isCounted, Use.verdict?, hkey, Option.bind_some, hv]; rfl
      rw [hv] at hbooks
      exact .inr (.inr ⟨hcounted, hclears, hbooks⟩)
    | some v =>
      have hcounted : isCounted e = true := by rw [isCounted, Use.verdict?, hkey, Option.bind_some, hv]; rfl
      rw [hv] at hbooks
      exact .inl ⟨key, v, rfl, hv, hcounted, hclears, hbooks⟩

/-- The tally and the collector in step after the calls so far. -/
structure InStep (start : World) (past : List (Event Use Unit)) (w : World) : Prop where
  network : w.network = start.network
  registry : w.memory.books.registry = start.memory.registry
  total : w.memory.books.tally.total = (sinceClear past).countP isCounted
  exported : start.memory.collector = some (Collector.start "cache") → w.memory.books.AreExported ∧
    ∀ v bucket, w.memory.books.exported v bucket =
      (w.memory.books.tally.counter bucket).number v + cleared past v bucket
  counted : start.network.Contained → ∀ e ∈ past, isCounted e = isRead e

theorem InStep.step {start : World} {past : List (Event Use Unit)} {e : Event Use Unit}
    (h : InStep start past e.before) (he : e.Performs Use.op) : InStep start (past ++ [e]) e.after := by
  have hnetwork : e.after.network = e.before.network := by
    obtain ⟨exchanges, ht⟩ := Op.traced_run e.deed.op e.before
    rw [he] at ht
    exact ht.network
  have hcounted : start.network.Contained → ∀ x ∈ past ++ [e], isCounted x = isRead x := by
    intro hw x hx
    rcases List.mem_append.1 hx with hx | hx
    · exact h.counted hw x hx
    · rw [List.mem_singleton.1 hx, isCounted, isRead, Use.verdict?]
      cases hkey : e.deed.key? with
      | none => rfl
      | some key =>
        rw [← h.network] at hw
        exact isSome_verdict? key hw
  refine ⟨hnetwork.trans h.network, ?_, ?_, fun hstart => ?_, hcounted⟩
  · rcases books_cases he with ⟨key, v, -, -, -, -, hbooks⟩ | ⟨-, -, hbooks⟩ | ⟨-, -, hbooks⟩
    all_goals
      rw [hbooks]
      exact h.registry
  · rw [sinceClear_append]
    rcases books_cases he with ⟨key, v, -, -, hc, hclears, hbooks⟩ | ⟨hc, hclears, hbooks⟩ | ⟨hc, hclears, hbooks⟩
    · rw [hbooks, Books.total_count, h.total, hclears]
      simp [hc]
    · rw [hbooks, Books.total_clear, hclears]
      rfl
    · rw [hbooks, h.total, hclears]
      simp [hc]
  · obtain ⟨hexported, hsame⟩ := h.exported hstart
    rcases books_cases he with ⟨key, v, -, -, -, hclears, hbooks⟩ | ⟨-, hclears, hbooks⟩ | ⟨-, hclears, hbooks⟩
    · refine ⟨hbooks ▸ Books.areExported_count hexported v key, fun v' bucket => ?_⟩
      rw [hbooks, Books.exported_count hexported, Books.counter_count, hsame, cleared_append, hclears]
      by_cases hbucket : bucket = e.before.memory.books.registry.bucket key
      · simp only [hbucket, if_true, and_true, Counter.number_add]
        simp
        omega
      · simp [hbucket]
    · refine ⟨hbooks ▸ hexported, fun v bucket => ?_⟩
      have hzero : Counter.zero.number v = 0 := by cases v <;> rfl
      rw [hbooks, Books.counter_clear, cleared_append, hclears, hzero, if_pos rfl, Nat.zero_add, Nat.add_comm]
      exact hsame v bucket
    · refine ⟨hbooks ▸ hexported, fun v bucket => ?_⟩
      rw [hbooks, cleared_append, hclears]
      exact hsame v bucket

theorem InStep.start {w : World} (hregistry : w.memory.tallyRegistry = w.memory.registry)
    (htally : w.memory.tally = Tally.start w.memory.registry) : InStep w [] w := by
  have hbooks : w.memory.books.tally = Tally.zeros w.memory.registry.buckets := htally
  refine ⟨rfl, hregistry, ?_, fun hcollector => ?_, fun _ e he => by cases he⟩
  · rw [hbooks]
    exact Tally.total_zeros _
  · have hfamily : ∀ v : Verdict, ∃ help, w.memory.books.family v = some ⟨help, ["bucket"], .counts []⟩ := by
      intro v
      rw [Memory.books, hcollector]
      cases v with
      | hit => exact ⟨"Total cache hits", rfl⟩
      | miss => exact ⟨"Total cache misses", rfl⟩
    refine ⟨fun v => ?_, fun v bucket => ?_⟩
    · obtain ⟨help, hv⟩ := hfamily v
      exact ⟨_, [], hv, rfl⟩
    · obtain ⟨help, hv⟩ := hfamily v
      rw [Books.exported, hv, hbooks, Tally.counter_zeros]
      cases v <;> rfl

/-- In every run of a service whose tally begins at zero, a read adds one to the hits or to the misses of the
bucket of its key, and to nothing else; one that is broken off adds nothing. Clearing sets all counters to zero,
and no other call changes any. So the counters add up to the reads since they were last cleared, and a collector
that counts along holds what they hold and what clearing took off them. -/
theorem reads_counted_once {w : World} (hregistry : w.memory.tallyRegistry = w.memory.registry)
    (htally : w.memory.tally = Tally.start w.memory.registry) {uses : List Use} {past rest : List (Event Use Unit)}
    {e : Event Use Unit} (h : record Use.op uses w = past ++ e :: rest) :
    (∀ key, e.deed.key? = some key → ∀ bucket, e.after.memory.tally.counter bucket =
        match verdict? key e.before with
        | some v =>
          if bucket = w.memory.registry.bucket key then v.add (e.before.memory.tally.counter bucket)
          else e.before.memory.tally.counter bucket
        | none => e.before.memory.tally.counter bucket) ∧
      (e.deed.key? = none → ∀ bucket, e.after.memory.tally.counter bucket =
        if e.deed.clears then Counter.zero else e.before.memory.tally.counter bucket) ∧
      e.after.memory.tally.total = (sinceClear (past ++ [e])).countP isCounted ∧
      (w.network.Contained →
        (∀ key, e.deed.key? = some key → (verdict? key e.before).isSome = true) ∧
          e.after.memory.tally.total = (sinceClear (past ++ [e])).countP isRead) ∧
      (w.memory.collector = some (Collector.start "cache") →
        ∃ c, e.after.memory.collector = some c ∧ ∀ (v : Verdict) (bucket : String), c.count v.family [bucket] =
          (e.after.memory.tally.counter bucket).number v + cleared (past ++ [e]) v bucket) ∧
      (∀ key f, e.deed = .get key → e.outcome = .error f → e.after.memory.books = e.before.memory.books) := by
  obtain ⟨hbefore, he⟩ := record_invariant (P := InStep w) (fun _ _ => InStep.step) (InStep.start hregistry htally) h
  have hafter := hbefore.step he
  have hcases := books_cases he
  have htallies : e.after.memory.books.tally = e.after.memory.tally := rfl
  refine ⟨fun key hkey bucket => ?_, fun hkey bucket => ?_, hafter.total, fun hw => ⟨fun key hkey => ?_, ?_⟩,
    fun hcollector => ?_, fun key f hget hfail => ?_⟩
  · rw [← htallies, ← hbefore.registry]
    rcases hcases with ⟨key', v, hkey', hv, -, -, hbooks⟩ | ⟨hc, hclears, hbooks⟩ | ⟨hc, hclears, hbooks⟩
    · obtain rfl : key = key' := by
        rw [hkey] at hkey'
        exact Option.some.inj hkey'
      rw [hv, hbooks]
      exact Books.counter_count _ v key bucket
    · rw [Use.clears_of_key? hkey] at hclears
      cases hclears
    · have hnone : verdict? key e.before = none := by
        rw [isCounted, Use.verdict?, hkey] at hc
        simpa using hc
      rw [hnone, hbooks]
      rfl
  · rw [← htallies]
    rcases hcases with ⟨key', v, hkey', -⟩ | ⟨-, hclears, hbooks⟩ | ⟨-, hclears, hbooks⟩
    · rw [hkey] at hkey'
      cases hkey'
    · rw [hclears, hbooks]
      exact Books.counter_clear _ bucket
    · rw [hclears, hbooks]
      rfl
  · rw [← hbefore.network] at hw
    exact isSome_verdict? key hw
  · refine hafter.total.trans (List.countP_congr fun x hx => ?_)
    have hmem : x ∈ past ++ [e] := List.mem_reverse.1 ((List.takeWhile_sublist _).subset hx)
    rw [hafter.counted hw x hmem]
  · obtain ⟨hexported, hsame⟩ := hafter.exported hcollector
    cases hc : e.after.memory.collector with
    | none =>
      obtain ⟨f, rows, hf, -⟩ := hexported .hit
      rw [Memory.books, hc] at hf
      cases hf
    | some c =>
      refine ⟨c, rfl, fun v bucket => ?_⟩
      rw [← htallies, ← hsame v bucket, Books.exported, Memory.books, hc]
      rfl
  · rw [Event.Performs, hget, hfail] at he
    have hfailed : ((get key).run e.before).1 = .error f := Op.fst_run_discard (congrArg Prod.fst he)
    rcases hcases with ⟨key', v, hkey', hv, -, -, -⟩ | ⟨-, hclears, -⟩ | ⟨-, -, hbooks⟩
    · rw [hget] at hkey'
      obtain rfl := Option.some.inj hkey'
      rw [verdict?_eq_none hfailed] at hv
      cases hv
    · rw [hget] at hclears
      cases hclears
    · exact hbooks

/-- A miss and a hit are counted, cleared, and stay in the collector when the next hit is counted. -/
theorem reads_counted_once_cleared :
    ∃ past e c, record Use.op [.getOrSet "k" (pure (.json (.int 7))) (fun _ => rfl) none, .get "k", .clearMetrics,
        .get "k"] ((World.fresh []).withMemory fun m => { m with collector := some (Collector.start "cache") }) =
          past ++ [e] ∧
      e.after.memory.tally.total = 1 ∧ e.after.memory.collector = some c ∧
      c.count "cache_hits_total" ["k"] = 1 + 1 ∧ c.count "cache_misses_total" ["k"] = 0 + 1 := by
  have h : record Use.op [.getOrSet "k" (pure (.json (.int 7))) (fun _ => rfl) none, .get "k", .clearMetrics,
      .get "k"] ((World.fresh []).withMemory fun m => { m with collector := some (Collector.start "cache") }) =
        [_, _, _] ++ _ :: [] := rfl
  obtain ⟨-, -, htotal, -, hcollector, -⟩ := reads_counted_once rfl rfl h
  obtain ⟨c, hc, hcount⟩ := hcollector rfl
  have hhits := hcount .hit "k"
  have hmisses := hcount .miss "k"
  exact ⟨[_, _, _], _, c, h, htotal.trans (by decide +kernel), hc, hhits.trans (by decide +kernel),
    hmisses.trans (by decide +kernel)⟩

end Cache
end CacheAside
