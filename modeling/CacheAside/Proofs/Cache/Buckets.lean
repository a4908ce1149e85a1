import CacheAside.Proofs.Cache.Counting

/-! # The buckets of a tally

A tally never loses a bucket and never moves one: its buckets are those of its registry, in the order of the
registry, and behind them every other bucket in which something was counted, in the order in which this first
happened (`Measure.names`). Clearing builds the tally anew from the registry and puts what else there was behind it
again, which gives the same buckets at zero; so the counters of a bucket tell what was counted in it since. -/

namespace CacheAside
set_option autoImplicit false

/-! ## Distinct values in order -/

section
variable {α : Type} [DecidableEq α]

theorem eraseDups_concat (as : List α) (b : α) :
    (as ++ [b]).eraseDups = if b ∈ as then as.eraseDups else as.eraseDups ++ [b] := by
  rw [List.eraseDups_append, List.removeAll]
  by_cases hb : b ∈ as
  · simp [hb]
  · simp [hb, List.eraseDups_cons]

theorem nodup_eraseDups (as : List α) : as.eraseDups.Nodup := by
  induction as using List.reverseRecOn with
  | nil => exact List.nodup_nil
  | append_singleton as b ih =>
    rw [eraseDups_concat]
    split
    · exact ih
    · rename_i hb
      refine List.nodup_append.2 ⟨ih, List.nodup_singleton b, fun a ha b' hb' hab => ?_⟩
      rw [hab, List.mem_singleton.1 hb', List.mem_eraseDups] at ha
      exact hb ha

theorem eraseDups_of_nodup {as : List α} (h : as.Nodup) : as.eraseDups = as := by
  induction as using List.reverseRecOn with
  | nil => rfl
  | append_singleton as b ih =>
    obtain ⟨has, -, hdisjoint⟩ := List.nodup_append.1 h
    rw [eraseDups_concat, ih has, if_neg fun hb => hdisjoint b hb b List.mem_cons_self rfl]

/-- What stands in front already adds nothing. -/
theorem eraseDups_append_of_nodup {as bs : List α} (h : (as ++ bs).Nodup) :
    (as ++ (as ++ bs)).eraseDups = as ++ bs := by
  obtain ⟨has, hbs, hdisjoint⟩ := List.nodup_append.1 h
  have hfirst : as.removeAll as = [] := by
    rw [List.removeAll, List.filter_eq_nil_iff]
    intro a ha
    simp [ha]
  have hsecond : bs.removeAll as = bs := by
    rw [List.removeAll, List.filter_eq_self]
    intro b hb
    have hnot : b ∉ as := fun ha => hdisjoint b ha b hb rfl
    simp [hnot]
  have hrest : (as ++ bs).removeAll as = bs := by
    rw [List.removeAll, List.filter_append]
    exact congrArg₂ (· ++ ·) hfirst hsecond
  rw [List.eraseDups_append, hrest, eraseDups_of_nodup has, eraseDups_of_nodup hbs]

end

theorem Rows.keys_collect {κ α : Type} [DecidableEq κ] (rows : List (κ × α)) :
    keys (collect rows) = (keys rows).eraseDups := by
  induction rows using List.reverseRecOn with
  | nil => rfl
  | append_singleton rows row ih =>
    have hmem : row.1 ∈ keys (collect rows) ↔ row.1 ∈ keys rows := by rw [ih, List.mem_eraseDups]
    have hkeys : keys (rows ++ [row]) = keys rows ++ [row.1] := List.map_append
    rw [collect, List.foldl_concat, ← collect, keys_put, hkeys, eraseDups_concat, ih]
    simp only [List.mem_eraseDups]

theorem Rows.find?_of_mem {κ α : Type} [DecidableEq κ] {rows : List (κ × α)} (h : (keys rows).Nodup) {row : κ × α}
    (hrow : row ∈ rows) : find? row.1 rows = some row.2 := by
  induction rows with
  | nil => cases hrow
  | cons first rest ih =>
    obtain ⟨hfirst, hrest⟩ := List.nodup_cons.1 h
    rcases List.mem_cons.1 hrow with rfl | hrow
    · rw [find?, if_pos rfl]
    · have hne : first.1 ≠ row.1 := fun heq => hfirst (heq ▸ List.mem_map_of_mem hrow)
      rw [find?, if_neg hne]
      exact ih hrest hrow

/-! ## Buckets -/

theorem Registry.buckets_eq (r : Registry) : r.buckets = (r.values.map Category.bucket).eraseDups := by
  rw [buckets]
  induction r.values using List.reverseRecOn with
  | nil => rfl
  | append_singleton cs c ih =>
    rw [List.foldl_concat, ih, List.map_append, List.map_singleton, eraseDups_concat]
    simp only [List.mem_eraseDups]

theorem Registry.nodup_buckets (r : Registry) : r.buckets.Nodup := by
  rw [buckets_eq]
  exact nodup_eraseDups _

namespace Tally

theorem keys_zeros (buckets : List String) : (zeros buckets).keys = buckets.eraseDups := by
  refine (Rows.keys_collect _).trans (congrArg List.eraseDups ?_)
  rw [Rows.keys, List.map_map]
  exact List.map_id _

theorem keys_start (r : Registry) : (start r).keys = r.buckets := by
  rw [start, keys_zeros, eraseDups_of_nodup r.nodup_buckets]

/-- Clearing neither loses nor moves a bucket. -/
theorem keys_clear {r : Registry} {t : Tally} {others : List String} (h : t.keys = r.buckets ++ others) :
    (t.clear r).keys = t.keys := by
  have hnodup : t.keys.Nodup := t.distinct
  rw [h] at hnodup
  rw [clear, keys_zeros, h, eraseDups_append_of_nodup hnodup]

/-- The rows of a tally are its buckets with their counters. -/
theorem rows_eq (t : Tally) : t.rows = t.keys.map fun bucket => (bucket, t.counter bucket) := by
  have hrows : ∀ row ∈ t.rows, row = (row.1, t.counter row.1) := by
    intro row hrow
    rw [counter, Table.find?, Rows.find?_of_mem t.distinct hrow]
    rfl
  rw [Table.keys, Rows.keys, List.map_map]
  exact (List.map_id _).symm.trans (List.map_congr_left hrows)

end Tally

/-! ## Measures -/

/-- What can be asked of the counting of a service. -/
inductive Measure where
  | count (v : Verdict) (key : String)
  | snapshot
  | reset

namespace Measure

/-- The measure, its answer told as a value. -/
def op : Measure → Op Json
  | .count .hit key => .str <$> Cache.recordHit key
  | .count .miss key => .str <$> Cache.recordMiss key
  | .snapshot => Cache.metrics
  | .reset => (fun _ => .null) <$> Cache.clearMetrics

def isReset : Measure → Bool
  | .reset => true
  | _ => false

variable (r : Registry)

/-- The bucket in which the measure counts. -/
def bucket? : Measure → Option String
  | .count _ key => some (r.bucket key)
  | _ => none

def countsIn (v : Verdict) (bucket : String) : Measure → Bool
  | .count v' key => v' = v && r.bucket key = bucket
  | _ => false

/-- The buckets that are not of the registry, each where it was first counted in. -/
def adHoc (ds : List Measure) : List String := ((ds.filterMap (bucket? r)).filter (· ∉ r.buckets)).eraseDups

def names (ds : List Measure) : List String := r.buckets ++ adHoc r ds

/-- The measures since the last reset, the latest first. -/
def sinceReset (ds : List Measure) : List Measure := ds.reverse.takeWhile fun d => !d.isReset

/-- How often a verdict was counted in a bucket since the last reset. -/
def number (ds : List Measure) (v : Verdict) (bucket : String) : ℕ := (sinceReset ds).countP (countsIn r v bucket)

/-- What a measure is answered, being the last one of these. -/
def answer (ds : List Measure) : Measure → Json
  | .count _ key => .str (r.bucket key)
  | .snapshot => .obj ((names r ds).map fun bucket =>
      (bucket, (Counter.mk (number r ds .hit bucket) (number r ds .miss bucket)).json))
  | .reset => .null

theorem sinceReset_concat (ds : List Measure) (d : Measure) :
    sinceReset (ds ++ [d]) = if d.isReset then [] else d :: sinceReset ds :=
  takeWhile_reverse_concat isReset ds d

theorem names_nil : names r [] = r.buckets := List.append_nil _

variable {r} {ds : List Measure} {d : Measure}

theorem names_concat_of_none (h : d.bucket? r = none) : names r (ds ++ [d]) = names r ds := by
  rw [names, adHoc, List.filterMap_append, List.filterMap_cons_none h, List.filterMap_nil, List.append_nil]
  rfl

/-- Counting adds a bucket at the end where it is new. -/
theorem names_concat_of_some {bucket : String} (h : d.bucket? r = some bucket) :
    names r (ds ++ [d]) = if bucket ∈ names r ds then names r ds else names r ds ++ [bucket] := by
  rw [names, adHoc, List.filterMap_append, List.filterMap_cons_some h, List.filterMap_nil, List.filter_append]
  by_cases hregistered : bucket ∈ r.buckets
  · have hnone : [bucket].filter (fun b => decide (b ∉ r.buckets)) = [] := by simp [hregistered]
    have hmem : bucket ∈ names r ds := List.mem_append_left _ hregistered
    rw [hnone, List.append_nil, if_pos hmem]
    rfl
  · have hself : [bucket].filter (fun b => decide (b ∉ r.buckets)) = [bucket] := by simp [hregistered]
    have hmem : bucket ∈ names r ds ↔ bucket ∈ (ds.filterMap (bucket? r)).filter (· ∉ r.buckets) := by
      rw [names, List.mem_append, or_iff_right hregistered, adHoc, List.mem_eraseDups]
    rw [hself, eraseDups_concat]
    simp only [hmem]
    split
    · rfl
    · exact (List.append_assoc _ _ _).symm

theorem names_prefix : names r ds <+: names r (ds ++ [d]) := by
  cases h : d.bucket? r with
  | none =>
    rw [names_concat_of_none h]
  | some bucket =>
    rw [names_concat_of_some h]
    split
    · exact List.prefix_refl _
    · exact List.prefix_append _ _

theorem number_concat_of_isReset (h : d.isReset = true) (v : Verdict) (bucket : String) :
    number r (ds ++ [d]) v bucket = 0 := by
  rw [number, sinceReset_concat, h]
  rfl

theorem number_concat (h : d.isReset = false) (v : Verdict) (bucket : String) :
    number r (ds ++ [d]) v bucket = number r ds v bucket + if countsIn r v bucket d then 1 else 0 := by
  rw [number, sinceReset_concat, h]
  exact List.countP_cons

end Measure

/-! ## Runs -/

namespace Cache

theorem run_record (v : Verdict) (key : String) (w : World) : ∃ w', (Measure.count v key).op.run w =
    (.ok (.str (w.memory.bucket key)), w') ∧ w'.memory.tallyRegistry = w.memory.tallyRegistry ∧
      w'.memory.tally = w.memory.tally.put (w.memory.bucket key)
        (v.add (w.memory.tally.counter (w.memory.bucket key))) := by
  cases v <;> exact ⟨_, rfl, rfl, rfl⟩

/-- After these measures a tally has just their buckets, with what was counted since the last reset. -/
structure Tallied (r : Registry) (ds : List Measure) (m : Memory) : Prop where
  registry : m.tallyRegistry = r
  keys : m.tally.keys = Measure.names r ds
  numbers : ∀ v bucket, (m.tally.counter bucket).number v = Measure.number r ds v bucket

namespace Tallied
variable {r : Registry} {ds : List Measure}

theorem start {m : Memory} (h : m.tally = Tally.start m.tallyRegistry) : Tallied m.tallyRegistry [] m := by
  refine ⟨rfl, ?_, fun v bucket => ?_⟩
  · rw [h, Tally.keys_start, Measure.names_nil]
  · rw [h, Tally.start, Tally.counter_zeros]
    cases v <;> rfl

theorem count {w : World} (h : Tallied r ds w.memory) (v : Verdict) (key : String) :
    Tallied r (ds ++ [.count v key]) ((Measure.count v key).op.run w).2.memory := by
  obtain ⟨w', hrun, hregistry, htally⟩ := run_record v key w
  have hbucket : w.memory.bucket key = r.bucket key := by rw [Memory.bucket, h.registry]
  rw [hbucket] at htally
  rw [hrun]
  refine ⟨hregistry.trans h.registry, ?_, fun v' bucket => ?_⟩
  · rw [htally, Table.keys_put, h.keys, Measure.names_concat_of_some rfl]
  · rw [htally, Tally.counter_put, Measure.number_concat rfl, ← h.numbers, Measure.countsIn]
    by_cases hb : bucket = r.bucket key
    · subst hb
      rw [if_pos rfl, Counter.number_add]
      simp [eq_comm]
    · simp [hb, Ne.symm hb]

theorem reset {w : World} (h : Tallied r ds w.memory) :
    Tallied r (ds ++ [.reset]) (Measure.reset.op.run w).2.memory := by
  have htally : (Measure.reset.op.run w).2.memory.tally = w.memory.tally.clear r := by
    rw [← h.registry]
    rfl
  refine ⟨h.registry, ?_, fun v bucket => ?_⟩
  · rw [htally, Tally.keys_clear h.keys, h.keys, Measure.names_concat_of_none rfl]
  · rw [htally, Tally.clear, Tally.counter_zeros, Measure.number_concat_of_isReset rfl]
    cases v <;> rfl

theorem snapshot {w : World} (h : Tallied r ds w.memory) : Tallied r (ds ++ [.snapshot]) w.memory := by
  refine ⟨h.registry, ?_, fun v bucket => ?_⟩
  · rw [h.keys, Measure.names_concat_of_none rfl]
  · rw [h.numbers, Measure.number_concat rfl]
    rfl

theorem step {w : World} (h : Tallied r ds w.memory) (d : Measure) : Tallied r (ds ++ [d]) (d.op.run w).2.memory := by
  cases d with
  | count v key => exact h.count v key
  | snapshot => exact h.snapshot
  | reset => exact h.reset

theorem of_record {w : World} (htally : w.memory.tally = Tally.start w.memory.tallyRegistry) {deeds : List Measure}
    {past rest : List (Event Measure Json)} {e : Event Measure Json}
    (h : record Measure.op deeds w = past ++ e :: rest) :
    Tallied w.memory.tallyRegistry (past.map Event.deed) e.before.memory ∧ e.Performs Measure.op := by
  refine record_invariant (P := fun past w' => Tallied w.memory.tallyRegistry (past.map Event.deed) w'.memory)
    (fun past e hpast he => ?_) (start htally) h
  have hnext := hpast.step e.deed
  rw [he] at hnext
  rwa [List.map_append]

theorem json {m : Memory} (h : Tallied r ds m) : m.tally.json = Measure.snapshot.answer r ds := by
  rw [Tally.json, Tally.rows_eq, h.keys, List.map_map]
  refine congrArg Json.obj (List.map_congr_left fun bucket _ => ?_)
  rw [← h.numbers, ← h.numbers]
  rfl

theorem outcome {w : World} (h : Tallied r ds w.memory) (d : Measure) :
    (d.op.run w).1 = .ok (d.answer r (ds ++ [d])) := by
  cases d with
  | count v key =>
    obtain ⟨w', hrun, -⟩ := run_record v key w
    rw [hrun, Memory.bucket, h.registry]
    rfl
  | snapshot => exact congrArg Except.ok h.snapshot.json
  | reset => rfl

end Tallied

/-- In every run of counting, snapshots and resets the buckets are those of the registry, and behind them the others,
each where something was first counted in it; none is there twice, none goes and none moves. A reset takes every
counter to zero and keeps the buckets; at any time the counters tell how often each verdict was counted in a bucket
since the last reset, and a snapshot tells just this. -/
theorem buckets_only_grow {w : World} (htally : w.memory.tally = Tally.start w.memory.tallyRegistry)
    {deeds : List Measure} {past rest : List (Event Measure Json)} {e : Event Measure Json}
    (h : record Measure.op deeds w = past ++ e :: rest) :
    let r := w.memory.tallyRegistry
    let done := past.map Event.deed ++ [e.deed]
    e.after.memory.tally.keys = r.buckets ++ Measure.adHoc r done ∧ e.after.memory.tally.keys.Nodup ∧
      e.before.memory.tally.keys <+: e.after.memory.tally.keys ∧
      (e.deed = .reset → e.after.memory.tally.keys = e.before.memory.tally.keys ∧
        ∀ row ∈ e.after.memory.tally.rows, row.2 = Counter.zero) ∧
      (∀ v bucket, (e.after.memory.tally.counter bucket).number v = Measure.number r done v bucket) ∧
      e.outcome = .ok (e.deed.answer r done) := by
  intro r done
  obtain ⟨hbefore, he⟩ := Tallied.of_record htally h
  have hafter := hbefore.step e.deed
  have houtcome := hbefore.outcome e.deed
  rw [he] at hafter houtcome
  refine ⟨hafter.keys, e.after.memory.tally.distinct, ?_, fun hreset => ⟨?_, ?_⟩, hafter.numbers, houtcome⟩
  · rw [hbefore.keys, hafter.keys]
    exact Measure.names_prefix
  · rw [hbefore.keys, hafter.keys, hreset, Measure.names_concat_of_none rfl]
  · rw [Event.Performs, hreset] at he
    have htally : e.after.memory.tally = e.before.memory.tally.clear e.before.memory.tallyRegistry :=
      congrArg (fun done => done.2.memory.tally) he.symm
    rw [htally, Tally.clear]
    exact Tally.eq_zero_of_mem_zeros

/-- A bucket of its own keeps its place behind those of the registry when it is cleared. -/
theorem buckets_only_grow_ad_hoc : ∃ past e, record Measure.op [.count .hit "fx:usd:1", .count .miss "cache:news:top",
      .reset, .count .miss "fx:usd:2"] (World.fresh []) = past ++ [e] ∧
    e.after.memory.tally.keys = Registry.builtin.buckets ++ ["fx:usd"] ∧
    (e.after.memory.tally.counter "fx:usd").hits = 0 ∧ (e.after.memory.tally.counter "fx:usd").misses = 1 := by
  have h : record Measure.op [.count .hit "fx:usd:1", .count .miss "cache:news:top", .reset, .count .miss "fx:usd:2"]
      (World.fresh []) = [_, _, _] ++ _ :: [] := rfl
  obtain ⟨hkeys, -, -, -, hnumbers, -⟩ := buckets_only_grow rfl h
  exact ⟨[_, _, _], _, h, hkeys, hnumbers .hit "fx:usd", hnumbers .miss "fx:usd"⟩

end Cache
end CacheAside
