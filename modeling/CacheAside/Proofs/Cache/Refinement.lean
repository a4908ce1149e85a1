import CacheAside.Proofs.Cache.Outcome
import CacheAside.Proofs.Json.RoundTrip

/-! # The cache as a map

A run of reads, writes and removals is followed by a map from keys to values and the seconds they have
left. An operation whose calls all go through has its effect on the map at once; one that fails lets time
pass and does nothing else. The store mirrors the map after every operation, whichever calls fail, so a
read answers with the latest write that went through, that nothing later covers and that has not run
out (`Standing`). A pattern covers what the server lists for it, however that reads patterns. -/

namespace CacheAside.Cache
set_option autoImplicit false

/-! ## The map -/

/-- A value and the seconds that it has left; none without end. -/
structure Kept where
  value : Json
  left : Option Seconds

namespace Kept

def wait : ℕ → Kept → Option Kept
  | 0, x => some x
  | n + 1, x =>
    match x.left with
    | none => some x
    | some left =>
      let rest := left.minus (.whole (n + 1 : ℕ))
      if rest.isOver? = some true then none else some { x with left := some rest }

/-- A value after several delays, the latest first. -/
def waits (ds : List ℕ) (x : Option Kept) : Option Kept := ds.foldr (fun d x => x.bind (wait d)) x

def entry (x : Kept) : Entry := ⟨x.value.text, x.left⟩

theorem waits_append (ds es : List ℕ) (x : Option Kept) : waits (ds ++ es) x = waits ds (waits es x) :=
  List.foldr_append

theorem waits_none (ds : List ℕ) : waits ds none = none := by
  induction ds with
  | nil => rfl
  | cons d ds ih =>
    change (waits ds none).bind (wait d) = none
    rw [ih]
    rfl

/-- A value that is written for so many seconds is there until they have passed. -/
theorem waits_whole (v : Json) {t : ℤ} (ht : 0 < t) (ds : List ℕ) :
    waits ds (some ⟨v, some (.whole t)⟩) =
      if (ds.sum : ℤ) < t then some ⟨v, some (.whole (t - ds.sum))⟩ else none := by
  induction ds with
  | nil => simp [waits, ht]
  | cons d ds ih =>
    change (waits ds (some ⟨v, some (.whole t)⟩)).bind (wait d) = _
    rw [ih, List.sum_cons]
    generalize ds.sum = k
    by_cases hk : (k : ℤ) < t
    · rw [if_pos hk, Option.bind_some]
      cases d with
      | zero =>
        rw [Nat.zero_add, if_pos hk]
        rfl
      | succ d =>
        have hrest : t - k - (d + 1 : ℕ) = t - (d + 1 + k : ℕ) := by
          push_cast
          ring
        simp only [wait, Seconds.minus_whole, Seconds.isOver?_whole, hrest]
        by_cases hover : ((d + 1 + k : ℕ) : ℤ) < t
        · rw [if_pos hover, if_neg (by simp; omega)]
        · rw [if_neg hover, if_pos (by simp; omega)]
    · have hall : ¬ ((d + k : ℕ) : ℤ) < t := by omega
      rw [if_neg hk, if_neg hall]
      rfl

theorem entry_wait (n : ℕ) (x : Kept) : x.entry.wait n = (x.wait n).map entry := by
  cases n with
  | zero => rfl
  | succ n =>
    obtain ⟨v, left⟩ := x
    cases left with
    | none => rfl
    | some left =>
      simp only [entry, Entry.wait, Entry.later, wait]
      split <;> rfl

theorem aged_entry (ds : List ℕ) (x : Option Kept) : Entry.aged ds (x.map entry) = (waits ds x).map entry := by
  induction ds with
  | nil => rfl
  | cons d ds ih =>
    rw [Entry.aged_cons, ih]
    change _ = ((waits ds x).bind (wait d)).map entry
    cases waits ds x with
    | none => rfl
    | some y => exact entry_wait d y

theorem value_of_wait {n : ℕ} {x y : Kept} (h : x.wait n = some y) : y.value = x.value := by
  cases n with
  | zero =>
    cases h
    rfl
  | succ n =>
    obtain ⟨v, left⟩ := x
    cases left with
    | none =>
      cases h
      rfl
    | some left =>
      simp only [wait] at h
      split at h
      · cases h
      · cases h
        rfl

theorem value_of_waits {ds : List ℕ} {x y : Kept} (h : waits ds (some x) = some y) : y.value = x.value := by
  induction ds generalizing y with
  | nil =>
    cases h
    rfl
  | cons d ds ih =>
    obtain ⟨z, hz, hy⟩ := Option.bind_eq_some_iff.1 h
    rw [value_of_wait hy, ih hz]

end Kept

abbrev Shadow := String → Option Kept

/-- The store holds what the map says, and what it holds can be read within the limits. -/
structure Mirrors (limits : Json.Limits) (s : Server) (m : Shadow) : Prop where
  entries : ∀ key, s.find? key = (m key).map Kept.entry
  readable : ∀ key x, m key = some x → Json.read limits x.value.text = .ok x.value

/-! ## Operations -/

/-- Reads, writes and removals of JSON values in which no object repeats a name. -/
inductive Deed where
  | get (key : String)
  | set (key : String) (value : Json) (named : value.isWellNamed = true) (seconds : Option Seconds)
  | delete (key : String)
  | deleteByPattern (pattern : String)

namespace Deed

/-- Only a read has an answer that counts. -/
def op : Deed → Op Json
  | .get key => Cache.get key
  | .set key value _ seconds => do
    Cache.set key (.json value) seconds
    return .null
  | .delete key => do
    Cache.delete key
    return .null
  | .deleteByPattern pattern => do
    discard (Cache.deleteByPattern pattern)
    return .null

/-- The keys that an operation replaces or removes, where patterns are read like this. -/
def covers (m : Matcher) : Deed → String → Bool
  | .get _, _ => false
  | .set key _ _ _, k => k = key
  | .delete key, k => k = key
  | .deleteByPattern pattern, k => m.accepts pattern k

/-- What an operation leaves under the keys that it covers, by the lifetimes that the service knows. -/
def leaves (m : Memory) : Deed → Option Kept
  | .set key value _ seconds =>
    let s := seconds.getD (m.registry.lifetime m.otherwise key)
    some ⟨value, if s.isPositive? = some true then some s else none⟩
  | _ => none

end Deed

def Shadow.step (m : Shadow) (e : Event Deed Json) : Shadow := fun key =>
  if e.succeeded && e.deed.covers e.before.server.matcher key then e.deed.leaves e.before.memory
  else Kept.waits e.pauses (m key)

def Shadow.after (events : List (Event Deed Json)) : Shadow := events.foldl Shadow.step fun _ => none

theorem Shadow.after_append (past : List (Event Deed Json)) (e : Event Deed Json) :
    Shadow.after (past ++ [e]) = (Shadow.after past).step e := by
  rw [after, List.foldl_append]
  rfl

/-! ## One operation -/

theorem Mirrors.waits {limits : Json.Limits} {s : Server} {m : Shadow} (h : Mirrors limits s m) (ds : List ℕ) :
    Mirrors limits (s.waits ds) fun key => Kept.waits ds (m key) := by
  refine ⟨fun key => ?_, fun key x hx => ?_⟩
  · rw [Server.find?_waits, h.entries, Kept.aged_entry]
  · change Kept.waits ds (m key) = some x at hx
    cases hm : m key with
    | none =>
      rw [hm, Kept.waits_none] at hx
      cases hx
    | some y =>
      rw [hm] at hx
      rw [Kept.value_of_waits hx]
      exact h.readable key y hm

theorem readable_of_text {limits : Json.Limits} {v : Json} (hnamed : v.isWellNamed = true) {text : String}
    (h : (Payload.json v).text limits = .ok text) : text = v.text ∧ Json.read limits v.text = .ok v := by
  obtain ⟨hdigits, hdepth, rfl⟩ := Payload.writeWithin_eq_ok.1 h
  exact ⟨rfl, Json.read_text hnamed hdigits hdepth⟩

/-- A write that is sent leaves in the store what the map keeps of it. -/
theorem entryOf_eq {m : Memory} {key : String} {value : Json} (hnamed : value.isWellNamed = true)
    {seconds : Option Seconds} (h : isUnsent m key (.json value) seconds = false) :
    ∃ x, (Deed.set key value hnamed seconds).leaves m = some x ∧
      entryOf m key (.json value) seconds = some x.entry ∧ Json.read m.limits x.value.text = .ok x.value := by
  rw [isUnsent] at h
  cases horder : order m key (.json value) seconds with
  | error f =>
    rw [horder] at h
    cases h
  | ok written =>
    obtain ⟨text, left⟩ := written
    refine ⟨_, rfl, ?_, ?_⟩
    · rw [entryOf, horder]
      unfold order at horder
      split at horder
      · cases horder
      · rename_i s hseconds
        have hs : s = seconds.getD (m.registry.lifetime m.otherwise key) := by
          unfold secondsFor at hseconds
          split at hseconds
          · cases hseconds
            rfl
          · split at hseconds
            · cases hseconds
            · cases hseconds
              rfl
        split at horder
        · cases horder
        · rename_i written htext
          have hwritten := (readable_of_text hnamed htext).1
          simp only [Kept.entry, ← hs]
          split at horder
          · cases horder
          · rename_i hpositive
            cases horder
            rw [if_pos hpositive, hwritten]
          · rename_i hpositive
            cases horder
            rw [if_neg (by rw [hpositive]; simp), hwritten]
    · exact (readable_of_text hnamed (order_eq_ok horder).1).2

theorem run_then_null {α : Type} {op : Op α} {w : World} {a : α} (h : (op.run w).1 = .ok a) :
    (op >>= fun _ => (return .null : Op Json)).run w = (.ok .null, (op.run w).2) := by
  obtain ⟨w', hw'⟩ : ∃ w', op.run w = (.ok a, w') := ⟨_, Prod.ext h rfl⟩
  rw [Op.run_bind, hw']
  rfl

/-- Whether a write is given up at once: the value is beyond the limits, or its seconds are no number. -/
def Deed.IsFutile (m : Memory) : Deed → Prop
  | .set key v _ seconds => m.limits.digits < v.widest ∨ m.limits.depth < v.depth ∨
      ∀ s, secondsFor m key seconds = .ok s → s.isPositive? = none
  | _ => False

theorem isFutile_of_isUnsent {m : Memory} {key : String} {value : Json} {hnamed : value.isWellNamed = true}
    {seconds : Option Seconds} (h : isUnsent m key (.json value) seconds = true) :
    (Deed.set key value hnamed seconds).IsFutile m := by
  rw [Deed.IsFutile]
  by_contra hnot
  push Not at hnot
  obtain ⟨hdigits, hdepth, s, hseconds, hpositive⟩ := hnot
  have htext : (Payload.json value).text m.limits = .ok value.text :=
    Payload.writeWithin_eq_ok.2 ⟨hdigits, hdepth, rfl⟩
  rw [isUnsent, order, hseconds] at h
  simp only [htext] at h
  cases hs : s.isPositive? with
  | none => exact hpositive hs
  | some b =>
    rw [hs] at h
    cases b <;> cases h

theorem deed_settled {e : Event Deed Json} (he : e.Performs Deed.op) (hw : e.before.network.Contained) :
    Settled e.before e.after e.exchanges (e.deed.covers e.before.server.matcher)
        ((e.deed.leaves e.before.memory).map Kept.entry) ∧
      e.after.memory.limits = e.before.memory.limits ∧
      (e.exchanges = [] → e.deed.IsFutile e.before.memory) ∧
      (e.succeeded = true → ∀ x, e.deed.leaves e.before.memory = some x →
        Json.read e.before.memory.limits x.value.text = .ok x.value) ∧
      ∀ key, e.deed = .get key → e.outcome = .ok (if e.succeeded then
        (e.before.server.waits e.pauses).valueAt e.before.memory.limits key else .null) := by
  obtain ⟨deed, w, outcome, w'⟩ := e
  simp only at hw
  cases deed with
  | get key =>
    obtain ⟨exchanges, hsettled, hne, haccounted, hvalue, -⟩ := get_outcome key hw
    have hrun : (Cache.get key).run w = (outcome, w') := he
    rw [hrun] at hsettled haccounted hvalue
    obtain rfl := hsettled.traced.exchanges_eq
    refine ⟨hsettled, haccounted.limits, fun h => absurd h hne, ?_, ?_⟩
    · rintro _ x ⟨⟩
    · rintro _ ⟨⟩
      exact hvalue
  | set key value hnamed seconds =>
    obtain ⟨exchanges, hsettled, haccounted, hok, hunsent⟩ := set_outcome key (.json value) seconds hw
    have hrun := run_then_null hok
    have hafter : ((Cache.set key (.json value) seconds).run w).2 = w' := by
      rw [← congrArg Prod.snd hrun]
      exact congrArg Prod.snd he
    rw [hafter] at hsettled haccounted
    obtain rfl := hsettled.traced.exchanges_eq
    have hsent : wentThrough (Event.exchanges ⟨Deed.set key value hnamed seconds, w, outcome, w'⟩) = true →
        isUnsent w.memory key (.json value) seconds = false := by
      intro hthrough
      by_contra h
      have hnone := hunsent.2 (Bool.eq_true_of_not_eq_false h)
      rw [Event.exchanges, hnone] at hthrough
      cases hthrough
    refine ⟨⟨hsettled.traced, hsettled.failed, fun hthrough => ?_⟩, haccounted.limits,
      fun h => isFutile_of_isUnsent (hunsent.1 h), fun hthrough x hx => ?_, ?_⟩
    · obtain ⟨x, hx, hentry, -⟩ := entryOf_eq hnamed (hsent hthrough)
      have hdone := hsettled.done hthrough
      rw [hentry] at hdone
      rw [hx]
      exact hdone
    · obtain ⟨y, hy, -, hread⟩ := entryOf_eq hnamed (hsent hthrough)
      rw [hy] at hx
      cases hx
      exact hread
    · rintro _ ⟨⟩
  | delete key =>
    obtain ⟨exchanges, hsettled, hne, haccounted, hok⟩ := delete_outcome key hw
    have hrun := run_then_null hok
    have hafter : ((Cache.delete key).run w).2 = w' := by
      rw [← congrArg Prod.snd hrun]
      exact congrArg Prod.snd he
    rw [hafter] at hsettled haccounted
    obtain rfl := hsettled.traced.exchanges_eq
    refine ⟨hsettled, haccounted.limits, fun h => absurd h hne, ?_, ?_⟩
    · rintro _ x ⟨⟩
    · rintro _ ⟨⟩
  | deleteByPattern pattern =>
    obtain ⟨exchanges, hsettled, hne, haccounted, n, hok, -⟩ := deleteByPattern_outcome pattern hw
    have hdiscard : (discard (Cache.deleteByPattern pattern) : Op Unit).run w =
        (.ok (), ((Cache.deleteByPattern pattern).run w).2) := by
      obtain ⟨w₁, hw₁⟩ : ∃ w₁, (Cache.deleteByPattern pattern).run w = (.ok n, w₁) := ⟨_, Prod.ext hok rfl⟩
      rw [Op.run_discard, hw₁]
    have hrun := run_then_null (congrArg Prod.fst hdiscard)
    have hafter : ((Cache.deleteByPattern pattern).run w).2 = w' := by
      rw [← congrArg Prod.snd hdiscard, ← congrArg Prod.snd hrun]
      exact congrArg Prod.snd he
    rw [hafter] at hsettled haccounted
    obtain rfl := hsettled.traced.exchanges_eq
    refine ⟨hsettled, haccounted.limits, fun h => absurd h hne, ?_, ?_⟩
    · rintro _ x ⟨⟩
    · rintro _ ⟨⟩

theorem mirrors_step {e : Event Deed Json} (he : e.Performs Deed.op) (hw : e.before.network.Contained)
    {m : Shadow} (hm : Mirrors e.before.memory.limits e.before.server m) :
    Mirrors e.before.memory.limits e.after.server (m.step e) := by
  obtain ⟨hsettled, -, -, hreadable, -⟩ := deed_settled he hw
  have hwaits := hm.waits e.pauses
  cases hthrough : e.succeeded with
  | false =>
    have hserver : e.after.server = e.before.server.waits e.pauses := hsettled.failed hthrough
    have hstep : m.step e = fun key => Kept.waits e.pauses (m key) := by
      funext key
      rw [Shadow.step, hthrough, Bool.false_and, if_neg (by decide)]
    rw [hserver, hstep]
    exact hwaits
  | true =>
    have hdone := hsettled.done hthrough
    refine ⟨fun key => ?_, fun key x hx => ?_⟩
    · rw [hdone key, Shadow.step, hthrough, Bool.true_and]
      split
      · rfl
      · exact hwaits.entries key
    · rw [Shadow.step, hthrough, Bool.true_and] at hx
      split at hx
      · exact hreadable hthrough x hx
      · exact hwaits.readable key x hx

/-! ## Whole runs -/

def pausesOf (events : List (Event Deed Json)) : List ℕ := (events.reverse.map Event.pauses).flatten

/-- What the latest write of a key that went through has left there, some delays after these events: nothing
later that went through covers the key, and the value has not run out. -/
inductive Standing (past : List (Event Deed Json)) (pauses : List ℕ) (key : String) : Kept → Prop
  | intro {earlier later : List (Event Deed Json)} {e : Event Deed Json} {v : Json}
      {named : v.isWellNamed = true} {seconds : Option Seconds} {x : Kept} (split : past = earlier ++ e :: later)
      (written : e.deed = .set key v named seconds) (through : e.succeeded = true)
      (untouched : ∀ e' ∈ later, (e'.succeeded && e'.deed.covers e'.before.server.matcher key) = false)
      (left : Kept.waits (pauses ++ pausesOf later) (e.deed.leaves e.before.memory) = some x) :
      Standing past pauses key x

theorem pausesOf_append (events : List (Event Deed Json)) (e : Event Deed Json) :
    pausesOf (events ++ [e]) = e.pauses ++ pausesOf events := by
  simp [pausesOf]

/-- The last event of a run is the one in question, or one of those behind it. -/
theorem last_of_split {δ : Type} {past earlier later : List δ} {e e' : δ} (h : past ++ [e] = earlier ++ e' :: later) :
    (e' = e ∧ earlier = past ∧ later = []) ∨ ∃ front, later = front ++ [e] ∧ past = earlier ++ e' :: front := by
  rcases List.eq_nil_or_concat later with rfl | ⟨front, last, rfl⟩
  · obtain ⟨hpast, hlast⟩ := List.append_inj' h rfl
    cases hlast
    exact .inl ⟨rfl, hpast.symm, rfl⟩
  · rw [List.concat_eq_append, ← List.cons_append, ← List.append_assoc] at h
    obtain ⟨hpast, hlast⟩ := List.append_inj' h rfl
    cases hlast
    exact .inr ⟨front, List.concat_eq_append, hpast⟩

/-- The map holds exactly what stands. -/
theorem waits_after_iff (past : List (Event Deed Json)) (pauses : List ℕ) (key : String) (x : Kept) :
    Kept.waits pauses (Shadow.after past key) = some x ↔ Standing past pauses key x := by
  induction past using List.reverseRecOn generalizing pauses with
  | nil =>
    have hnone : Shadow.after [] key = none := rfl
    rw [hnone, Kept.waits_none]
    constructor
    · intro h
      cases h
    · rintro ⟨hsplit, -, -, -, -⟩
      simp at hsplit
  | append_singleton past e ih =>
    rw [Shadow.after_append, Shadow.step]
    cases hcovers : e.succeeded && e.deed.covers e.before.server.matcher key with
    | true =>
      -- the last event decides alone
      rw [if_pos rfl]
      constructor
      · intro h
        rw [Bool.and_eq_true] at hcovers
        obtain ⟨v, named, seconds, hdeed⟩ : ∃ v named seconds, e.deed = .set key v named seconds := by
          cases hdeed : e.deed with
          | set k v named seconds =>
            rw [hdeed] at hcovers
            obtain rfl : key = k := of_decide_eq_true hcovers.2
            exact ⟨v, named, seconds, rfl⟩
          | _ =>
            simp only [hdeed, Deed.leaves, Kept.waits_none] at h
            cases h
        refine .intro rfl hdeed hcovers.1 (fun e' he' => by cases he') ?_
        rw [pausesOf, List.reverse_nil, List.map_nil, List.flatten_nil, List.append_nil]
        exact h
      · rintro ⟨hsplit, hwritten, hthrough, huntouched, hleft⟩
        obtain ⟨rfl, rfl, rfl⟩ | ⟨front, rfl, rfl⟩ := last_of_split hsplit
        · rwa [pausesOf, List.reverse_nil, List.map_nil, List.flatten_nil, List.append_nil] at hleft
        · rw [huntouched e (by simp)] at hcovers
          cases hcovers
    | false =>
      -- the last event only lets time pass
      rw [if_neg (by decide), ← Kept.waits_append, ih]
      constructor
      · rintro @⟨earlier, later, e', v, named, seconds, x, hsplit, hwritten, hthrough, huntouched, hleft⟩
        have hsplit' : past ++ [e] = earlier ++ e' :: (later ++ [e]) := by
          rw [hsplit, List.append_assoc]
          rfl
        refine .intro hsplit' hwritten hthrough ?_ ?_
        · intro e'' he''
          rcases List.mem_append.1 he'' with he'' | he''
          · exact huntouched e'' he''
          · rw [List.mem_singleton.1 he'']
            exact hcovers
        · rw [pausesOf_append, ← List.append_assoc]
          exact hleft
      · rintro ⟨hsplit, hwritten, hthrough, huntouched, hleft⟩
        obtain ⟨rfl, rfl, rfl⟩ | ⟨front, rfl, rfl⟩ := last_of_split hsplit
        · rw [hthrough, hwritten, Deed.covers, decide_eq_true rfl] at hcovers
          cases hcovers
        · rw [pausesOf_append, ← List.append_assoc] at hleft
          exact .intro rfl hwritten hthrough (fun e' he' => huntouched e' (List.mem_append_left _ he')) hleft

theorem Mirrors.valueAt {limits : Json.Limits} {s : Server} {m : Shadow} (h : Mirrors limits s m) (key : String) :
    s.valueAt limits key = match m key with
      | some x => x.value
      | none => .null := by
  rw [Server.valueAt, h.entries]
  cases hm : m key with
  | none => rfl
  | some x =>
    have hread := h.readable key x hm
    simp only [Option.map_some, Kept.entry, hread]

/-- The store mirrors the map before and after every operation of a run. Only a write that is futile makes no
call; an operation that does not go through lets time pass and does nothing else. A read that goes through
answers with the value that stands, if there is one, and with null elsewhere; one that fails answers with null. -/
theorem store_follows_map {w : World} (hempty : ∀ key, w.server.find? key = none)
    (hfaults : w.network.Contained) {deeds : List Deed} {past rest : List (Event Deed Json)}
    {e : Event Deed Json} (h : record Deed.op deeds w = past ++ e :: rest) :
    Mirrors w.memory.limits e.before.server (Shadow.after past) ∧
      Mirrors w.memory.limits e.after.server (Shadow.after (past ++ [e])) ∧
      (e.exchanges = [] → e.deed.IsFutile e.before.memory) ∧
      (e.succeeded = false → e.after.server = e.before.server.waits e.pauses) ∧
      ∀ key, e.deed = .get key →
        (e.succeeded = true → ∀ x, Standing past e.pauses key x → e.outcome = .ok x.value) ∧
        ((e.succeeded = true → ¬ ∃ x, Standing past e.pauses key x) → e.outcome = .ok .null) := by
  have hstart : Mirrors w.memory.limits w.server (Shadow.after []) ∧ w.memory.limits = w.memory.limits ∧
      w.network.Contained := by
    refine ⟨⟨fun key => ?_, ?_⟩, rfl, hfaults⟩
    · rw [hempty]
      rfl
    · rintro key x ⟨⟩
  have hstep : ∀ (past : List (Event Deed Json)) (e : Event Deed Json),
      (Mirrors w.memory.limits e.before.server (Shadow.after past) ∧ e.before.memory.limits = w.memory.limits ∧
        e.before.network.Contained) → e.Performs Deed.op →
        Mirrors w.memory.limits e.after.server (Shadow.after (past ++ [e])) ∧
          e.after.memory.limits = w.memory.limits ∧ e.after.network.Contained := by
    rintro past e ⟨hm, hlimits, hw⟩ he
    obtain ⟨hsettled, hsame, -⟩ := deed_settled he hw
    rw [Shadow.after_append, ← hlimits]
    exact ⟨mirrors_step he hw (hlimits ▸ hm), hsame, hsettled.traced.contained hw⟩
  obtain ⟨⟨hbefore, hlimits, hw⟩, he⟩ := record_invariant
    (P := fun past w' => Mirrors w.memory.limits w'.server (Shadow.after past) ∧
      w'.memory.limits = w.memory.limits ∧ w'.network.Contained) hstep hstart h
  obtain ⟨hsettled, -, hfutile, -, hanswer⟩ := deed_settled he hw
  rw [← hlimits] at hbefore ⊢
  refine ⟨hbefore, ?_, hfutile, hsettled.failed, fun key hkey => ?_⟩
  · rw [Shadow.after_append]
    exact mirrors_step he hw hbefore
  · have houtcome := hanswer key hkey
    rw [(hbefore.waits e.pauses).valueAt] at houtcome
    refine ⟨fun hthrough x hx => ?_, fun hnone => ?_⟩
    · rw [hthrough, if_pos rfl, (waits_after_iff past e.pauses key x).2 hx] at houtcome
      exact houtcome
    · cases hthrough : e.succeeded with
      | false =>
        rw [hthrough] at houtcome
        exact houtcome
      | true =>
        rw [hthrough, if_pos rfl] at houtcome
        cases hx : Kept.waits e.pauses (Shadow.after past key) with
        | none =>
          rw [hx] at houtcome
          exact houtcome
        | some x => exact absurd ⟨x, (waits_after_iff past e.pauses key x).1 hx⟩ (hnone hthrough)

/-- An empty store whose server reads brackets as classes. -/
def classing : World := { World.fresh [] with server := ⟨Table.ofRows [], .default, .classes⟩ }

/-- A value is written, read back and mirrored. Where brackets are read as classes, one of two values is removed by a
pattern with a class, and the other one stays. -/
theorem store_follows_map_write_read :
    (∃ past e, record Deed.op [.set "k" (.int 7) rfl (some (.whole 5)), .get "k"] (World.fresh []) = past ++ [e] ∧
      e.outcome = .ok (.int 7) ∧ Mirrors .standard e.after.server (Shadow.after (past ++ [e]))) ∧
    ∃ past e e', record Deed.op [.set "k1" (.int 7) rfl (some (.whole 5)), .set "k3" (.int 8) rfl (some (.whole 5)),
        .deleteByPattern "k[12]", .get "k1", .get "k3"] classing = past ++ [e, e'] ∧
      e.outcome = .ok .null ∧ e'.outcome = .ok (.int 8) ∧
      Mirrors .standard e.after.server (Shadow.after (past ++ [e])) := by
  refine ⟨?_, ?_⟩
  · have h : record Deed.op [.set "k" (.int 7) rfl (some (.whole 5)), .get "k"] (World.fresh []) = [_] ++ _ :: [] :=
      rfl
    exact ⟨[_], _, h, rfl, (store_follows_map (fun _ => rfl) (World.contained_fresh []) h).2.1⟩
  · have h : record Deed.op [.set "k1" (.int 7) rfl (some (.whole 5)), .set "k3" (.int 8) rfl (some (.whole 5)),
        .deleteByPattern "k[12]", .get "k1", .get "k3"] classing = [_, _, _] ++ _ :: [_] := rfl
    have hfaults : classing.network.Contained := World.contained_fresh []
    refine ⟨[_, _, _], _, _, h, ?_, ?_, (store_follows_map (fun _ => rfl) hfaults h).2.1⟩
    · with_unfolding_all rfl
    · with_unfolding_all rfl

end CacheAside.Cache
