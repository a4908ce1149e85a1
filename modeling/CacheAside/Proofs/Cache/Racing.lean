import CacheAside.Proofs.Cache.Refinement
import CacheAside.Proofs.Cache.Shared
import CacheAside.Proofs.Cache.Standing

/-! # Reads of one key at once

Nothing keeps several reads of a key from missing at once: each of them then calls its provider and writes what
it delivers. Whatever the order, what stands under the key in the end is what one of the writes left there, every
read gives its own value or one that another read wrote, and there are as many misses as calls of providers. -/

namespace CacheAside
set_option autoImplicit false

/-- The misses counted in the bucket of a key. -/
def Core.misses (x : Core) (key : String) : ℕ := (x.tally.counter (x.tallyRegistry.bucket key)).misses

namespace Cache

/-- One of several reads of a key. Its provider delivers JSON that is not null, or fails. -/
structure Rival where
  provider : Op Payload
  delivery : Except Failure Json
  seconds : Option Seconds
  aloof : ∀ m, Task.Aloof (· = delivery.map Payload.json) (ExceptT.run provider) m
  named : ∀ v, delivery = .ok v → v.isWellNamed = true
  notNull : ∀ v, delivery = .ok v → v ≠ .null

def Rival.op (key : String) (r : Rival) : Op Payload := getOrSet key r.provider r.seconds

/-- A read for so many seconds whose provider waits once before it delivers a number. -/
def Rival.waiting (seconds n : ℕ) : Rival where
  provider := do
    Op.pause
    return .json (.int n)
  delivery := .ok (.int n)
  seconds := some (.whole seconds)
  aloof _ _ := rfl
  named := by
    rintro v ⟨⟩
    rfl
  notNull := by
    rintro v ⟨⟩
    exact Json.noConfusion

/-! ## Counting -/

/-- The rules are the same, and as many misses were counted in the bucket of a key as providers were called
for it. -/
structure Balanced (key : String) (x y : Core) : Prop where
  registry : y.registry = x.registry
  misfiled : y.misfiled = x.misfiled
  otherwise : y.otherwise = x.otherwise
  limits : y.limits = x.limits
  buckets : y.tallyRegistry = x.tallyRegistry
  counts : y.fetches.count key + x.misses key = x.fetches.count key + y.misses key

namespace Balanced
variable {key : String}

theorem refl (x : Core) : Balanced key x x := ⟨rfl, rfl, rfl, rfl, rfl, rfl⟩

theorem trans {x y z : Core} (h : Balanced key x y) (h' : Balanced key y z) : Balanced key x z := by
  refine ⟨h'.registry.trans h.registry, h'.misfiled.trans h.misfiled, h'.otherwise.trans h.otherwise,
    h'.limits.trans h.limits, h'.buckets.trans h.buckets, ?_⟩
  have hfirst := h.counts
  have hsecond := h'.counts
  omega

theorem hit (m : Memory) : Balanced key m.core (hitIn key m).core := by
  refine ⟨rfl, rfl, rfl, rfl, rfl, ?_⟩
  have hmisses : (hitIn key m).core.misses key = m.core.misses key := by
    change (Tally.counter (m.tally.put (m.bucket key) (m.tally.counter (m.bucket key)).addHit)
      (m.bucket key)).misses = _
    rw [Tally.counter, Table.find?_put, if_pos rfl]
    rfl
  rw [hmisses]
  rfl

theorem miss_fetch (m : Memory) : Balanced key m.core (fetchIn key (missIn key m)).core := by
  refine ⟨rfl, rfl, rfl, rfl, rfl, ?_⟩
  have hmisses : (fetchIn key (missIn key m)).core.misses key = m.core.misses key + 1 := by
    change (Tally.counter (m.tally.put (m.bucket key) (m.tally.counter (m.bucket key)).addMiss)
      (m.bucket key)).misses = _
    rw [Tally.counter, Table.find?_put, if_pos rfl]
    rfl
  have hfetches : (fetchIn key (missIn key m)).core.fetches.count key = m.core.fetches.count key + 1 :=
    List.count_cons_self
  omega

theorem delivered {x : Core} {m : Memory} (h : Balanced key x m.core) (p : Payload) :
    Balanced key x (deliveredIn key (.ok p) m).core :=
  ⟨h.registry, h.misfiled, h.otherwise, h.limits, h.buckets, h.counts⟩

theorem order {m m' : Memory} (h : Balanced key m.core m'.core) (value : Payload) (seconds : Option Seconds) :
    Cache.order m' key value seconds = Cache.order m key value seconds := by
  have hregistry : m'.registry = m.registry := h.registry
  have hmisfiled : m'.misfiled = m.misfiled := h.misfiled
  have hotherwise : m'.otherwise = m.otherwise := h.otherwise
  have hseconds : secondsFor m' key seconds = secondsFor m key seconds := by
    cases seconds with
    | some s => rfl
    | none => rw [secondsFor, secondsFor, hregistry, hmisfiled, hotherwise]
  have hlimits : m'.limits = m.limits := h.limits
  rw [Cache.order, Cache.order, hseconds, hlimits]

end Balanced

/-! ## Stages of a read -/

namespace Rival

/-- How far a read has come, with the text that it found or wrote. -/
inductive Stage where
  | asking
  | found (text : String)
  | missing
  | written (text : String) (left : Option Seconds)

def Stage.next : Stage → (c : Command) → c.Reply → Stage
  | .asking, .get _, some text => .found text
  | .asking, .get _, none => .missing
  | .missing, .set _ text, _ => .written text none
  | .missing, .setFor _ seconds text, _ => .written text (some seconds)
  | s, _, _ => s

theorem Stage.next_writing (key text : String) (left : Option Seconds) (reply : (writing key text left).Reply) :
    Stage.next .missing (writing key text left) reply = .written text left := by
  cases left <;> rfl

variable (key : String) (m₀ : Memory)

/-- What a read sends to be written, by the rules of the memory `m₀`. -/
def Writes (r : Rival) (text : String) (left : Option Seconds) : Prop :=
  ∃ v, r.delivery = .ok v ∧ order m₀ key (.json v) r.seconds = .ok (text, left)

inductive Allows (r : Rival) : Stage → Command → Prop
  | opening (s : Stage) (endpoint : Endpoint) : Allows r s (.open endpoint)
  | get : Allows r .asking (.get key)
  | write {text : String} {left : Option Seconds} (writes : r.Writes key m₀ text left) :
      Allows r .missing (writing key text left)

/-- Texts that are found can be read, and do not stand for null. -/
def Admits : (c : Command) → c.Reply → Prop
  | .get _, some text => ∃ v, v ≠ .null ∧ Json.read m₀.limits text = .ok v
  | _, _ => True

def conduct (r : Rival) : Conduct Stage where
  allows := r.Allows key m₀
  admits := Admits m₀
  next := Stage.next
  moves s x y s' := s' = s ∧ Balanced key x y
  rely := Balanced key
  stays _ x := ⟨rfl, Balanced.refl x⟩
  refl := Balanced.refl
  trans _ _ _ := Balanced.trans
  allows_open := .opening
  next_open s _ := by cases s <;> rfl

/-- What a read ends in at its last stage. -/
def Ends (r : Rival) (result : Except Failure Payload) : Stage → Prop
  | .asking => False
  | .found text => ∃ v, Json.read m₀.limits text = .ok v ∧ result = .ok (.json v)
  | .missing => result = r.delivery.map Payload.json ∧
      ∀ v, r.delivery = .ok v → ∃ f, order m₀ key (.json v) r.seconds = .error f
  | .written text left => result = r.delivery.map Payload.json ∧ r.Writes key m₀ text left

variable {key m₀}

theorem keeps_delivered (r : Rival) {b : Core} {m : Memory} (hrules : Balanced key m₀.core m.core)
    (hb : Balanced key b m.core) :
    Delivered (r.conduct key m₀) ((r.conduct key m₀).EndsIn (r.Ends key m₀)) key r.seconds
      (r.delivery.map Payload.json) .missing b m := by
  have hends : ∀ f, r.delivery = .error f →
      r.Ends key m₀ (.error f) .missing := fun f hf => ⟨by rw [hf]; rfl, fun v hv => by rw [hf] at hv; cases hv⟩
  cases hdelivery : r.delivery with
  | error f =>
    refine ⟨.missing, ⟨rfl, ?_⟩, hends f hdelivery⟩
    rw [core_failedIn]
    exact hb
  | ok v =>
    have horder : order (deliveredIn key (.ok (.json v)) m) key (.json v) r.seconds =
        order m₀ key (.json v) r.seconds :=
      (hrules.delivered (.json v)).order _ _
    refine keeps_set key (.json v) r.seconds (fun f hf => ?_) fun text left hsent => ?_
    · refine ⟨isContained_of_order hf, .missing, ⟨rfl, hb.delivered _⟩, by rw [hdelivery]; rfl, fun v' hv' => ?_⟩
      rw [hdelivery] at hv'
      cases hv'
      exact ⟨f, horder ▸ hf⟩
    · have hwrites : r.Writes key m₀ text left := ⟨v, hdelivery, horder ▸ hsent⟩
      refine ⟨.missing, ⟨rfl, hb.delivered _⟩, .write hwrites, fun reply _ m' _ => ?_⟩
      change (r.conduct key m₀).EndsIn _ _ (Stage.next .missing (writing key text left) reply) _ _
      rw [Stage.next_writing]
      refine ⟨.written text left, ⟨rfl, ?_⟩, by rw [hdelivery]; rfl, hwrites⟩
      rw [core_writtenIn]
      exact Balanced.refl _

theorem keeps_op (r : Rival) {m : Memory} (hrules : Balanced key m₀.core m.core) :
    (r.op key).Keeps (r.conduct key m₀) ((r.conduct key m₀).EndsIn (r.Ends key m₀)) .asking m.core m := by
  refine keeps_getOrSet key r.provider r.seconds ⟨⟨rfl, Balanced.refl _⟩, .get, fun reply hadmits m' hm' => ?_⟩
  have hlimits : m'.limits = m₀.limits := (hrules.trans hm').limits
  refine ⟨fun hhit => ?_, fun hmiss => ?_⟩
  · cases reply with
    | none => exact absurd rfl hhit
    | some text =>
      obtain ⟨v, -, hread⟩ := hadmits
      simp only [replied, readIn, hlimits, hread]
      exact ⟨.found text, ⟨rfl, Balanced.hit m'⟩, v, hread, rfl⟩
  · cases reply with
    | some text =>
      obtain ⟨v, hnull, hread⟩ := hadmits
      simp only [replied, hlimits, hread] at hmiss
      exact absurd hmiss hnull
    | none =>
      refine Task.Keeps.of_aloof (J := fun b x => Balanced key m₀.core x ∧ Balanced key b x) ?_ ?_
        (r.aloof _) ?_
      · rintro b x ⟨hx, hb⟩
        exact ⟨⟨rfl, hb⟩, fun y hy => ⟨hx.trans hy, Balanced.refl y⟩⟩
      · rintro _ rfl b m ⟨hm, hb⟩
        exact r.keeps_delivered hm hb
      · have hfetch : Balanced key m'.core (fetchIn key (missIn key m')).core := Balanced.miss_fetch m'
        exact ⟨(hrules.trans hm').trans hfetch, hfetch⟩

end Rival

/-! ## The store meanwhile -/

open Rival in
/-- Reads of a key at their stages in a world on the way from `start`: exactly the values that they have written
were written to the key, and what they have found was written by another one. -/
structure Contest (key : String) (rival : ℕ → Rival) (n : ℕ) (start : World) (s : ℕ → Stage) (w : World) :
    Prop where
  balanced : Balanced key start.memory.core w.memory.core
  run : ∃ exchanges, Traced start w exchanges ∧
    (∀ x ∈ exchanges, x.touches key = true →
      ∃ i < n, ∃ client text left, s i = .written text left ∧ x = ⟨client, writing key text left, none⟩) ∧
    ∀ i < n, ∀ text left, s i = .written text left → ∃ client, ⟨client, writing key text left, none⟩ ∈ exchanges
  written : ∀ i < n, ∀ text left, s i = .written text left → (rival i).Writes key start.memory text left
  found : ∀ i < n, ∀ text, s i = .found text → ∃ j < n, j ≠ i ∧ ∃ left, s j = .written text left

namespace Contest
open Rival
variable {key : String} {rival : ℕ → Rival} {n : ℕ} {start w w' : World} {s s' : ℕ → Stage}

theorem begin (start : World) : Contest key rival n start (fun _ => .asking) start where
  balanced := Balanced.refl _
  run := ⟨[], Traced.refl start, fun x hx => (List.not_mem_nil hx).elim, fun i _ text left h => by cases h⟩
  written _ _ text left h := by cases h
  found _ _ text h := by cases h

/-- What a write leaves under its key. -/
theorem leaves_writing {r : Rival} {text : String} {left : Option Seconds}
    (h : r.Writes key start.memory text left) : (writing key text left).leaves = some ⟨text, left⟩ := by
  obtain ⟨v, -, horder⟩ := h
  cases left with
  | none => rfl
  | some seconds =>
    change some (Entry.mk text seconds.unlessNull) = _
    rw [unlessNull_of_isPositive ((order_eq_ok horder).2 seconds rfl)]

/-- A text that stands under the key was written by one of the reads. -/
theorem exists_written (h : Contest key rival n start s w) (habsent : start.server.find? key = none) {e : Entry}
    (he : w.server.find? key = some e) : ∃ i < n, ∃ left, s i = .written e.text left := by
  obtain ⟨exchanges, htraced, htouches, -⟩ := h.run
  rcases htraced.find? key with ⟨-, hfind⟩ | ⟨later, x, earlier, hlast, hfind⟩
  · rw [he, habsent, Entry.aged_none] at hfind
    cases hfind
  · have hx : x ∈ exchanges := by
      rw [hlast.split]
      exact List.mem_append_right _ List.mem_cons_self
    obtain ⟨i, hi, client, text, left, hs, rfl⟩ := htouches x hx hlast.touches
    rw [leaves_writing (h.written i hi text left hs), he] at hfind
    exact ⟨i, hi, left, by rw [hs, Entry.text_aged hfind.symm]⟩

/-- So whatever a read finds can be read. -/
theorem admits (h : Contest key rival n start s w) (habsent : start.server.find? key = none) {i : ℕ} {c : Command}
    {stage : Stage} (hc : (rival i).Allows key start.memory stage c) : Admits start.memory c (w.reply c) := by
  cases hc with
  | opening stage endpoint => exact trivial
  | write writes =>
    rename_i text left
    cases left <;> exact trivial
  | get =>
    change Admits start.memory (.get key) (((w.server.wait _).find? key).map Entry.text)
    rw [Server.find?_wait]
    cases hfind : w.server.find? key with
    | none => exact trivial
    | some e =>
      cases hwait : e.wait (w.network.delay w.history (.get key)) with
      | none =>
        rw [Option.bind_some, hwait]
        exact trivial
      | some e' =>
        obtain ⟨j, hj, left, hs⟩ := h.exists_written habsent hfind
        obtain ⟨v, hv, horder⟩ := h.written j hj _ left hs
        obtain ⟨htext, hread⟩ := readable_of_text ((rival j).named v hv) (order_eq_ok horder).1
        rw [Option.bind_some, hwait]
        refine ⟨v, (rival j).notNull v hv, ?_⟩
        rw [Entry.text_wait hwait, htext]
        exact hread

/-- A step that makes one exchange. -/
theorem extend (h : Contest key rival n start s w) {x : Exchange} (htraced : Traced w w' [x])
    (hbalanced : Balanced key w.memory.core w'.memory.core)
    (hkept : ∀ j text left, s j = .written text left → s' j = .written text left)
    (htouches : x.touches key = true → ∃ i < n, ∃ client text left, s' i = .written text left ∧
      x = ⟨client, writing key text left, none⟩)
    (hwritten : ∀ j < n, ∀ text left, s' j = .written text left → s j = .written text left ∨
      (∃ client, x = ⟨client, writing key text left, none⟩) ∧ (rival j).Writes key start.memory text left)
    (hfound : ∀ j < n, ∀ text, s' j = .found text → s j = .found text ∨
      ∃ k < n, k ≠ j ∧ ∃ left, s k = .written text left) : Contest key rival n start s' w' := by
  obtain ⟨exchanges, hrun, hbefore, hmem⟩ := h.run
  refine ⟨h.balanced.trans hbalanced,
    ⟨x :: exchanges, hrun.trans htraced, fun y hy hyt => ?_, fun j hj text left hs => ?_⟩,
    fun j hj text left hs => ?_, fun j hj text hs => ?_⟩
  · rcases List.mem_cons.1 hy with rfl | hy
    · exact htouches hyt
    · obtain ⟨i, hi, client, text, left, hs, hwriting⟩ := hbefore y hy hyt
      exact ⟨i, hi, client, text, left, hkept i text left hs, hwriting⟩
  · rcases hwritten j hj text left hs with hs | ⟨⟨client, rfl⟩, -⟩
    · obtain ⟨client, hwriting⟩ := hmem j hj text left hs
      exact ⟨client, List.mem_cons_of_mem _ hwriting⟩
    · exact ⟨client, List.mem_cons_self⟩
  · rcases hwritten j hj text left hs with hs | ⟨-, hwrites⟩
    · exact h.written j hj text left hs
    · exact hwrites
  · obtain ⟨k, hk, hne, left, hs⟩ : ∃ k < n, k ≠ j ∧ ∃ left, s k = .written text left := by
      rcases hfound j hj text hs with hs | hk
      · exact h.found j hj text hs
      · exact hk
    exact ⟨k, hk, hne, left, hkept k text left hs⟩

theorem stride (h : Contest key rival n start s w) (hfails : w.network.NeverFails)
    (habsent : start.server.find? key = none) {i : ℕ} (hi : i < n) {next : Stage}
    (hstride : Stride ((rival i).conduct key start.memory) (s i) w next w') :
    Contest key rival n start (Function.update s i next) w' := by
  obtain ⟨_, -, hbalanced⟩ := hstride.moved
  have hself : Function.update s i (s i) = s := Function.update_eq_self i s
  rcases hstride.traced hfails with ⟨htraced, rfl, -⟩ | ⟨client, c, _, htraced, -, ⟨rfl, -⟩, hallowed, rfl⟩
  · obtain ⟨exchanges, hrun, htouches, hmem⟩ := h.run
    rw [hself]
    exact ⟨h.balanced.trans hbalanced, ⟨exchanges, hrun.trans htraced, htouches, hmem⟩, h.written, h.found⟩
  · change Contest key rival n start (Function.update s i (Stage.next (s i) c (w.reply c))) w'
    have hallows : (rival i).Allows key start.memory (s i) c := hallowed
    generalize hs : s i = stage at hallows
    -- the other reads stay at their stages, and so does what was written before
    have hothers : ∀ next, (∀ text left, stage ≠ .written text left) →
        ∀ j text left, s j = .written text left → Function.update s i next j = .written text left := by
      intro next hstage j text left hj
      rw [Function.update_of_ne, hj]
      rintro rfl
      exact hstage text left (hs ▸ hj)
    cases hallows with
    | opening _ endpoint =>
      have hopen : Stage.next stage (.open endpoint) (w.reply (.open endpoint)) = s i := by
        rw [hs]
        cases stage <;> rfl
      rw [hopen, hself]
      exact h.extend htraced hbalanced (fun _ _ _ hj => hj) (fun ht => by cases ht) (fun _ _ _ _ hj => .inl hj)
        fun _ _ _ hj => .inl hj
    | get =>
      refine h.extend htraced hbalanced (hothers _ fun _ _ => Stage.noConfusion) (fun ht => by cases ht)
        (fun j _ text left hj => .inl ?_) fun j hj text hfound => ?_
      · rcases eq_or_ne j i with rfl | hne
        · rw [Function.update_self] at hj
          generalize w.reply (.get key) = reply at hj
          cases reply <;> cases hj
        · rwa [Function.update_of_ne hne] at hj
      · rcases eq_or_ne j i with rfl | hne
        · rw [Function.update_self] at hfound
          cases hreply : w.reply (.get key) with
          | none =>
            rw [hreply] at hfound
            cases hfound
          | some text' =>
            rw [hreply] at hfound
            cases hfound
            obtain ⟨e', he', rfl⟩ := Option.map_eq_some_iff.1 hreply
            rw [Server.find?_wait] at he'
            obtain ⟨e, he, hwait⟩ := Option.bind_eq_some_iff.1 he'
            obtain ⟨k, hk, left, hsk⟩ := h.exists_written habsent he
            refine .inr ⟨k, hk, ?_, left, by rw [hsk, Entry.text_wait hwait]⟩
            rintro rfl
            rw [hs] at hsk
            cases hsk
        · rw [Function.update_of_ne hne] at hfound
          exact .inl hfound
    | write writes =>
      rename_i text left
      rw [Stage.next_writing]
      refine h.extend htraced hbalanced (hothers _ fun _ _ => Stage.noConfusion)
        (fun _ => ⟨i, hi, client, text, left, Function.update_self .., rfl⟩) (fun j _ text' left' hj => ?_)
        fun j _ text' hfound => .inl ?_
      · rcases eq_or_ne j i with rfl | hne
        · rw [Function.update_self] at hj
          cases hj
          exact .inr ⟨⟨client, rfl⟩, writes⟩
        · rw [Function.update_of_ne hne] at hj
          exact .inl hj
      · rcases eq_or_ne j i with rfl | hne
        · rw [Function.update_self] at hfound
          cases hfound
        · rwa [Function.update_of_ne hne] at hfound

/-- Where all reads have ended, their results go with what was written. -/
theorem of_ends {results : List (Except Failure Payload)} {schedule : List ℕ} (hfails : start.network.NeverFails)
    (habsent : start.server.find? key = none) (h : Pool.Ends schedule
      ((List.range n).map fun i => ExceptT.run ((rival i).op key)) start results w) :
    ∃ s, Contest key rival n start s w ∧
      ∀ i < n, ∃ result, results[i]? = some result ∧ (rival i).Ends key start.memory result (s i) := by
  have hlength : results.length = n := by rw [h.length, List.length_map, List.length_range]
  have hcompatible : Compatible fun i => (rival i).conduct key start.memory := fun _ _ _ _ _ _ _ hmoved => hmoved.2
  have hasking : Conducted (fun i => (rival i).conduct key start.memory)
      (fun i result s => (rival i).Ends key start.memory result s)
      ((List.range n).map fun i => ExceptT.run ((rival i).op key)) (fun _ => .asking) start.memory := by
    intro i t ht m' hm'
    rw [List.getElem?_map] at ht
    obtain ⟨j, hj, rfl⟩ := Option.map_eq_some_iff.1 ht
    obtain ⟨-, rfl⟩ := List.getElem?_eq_some_iff.1 hj
    rw [List.getElem_range]
    exact (rival i).keeps_op hm'
  have hnever : ∀ s w₁, Contest key rival n start s w₁ → w₁.network.NeverFails := by
    intro s w₁ hw₁
    obtain ⟨exchanges, htraced, -⟩ := hw₁.run
    exact htraced.neverFails hfails
  obtain ⟨s, hcontest, hconducted⟩ := Conducted.runSchedule hcompatible
    (fun s w₁ i s' c hw₁ _ hc => hw₁.admits habsent hc)
    (fun s w₁ i next w₂ hi hw₁ hstride => hw₁.stride (hnever s w₁ hw₁) habsent hi hstride) schedule
    (by rw [List.length_map, List.length_range]) hfails (Contest.begin start) hasking
  rw [h] at hcontest hconducted
  refine ⟨s, hcontest, fun i hi => ?_⟩
  rw [← hlength] at hi
  obtain ⟨_, ⟨rfl, -⟩, hend⟩ := hconducted.ended (List.getElem?_eq_getElem hi)
  exact ⟨results[i], List.getElem?_eq_getElem hi, hend⟩

end Contest

/-- However the commands of reads of a missing key follow on each other and whenever their providers deliver: in
the end there stands what the last of the writes left, less the time since, or nothing if nothing that was
delivered can be written. A read gives what its own provider came to or a value that another read wrote, and as
many misses are counted as providers were called. -/
theorem misses_do_not_mix {key : String} {n : ℕ} {rival : ℕ → Rival} {w w' : World}
    (hfails : w.network.NeverFails) (habsent : w.server.find? key = none) {schedule : List ℕ}
    {results : List (Except Failure Payload)}
    (h : Pool.Ends schedule ((List.range n).map fun i => ExceptT.run ((rival i).op key)) w results w') :
    ∃ exchanges, w'.history = exchanges ++ w.history ∧
      ((∃ i < n, ∃ v text left client later earlier, (rival i).delivery = .ok v ∧
          results[i]? = some (.ok (.json v)) ∧
          order w.memory key (.json v) (rival i).seconds = .ok (text, left) ∧
          exchanges = later ++ ⟨client, writing key text left, none⟩ :: earlier ∧
          w'.server.find? key = Entry.aged
            (w.network.pauses (⟨client, writing key text left, none⟩ :: earlier ++ w.history) later)
            (some ⟨text, left⟩) ∧
          (w.network.IsPrompt → w'.server.find? key = some ⟨text, left⟩)) ∨
        w'.server.find? key = none ∧ ∀ i < n, results[i]? = some ((rival i).delivery.map Payload.json) ∧
          ∀ v, (rival i).delivery = .ok v → ∃ f, order w.memory key (.json v) (rival i).seconds = .error f) ∧
      (∀ i < n, results[i]? = some ((rival i).delivery.map Payload.json) ∨
        ∃ j < n, j ≠ i ∧ ∃ v text left, (rival j).delivery = .ok v ∧ results[j]? = some (.ok (.json v)) ∧
          order w.memory key (.json v) (rival j).seconds = .ok (text, left) ∧
          (∃ client, ⟨client, writing key text left, none⟩ ∈ exchanges) ∧ results[i]? = some (.ok (.json v))) ∧
      w'.memory.fetches.count key + (w.memory.tally.counter (w.memory.bucket key)).misses =
        w.memory.fetches.count key + (w'.memory.tally.counter (w'.memory.bucket key)).misses := by
  obtain ⟨s, hcontest, hends⟩ := Contest.of_ends hfails habsent h
  obtain ⟨exchanges, htraced, htouches, hmem⟩ := hcontest.run
  -- a read that wrote gives the value that it wrote
  have hwritten : ∀ i < n, ∀ text left, s i = .written text left → ∃ v, (rival i).delivery = .ok v ∧
      results[i]? = some (.ok (.json v)) ∧ order w.memory key (.json v) (rival i).seconds = .ok (text, left) := by
    intro i hi text left hs
    obtain ⟨result, hresult, hend⟩ := hends i hi
    rw [hs] at hend
    obtain ⟨rfl, v, hv, horder⟩ := hend
    exact ⟨v, hv, by rw [hresult, hv]; rfl, horder⟩
  refine ⟨exchanges, htraced.history, ?_, fun i hi => ?_, hcontest.balanced.counts⟩
  · rcases htraced.find? key with ⟨huntouched, hfind⟩ | ⟨later, x, earlier, hlast, hfind⟩
    · -- nobody wrote, so nobody found anything
      have hnone : ∀ i < n, ∀ text left, s i ≠ .written text left := by
        intro i hi text left hs
        obtain ⟨client, hwriting⟩ := hmem i hi text left hs
        have htouched := huntouched _ hwriting
        cases left <;> simp [Exchange.touches, writing, Command.covers] at htouched
      refine .inr ⟨by rw [hfind, habsent, Entry.aged_none], fun i hi => ?_⟩
      obtain ⟨result, hresult, hend⟩ := hends i hi
      cases hs : s i with
      | asking =>
        rw [hs] at hend
        exact hend.elim
      | found text =>
        obtain ⟨j, hj, -, left, hsj⟩ := hcontest.found i hi text hs
        exact absurd hsj (hnone j hj text left)
      | missing =>
        rw [hs] at hend
        rw [hresult, hend.1]
        exact ⟨rfl, hend.2⟩
      | written text left => exact absurd hs (hnone i hi text left)
    · have hx : x ∈ exchanges := by
        rw [hlast.split]
        exact List.mem_append_right _ List.mem_cons_self
      obtain ⟨i, hi, client, text, left, hs, rfl⟩ := htouches x hx hlast.touches
      obtain ⟨v, hv, hresult, horder⟩ := hwritten i hi text left hs
      rw [Contest.leaves_writing (hcontest.written i hi text left hs)] at hfind
      refine .inl ⟨i, hi, v, text, left, client, later, earlier, hv, hresult, horder, hlast.split, hfind,
        fun hprompt => ?_⟩
      rw [hfind, Entry.aged_zero (Network.pauses_of_isPrompt hprompt _ _)]
  · obtain ⟨result, hresult, hend⟩ := hends i hi
    cases hs : s i with
    | asking =>
      rw [hs] at hend
      exact hend.elim
    | found text =>
      rw [hs] at hend
      obtain ⟨v, hread, rfl⟩ := hend
      obtain ⟨j, hj, hne, left, hsj⟩ := hcontest.found i hi text hs
      obtain ⟨v', hv', hresult', horder⟩ := hwritten j hj text left hsj
      obtain ⟨htext, hread'⟩ := readable_of_text ((rival j).named v' hv') (order_eq_ok horder).1
      obtain rfl : v = v' := Except.ok.inj (hread.symm.trans (htext ▸ hread'))
      exact .inr ⟨j, hj, hne, v, text, left, hv', hresult', horder, hmem j hj text left hsj, hresult⟩
    | missing =>
      rw [hs] at hend
      rw [hresult, hend.1]
      exact .inl rfl
    | written text left =>
      rw [hs] at hend
      rw [hresult, hend.1]
      exact .inl rfl

/-- Two reads miss, the second one writes first, and the first one's value stands in the end. -/
theorem misses_do_not_mix_two :
    ∃ results w', Pool.Ends [0, 0, 0, 0, 1, 1, 0, 0, 1, 1, 0, 1, 1, 1, 0, 0]
        ((List.range 2).map fun i => ExceptT.run ((Rival.waiting 60 i).op "k")) (World.fresh []) results w' ∧
      results = [.ok (.json (.int 0)), .ok (.json (.int 1))] ∧ (w'.server.find? "k").isSome = true ∧
      w'.memory.fetches.count "k" = (w'.memory.tally.counter (w'.memory.bucket "k")).misses := by
  have hends : Pool.Ends [0, 0, 0, 0, 1, 1, 0, 0, 1, 1, 0, 1, 1, 1, 0, 0]
      ((List.range 2).map fun i => ExceptT.run ((Rival.waiting 60 i).op "k")) (World.fresh [])
      [.ok (.json (.int 0)), .ok (.json (.int 1))] _ := Pool.Ends.of_fst (by with_unfolding_all rfl)
  generalize (Pool.runSchedule _ _ _).2 = w' at hends
  obtain ⟨exchanges, -, hstands, -, hcounts⟩ := misses_do_not_mix (World.neverFails_fresh []) rfl hends
  refine ⟨_, w', hends, rfl, ?_, hcounts.trans (Nat.zero_add _)⟩
  rcases hstands with ⟨i, -, v, text, left, client, later, earlier, -, -, -, -, -, hprompt⟩ | ⟨-, hnone⟩
  · rw [hprompt (World.isPrompt_fresh [])]
    rfl
  · obtain ⟨-, hunsent⟩ := hnone 0 two_pos
    obtain ⟨f, hf⟩ := hunsent _ rfl
    cases hf

end Cache
end CacheAside
