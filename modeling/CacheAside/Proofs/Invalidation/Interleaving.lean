import CacheAside.Proofs.Cache.Shared
import CacheAside.Proofs.Run.Protocol
import CacheAside.Proofs.Invalidation.Clearing
import CacheAside.Proofs.Invalidation.Dropping

/-! # Sweeps that run at once

Dropping all news and clearing everything start several sweeps at once, and each one removes a list of keys that
may be out of date by then. The order does not matter: a key that was listed is gone once its sweep is over,
whoever removed it, nothing else is touched, and since the server counts only keys that are still there, every
entry is counted by exactly one sweep. -/

namespace CacheAside
set_option autoImplicit false

/-! ## Sweeps and their stages -/

namespace Sweep

/-- How far a sweep has come. -/
inductive Stage where
  | fresh
  | listed (keys : List String)
  | removed (count : ℕ)

namespace Stage

/-- How many entries the sweep has removed. -/
def count : Stage → ℕ
  | .removed n => n
  | _ => 0

def IsOver : Stage → Prop
  | .removed _ => True
  | .listed keys => keys = []
  | .fresh => False

def next : Stage → (c : Command) → c.Reply → Stage
  | .fresh, .list _, keys => .listed keys
  | _, .remove _, n => .removed n
  | s, _, _ => s

end Stage

inductive Allows : Sweep → Stage → Command → Prop
  | opening (x : Sweep) (s : Stage) (endpoint : Endpoint) : Allows x s (.open endpoint)
  | list (p : String) : Allows (.pattern p) .fresh (.list p)
  | removeListed (p : String) (keys : List String) : Allows (.pattern p) (.listed keys) (.remove keys)
  | removeKey (k : String) : Allows (.single k) .fresh (.remove [k])

def protocol (x : Sweep) : Protocol Stage where
  allows := x.Allows
  next := Stage.next
  leads s s' := s' = s
  stays _ := rfl
  allows_open := Allows.opening x
  next_open s _ := by cases s <;> rfl

/-- A sweep by pattern answers what it removed. -/
theorem keeps_deleteByPattern (p : String) (b : Core) (m : Memory) :
    (Cache.deleteByPattern p).Keeps (protocol (.pattern p)).conduct
      (fun r s _ _ => ∃ n, r = .ok n ∧ n = s.count ∧ s.IsOver) .fresh b m := by
  refine Cache.keeps_deleteByPattern p ⟨rfl, .list p, fun keys _ m' _ => ?_⟩
  refine ⟨fun hnone => ⟨0, rfl, rfl, hnone⟩, fun _ => ?_⟩
  exact ⟨.listed keys, rfl, .removeListed p keys, fun n _ m' _ => ⟨n, rfl, rfl, trivial⟩⟩

theorem keeps_delete (k : String) (b : Core) (m : Memory) :
    (Cache.delete k).Keeps (protocol (.single k)).conduct (fun r s _ _ => ∃ u, r = .ok u ∧ s.IsOver) .fresh b m :=
  Cache.keeps_delete k ⟨rfl, .removeKey k, fun _ _ _ _ => ⟨(), rfl, trivial⟩⟩

/-! ## The server meanwhile -/

/-- A server on the way from `start` on which the sweeps of a plan have come to their stages. -/
structure Underway {ι : Type} (plan : ι → Sweep) (parts : Finset ι) (start : Server) (s : ι → Stage) (server : Server) :
    Prop where
  matcher : server.matcher = start.matcher
  entries : ∀ key, server.find? key = start.find? key ∨
    server.find? key = none ∧ ∃ i ∈ parts, (plan i).covers start.matcher key = true
  listed : ∀ i ∈ parts, ∀ keys, s i = .listed keys → (∀ key ∈ keys, (plan i).covers start.matcher key = true) ∧
    ∀ key, (plan i).covers start.matcher key = true → server.find? key ≠ none → key ∈ keys
  removed : ∀ i ∈ parts, ∀ count, s i = .removed count → ∀ key, (plan i).covers start.matcher key = true →
    server.find? key = none
  counted : server.entries.size + ∑ i ∈ parts, (s i).count = start.entries.size

namespace Underway
variable {ι : Type} {plan : ι → Sweep} {parts : Finset ι} {start server : Server} {s : ι → Stage} {i : ι}

theorem start_of_fresh (plan : ι → Sweep) (parts : Finset ι) (start : Server) :
    Underway plan parts start (fun _ => .fresh) start where
  matcher := rfl
  entries _ := .inl rfl
  listed _ _ keys h := by cases h
  removed _ _ count h := by cases h
  counted := by
    have hnone : ∑ _i ∈ parts, Stage.fresh.count = 0 := Finset.sum_eq_zero fun _ _ => rfl
    rw [hnone, Nat.add_zero]

/-- When every sweep is over, exactly what one of them covers is gone. -/
theorem complete (h : Underway plan parts start s server) (hover : ∀ i ∈ parts, (s i).IsOver) (key : String) :
    server.find? key = if ∃ i ∈ parts, (plan i).covers start.matcher key = true then none else start.find? key := by
  split
  · rename_i hcovered
    obtain ⟨i, hi, hcovers⟩ := hcovered
    have hstage := hover i hi
    cases hs : s i with
    | fresh =>
      rw [hs] at hstage
      exact hstage.elim
    | listed keys =>
      rw [hs] at hstage
      by_contra hfound
      have hkey := (h.listed i hi keys hs).2 key hcovers hfound
      rw [show keys = [] from hstage] at hkey
      cases hkey
    | removed count => exact h.removed i hi count hs key hcovers
  · rename_i hnot
    exact (h.entries key).resolve_right fun hgone => hnot hgone.2

variable [DecidableEq ι]

theorem sum_count_update (s : ι → Stage) (hi : i ∈ parts) (next : Stage) :
    ∑ j ∈ parts, (Function.update s i next j).count + (s i).count = ∑ j ∈ parts, (s j).count + next.count := by
  have hothers : ∑ j ∈ parts.erase i, (Function.update s i next j).count = ∑ j ∈ parts.erase i, (s j).count :=
    Finset.sum_congr rfl fun j hj => by rw [Function.update_of_ne (Finset.ne_of_mem_erase hj)]
  have hafter := Finset.add_sum_erase _ (fun j => (Function.update s i next j).count) hi
  have hbefore := Finset.add_sum_erase _ (fun j => (s j).count) hi
  simp only [Function.update_self] at hafter
  omega

/-- Listing what matches a pattern. -/
theorem list (h : Underway plan parts start s server) (hi : i ∈ parts) {p : String} (hplan : plan i = .pattern p)
    (hs : s i = .fresh) : Underway plan parts start (Function.update s i (.listed (server.matching p))) server := by
  refine ⟨h.matcher, h.entries, fun j hj keys hkeys => ?_, fun j hj count hcount => ?_, ?_⟩
  · rcases eq_or_ne j i with rfl | hne
    · rw [Function.update_self] at hkeys
      cases hkeys
      rw [hplan]
      have hmatching := Server.mem_matching server p
      simp only [h.matcher] at hmatching
      refine ⟨fun key hkey => ((hmatching key).1 hkey).2, fun key hcovers hfound => ?_⟩
      exact (hmatching key).2 ⟨Option.ne_none_iff_exists'.1 hfound, hcovers⟩
    · rw [Function.update_of_ne hne] at hkeys
      exact h.listed j hj keys hkeys
  · rcases eq_or_ne j i with rfl | hne
    · rw [Function.update_self] at hcount
      cases hcount
    · rw [Function.update_of_ne hne] at hcount
      exact h.removed j hj count hcount
  · have hsum := sum_count_update s hi (.listed (server.matching p))
    rw [hs] at hsum
    rw [← h.counted]
    exact congrArg _ hsum

/-- Removing keys of which nothing that the sweep covers is missing. -/
theorem remove (h : Underway plan parts start s server) (hi : i ∈ parts) {keys : List String}
    (hcount : (s i).count = 0) (hcovered : ∀ key ∈ keys, (plan i).covers start.matcher key = true)
    (hall : ∀ key, (plan i).covers start.matcher key = true → server.find? key ≠ none → key ∈ keys) :
    Underway plan parts start (Function.update s i (.removed (server.apply (.remove keys)).1))
      (server.apply (.remove keys)).2 := by
  have hfind : ∀ key, (server.without keys).find? key = if key ∈ keys then none else server.find? key :=
    Server.find?_without server keys
  have hgone : ∀ key, server.find? key = none → (server.without keys).find? key = none := by
    intro key hkey
    rw [hfind, hkey, ite_self]
  refine ⟨h.matcher, fun key => ?_, fun j hj listed hlisted => ?_, fun j hj count hremoved key hcovers => ?_, ?_⟩
  · change (server.without keys).find? key = _ ∨ (server.without keys).find? key = none ∧ _
    rw [hfind]
    split
    · rename_i hkey
      exact .inr ⟨rfl, i, hi, hcovered key hkey⟩
    · exact h.entries key
  · rcases eq_or_ne j i with rfl | hne
    · rw [Function.update_self] at hlisted
      cases hlisted
    · rw [Function.update_of_ne hne] at hlisted
      obtain ⟨honly, hcomplete⟩ := h.listed j hj listed hlisted
      exact ⟨honly, fun key hcovers hfound => hcomplete key hcovers fun hnone => hfound (hgone key hnone)⟩
  · rcases eq_or_ne j i with rfl | hne
    · change (server.without keys).find? key = none
      by_cases hnone : server.find? key = none
      · exact hgone key hnone
      · rw [hfind, if_pos (hall key hcovers hnone)]
    · rw [Function.update_of_ne hne] at hremoved
      exact hgone key (h.removed j hj count hremoved key hcovers)
  · have hsum := sum_count_update s hi (.removed (server.entries.size - (server.without keys).entries.size))
    have hle : (server.without keys).entries.size ≤ server.entries.size := List.length_filter_le _ _
    have hcounted := h.counted
    change (server.without keys).entries.size + ∑ j ∈ parts, (Function.update s i
      (.removed (server.entries.size - (server.without keys).entries.size)) j).count = _
    rw [hcount, Stage.count] at hsum
    omega

/-- Every command of every sweep keeps the server on its way. -/
theorem apply (h : Underway plan parts start s server) (hi : i ∈ parts) {c : Command}
    (hallows : (plan i).Allows (s i) c) :
    Underway plan parts start (Function.update s i ((s i).next c (server.apply c).1)) (server.apply c).2 := by
  generalize hplan : plan i = x at hallows
  generalize hs : s i = stage at hallows
  cases hallows with
  | opening _ _ endpoint =>
    have hopen : stage.next (.open endpoint) (server.apply (.open endpoint)).1 = s i := by
      rw [hs]
      cases stage <;> rfl
    rw [hopen, Function.update_eq_self]
    exact h
  | list p => exact h.list hi hplan hs
  | removeListed p keys =>
    obtain ⟨honly, hcomplete⟩ := h.listed i hi keys hs
    exact h.remove hi (by rw [hs]; rfl) honly hcomplete
  | removeKey k =>
    refine h.remove hi (by rw [hs]; rfl) (fun key hkey => ?_) fun key hcovers _ => ?_
    · rw [hplan, List.mem_singleton.1 hkey]
      exact decide_eq_true (rfl : k = k)
    · rw [hplan] at hcovers
      exact List.mem_singleton.2 (of_decide_eq_true (p := key = k) hcovers)

end Underway

/-! ## Sweeps at once -/

variable {n : ℕ}

/-- The sweeps of a plan, taken in turns. -/
def together (plan : ℕ → Sweep) (n : ℕ) : Protocol ((ℕ → Stage) × ℕ) := .together (fun i => (plan i).protocol) n

theorem eq_of_leads {plan : ℕ → Sweep} {s s' : (ℕ → Stage) × ℕ} (h : (together plan n).leads s s') :
    s'.1 = s.1 ∧ (s.2 < n → s'.2 < n) := by
  obtain ⟨hstages, hturn⟩ := h
  refine ⟨funext hstages, fun hs => ?_⟩
  rcases hturn with hturn | hturn
  · rwa [hturn]
  · exact hturn

theorem upholds_together (plan : ℕ → Sweep) (start : Server) : (together plan n).Upholds fun s server =>
    Underway plan (Finset.range n) start s.1 server ∧ s.2 < n where
  leads := by
    rintro s s' server ⟨hunderway, hturn⟩ hleads
    obtain ⟨hstages, hturn'⟩ := eq_of_leads hleads
    rw [hstages]
    exact ⟨hunderway, hturn' hturn⟩
  apply := by
    rintro s server c ⟨hunderway, hturn⟩ hallows
    exact ⟨hunderway.apply (Finset.mem_range.2 hturn) hallows, hturn⟩

theorem stages_update (s : ℕ → (ℕ → Stage) × ℕ) (i j turn : ℕ) (next : Stage) :
    (fun k : ℕ × ℕ => (Function.update s i (Function.update (s i).1 j next, turn) k.1).1 k.2) =
      Function.update (fun k : ℕ × ℕ => (s k.1).1 k.2) (i, j) next := by
  funext k
  by_cases hi : k.1 = i
  · by_cases hj : k.2 = j
    · rw [show k = (i, j) from Prod.ext hi hj]
      simp only [Function.update_self]
    · rw [Function.update_of_ne (fun h => hj (congrArg Prod.snd h)), hi, Function.update_self]
      exact Function.update_of_ne hj _ _
  · rw [Function.update_of_ne hi, Function.update_of_ne fun h => hi (congrArg Prod.fst h)]

/-- The same plan several times at once. -/
theorem upholds_together_often (plan : ℕ → Sweep) (k : ℕ) (start : Server) :
    (Protocol.together (fun _ => together plan n) k).Upholds fun s server =>
      Underway (fun i : ℕ × ℕ => plan i.2) (Finset.range k ×ˢ Finset.range n) start (fun i => (s.1 i.1).1 i.2) server ∧
        s.2 < k ∧ ∀ i, (s.1 i).2 < n where
  leads := by
    rintro s s' server ⟨hunderway, hturn, hturns⟩ ⟨hleads, hturn'⟩
    have hstages : (fun i : ℕ × ℕ => (s'.1 i.1).1 i.2) = fun i => (s.1 i.1).1 i.2 :=
      funext fun i => congrFun (eq_of_leads (hleads i.1)).1 i.2
    rw [hstages]
    refine ⟨hunderway, ?_, fun i => (eq_of_leads (hleads i)).2 (hturns i)⟩
    rcases hturn' with hturn' | hturn'
    · rwa [hturn']
    · exact hturn'
  apply := by
    rintro ⟨s, turn⟩ server c ⟨hunderway, hturn, hturns⟩ hallows
    have hmem : (turn, (s turn).2) ∈ Finset.range k ×ˢ Finset.range n :=
      Finset.mem_product.2 ⟨Finset.mem_range.2 hturn, Finset.mem_range.2 (hturns turn)⟩
    have hnext := hunderway.apply hmem hallows
    rw [← stages_update s turn (s turn).2 (s turn).2] at hnext
    refine ⟨hnext, hturn, fun i => ?_⟩
    change (Function.update s turn _ i).2 < n
    rcases eq_or_ne i turn with rfl | hne
    · rw [Function.update_self]
      exact hturns i
    · rw [Function.update_of_ne hne]
      exact hturns i

end Sweep

/-! ## Dropping news and clearing everything -/

namespace News

/-- What each of the tasks of dropping all news sweeps away. -/
def dropAllPlan : ℕ → Sweep
  | 0 => .pattern (Category.news.start ++ ":*")
  | 1 => .pattern (Category.newsTrending.start ++ ":*")
  | _ => .single (categoryKey everything)

theorem keeps_dropAllTasks {i : ℕ} {op : Op Unit} (hop : dropAllTasks[i]? = some op) (b : Core) (m : Memory) :
    op.Keeps (dropAllPlan i).protocol.conduct (fun r s _ _ => ∃ u, r = .ok u ∧ s.IsOver) .fresh b m := by
  have hpattern : ∀ p, (discard (Cache.deleteByPattern p) : Op Unit).Keeps (Sweep.pattern p).protocol.conduct
      (fun r s _ _ => ∃ u, r = .ok u ∧ s.IsOver) .fresh b m := by
    intro p
    refine Op.Keeps.discard (Op.Keeps.mono (fun r s _ _ hr => ?_) (Sweep.keeps_deleteByPattern p b m))
    obtain ⟨n, rfl, -, hover⟩ := hr
    exact ⟨(), rfl, hover⟩
  rcases i with _ | _ | _ | i <;> cases hop
  · exact hpattern _
  · exact hpattern _
  · exact Sweep.keeps_delete _ b m

theorem dropAllPlan_covers (m : Matcher) (key : String) :
    (∃ i ∈ Finset.range 3, (dropAllPlan i).covers m key = true) ↔
      key = "cache:news" ∨ Key.beginsWith key "cache:news:" = true := by
  have hplan : (List.range 3).map dropAllPlan = allSweeps := rfl
  have hany : (∃ i ∈ Finset.range 3, (dropAllPlan i).covers m key = true) ↔
      (allSweeps.any fun x => x.covers m key) = true := by
    rw [← hplan, List.any_map, List.any_eq_true]
    simp only [Finset.mem_range, List.mem_range, Function.comp_apply]
  rw [hany, any_allSweeps, Bool.or_eq_true, decide_eq_true_eq]

theorem keeps_dropAllIn (order : List ℕ) (b : Core) {m : Memory} (houtages : m.outages = []) :
    (dropAllIn order).Keeps (Sweep.together dropAllPlan 3).conduct
      (fun r s _ _ => r = .ok () ∧ ∀ i < 3, (s.1 i).IsOver) (fun _ => .fresh, 0) b m := by
  refine Op.Keeps.duty houtages (Op.Keeps.discard (Op.Keeps.mono (fun r s _ _ hr => ?_)
    (Op.Keeps.gather (fun i op => keeps_dropAllTasks) order 0 b m)))
  obtain ⟨as, rfl, hlength, hover⟩ := hr
  exact ⟨rfl, fun i hi => hover i _ (List.getElem?_eq_getElem (hlength ▸ hi))⟩

end News

namespace Invalidation

def clearPlan (i : ℕ) : Sweep := .pattern (clearPatterns.getD i "")

theorem keeps_clearTasks {i : ℕ} {op : Op ℕ} (hop : clearTasks[i]? = some op) (b : Core) (m : Memory) :
    op.Keeps (clearPlan i).protocol.conduct (fun r s _ _ => ∃ n, r = .ok n ∧ n = s.count ∧ s.IsOver) .fresh b m := by
  rw [clearTasks, List.getElem?_map] at hop
  obtain ⟨p, hp, rfl⟩ := Option.map_eq_some_iff.1 hop
  rw [clearPlan, List.getD_eq_getElem?_getD, hp]
  exact Sweep.keeps_deleteByPattern p b m

theorem clearPlan_covers (m : Matcher) (key : String) :
    (∃ i ∈ Finset.range 3, (clearPlan i).covers m key = true) ↔ isCleared key = true := by
  have hplan : (List.range 3).map clearPlan = clearPatterns.map .pattern := rfl
  have hany : (∃ i ∈ Finset.range 3, (clearPlan i).covers m key = true) ↔
      ((clearPatterns.map Sweep.pattern).any fun x => x.covers m key) = true := by
    rw [← hplan, List.any_map, List.any_eq_true]
    simp only [Finset.mem_range, List.mem_range, Function.comp_apply]
  rw [hany, isCleared_iff_matches m, List.any_map]
  rfl

/-- A clearing answers what its sweeps have removed together. -/
theorem keeps_clearAllIn (order : List ℕ) (b : Core) (m : Memory) :
    (clearAllIn order).Keeps (Sweep.together clearPlan 3).conduct (fun r s _ _ => ∃ n, r = .ok n ∧
      n = ∑ i ∈ Finset.range 3, (s.1 i).count ∧ ∀ i < 3, (s.1 i).IsOver) (fun _ => .fresh, 0) b m := by
  refine Op.Keeps.bind (Op.Keeps.modify (Op.Keeps.bind (Op.Keeps.mono (fun r s _ _ hr => ?_)
    (Op.Keeps.gather (fun i op => keeps_clearTasks) order 0 _ _))))
  obtain ⟨as, rfl, hlength, hvalues⟩ := hr
  obtain ⟨first, second, third, rfl⟩ := List.length_eq_three.1 hlength
  obtain ⟨hfirst, hover₀⟩ := hvalues 0 first rfl
  obtain ⟨hsecond, hover₁⟩ := hvalues 1 second rfl
  obtain ⟨hthird, hover₂⟩ := hvalues 2 third rfl
  refine ⟨_, rfl, ?_, fun i hi => ?_⟩
  · simp only [Finset.sum_range_succ, Finset.sum_range_zero, List.foldr_cons, List.foldr_nil]
    omega
  · interval_cases i
    · exact hover₀
    · exact hover₁
    · exact hover₂

/-! ## The order makes no difference -/

variable {w : World}

theorem run_dropAllIn (hfails : w.network.NeverFails) (hprompt : w.network.IsPrompt) (houtages : w.memory.outages = [])
    (order : List ℕ) : ∃ w', (News.dropAllIn order).run w = (.ok (), w') ∧ ∀ key, w'.server.find? key =
      if key = "cache:news" ∨ Key.beginsWith key "cache:news:" = true then none else w.server.find? key := by
  obtain ⟨s, ⟨hunderway, -⟩, hok, hover⟩ := (Sweep.upholds_together News.dropAllPlan w.server).run hfails hprompt
    (News.keeps_dropAllIn order w.memory.core houtages)
    ⟨Sweep.Underway.start_of_fresh News.dropAllPlan _ w.server, Nat.zero_lt_succ 2⟩
  refine ⟨_, Prod.ext hok rfl, fun key => ?_⟩
  have hcovers := News.dropAllPlan_covers w.server.matcher key
  rw [hunderway.complete fun i hi => hover i (Finset.mem_range.1 hi)]
  simp only [hcovers]

theorem run_clearAllIn (hfails : w.network.NeverFails) (hprompt : w.network.IsPrompt) (order : List ℕ) :
    ∃ n w', (clearAllIn order).run w = (.ok n, w') ∧ w'.server.entries.size + n = w.server.entries.size ∧
      ∀ key, w'.server.find? key = if isCleared key then none else w.server.find? key := by
  obtain ⟨s, ⟨hunderway, -⟩, ⟨n, hok, hn, hover⟩⟩ := (Sweep.upholds_together clearPlan w.server).run hfails hprompt
    (keeps_clearAllIn order w.memory.core w.memory)
    ⟨Sweep.Underway.start_of_fresh clearPlan _ w.server, Nat.zero_lt_succ 2⟩
  refine ⟨n, _, Prod.ext hok rfl, hn ▸ hunderway.counted, fun key => ?_⟩
  have hcovers := clearPlan_covers w.server.matcher key
  rw [hunderway.complete fun i hi => hover i (Finset.mem_range.1 hi)]
  simp only [hcovers]

/-- Any number of clearings at once: each entry that goes is counted by one of them. -/
theorem run_gather_clearAllIn (hfails : w.network.NeverFails) (hprompt : w.network.IsPrompt) (schedule : List ℕ)
    {orders : List (List ℕ)} (hne : orders ≠ []) : ∃ totals w', (Op.gather schedule (orders.map clearAllIn)).run w =
      (.ok totals, w') ∧ totals.length = orders.length ∧ w'.server.entries.size + totals.sum = w.server.entries.size ∧
      ∀ key, w'.server.find? key = if isCleared key then none else w.server.find? key := by
  let begun : ℕ → (ℕ → Sweep.Stage) × ℕ := fun _ => (fun _ => .fresh, 0)
  have hclearing : ∀ (i : ℕ) (op : Op ℕ), (orders.map clearAllIn)[i]? = some op → ∀ b m,
      op.Keeps (Sweep.together clearPlan 3).conduct (fun r s _ _ => ∃ n, r = .ok n ∧
        n = ∑ j ∈ Finset.range 3, (s.1 j).count ∧ ∀ j < 3, (s.1 j).IsOver) (begun i) b m := by
    intro i op hop b m
    rw [List.getElem?_map] at hop
    obtain ⟨order, -, rfl⟩ := Option.map_eq_some_iff.1 hop
    exact keeps_clearAllIn order b m
  have hlength : (orders.map clearAllIn).length = orders.length := List.length_map _
  have hpositive : 0 < (orders.map clearAllIn).length := hlength ▸ List.length_pos_of_ne_nil hne
  obtain ⟨s, ⟨hunderway, -⟩, totals, hok, htotals, hvalues⟩ :=
    (Sweep.upholds_together_often clearPlan (orders.map clearAllIn).length w.server).run hfails hprompt
      (Op.Keeps.gather hclearing schedule 0 w.memory.core w.memory)
      ⟨Sweep.Underway.start_of_fresh _ _ w.server, hpositive, fun _ => Nat.zero_lt_succ 2⟩
  have hsum : totals.sum = ∑ i ∈ Finset.range (orders.map clearAllIn).length ×ˢ Finset.range 3,
      ((s.1 i.1).1 i.2).count := by
    rw [Finset.sum_product, ← htotals, Finset.sum_range, ← Fin.sum_univ_getElem]
    exact Finset.sum_congr rfl fun i _ => (hvalues i _ (List.getElem?_eq_getElem i.2)).1
  refine ⟨totals, _, Prod.ext hok rfl, htotals.trans hlength, hsum ▸ hunderway.counted, fun key => ?_⟩
  have hcovers := clearPlan_covers w.server.matcher key
  have hsome : (∃ i ∈ Finset.range (orders.map clearAllIn).length ×ˢ Finset.range 3,
      (clearPlan i.2).covers w.server.matcher key = true) ↔ isCleared key = true := by
    rw [← hcovers]
    constructor
    · rintro ⟨i, hi, hkey⟩
      exact ⟨i.2, (Finset.mem_product.1 hi).2, hkey⟩
    · rintro ⟨i, hi, hkey⟩
      exact ⟨(0, i), Finset.mem_product.2 ⟨Finset.mem_range.2 hpositive, hi⟩, hkey⟩
  rw [hunderway.complete fun i hi => ?_]
  · simp only [hsome]
  · obtain ⟨hfirst, hsecond⟩ := Finset.mem_product.1 hi
    have hmem : i.1 < totals.length := htotals ▸ Finset.mem_range.1 hfirst
    exact (hvalues i.1 _ (List.getElem?_eq_getElem hmem)).2 i.2 (Finset.mem_range.1 hsecond)

/-- Where no call fails and no time passes, the order in which the steps of sweeps that run at once follow on each
other makes no difference. Dropping all news leaves exactly the entries of other keys, clearing everything leaves
exactly those that are not cleared and answers how many are gone, and two clearings at once answer together how many
are gone. -/
theorem sweeps_in_any_order (hfails : w.network.NeverFails) (hprompt : w.network.IsPrompt) :
    (∀ order, w.memory.outages = [] → ∃ w', (News.dropAllIn order).run w = (.ok (), w') ∧
        ∀ key, w'.server.find? key =
          if key = "cache:news" ∨ Key.beginsWith key "cache:news:" = true then none else w.server.find? key) ∧
      (∀ order, ∃ n w', (clearAllIn order).run w = (.ok n, w') ∧
        w'.server.entries.size + n = w.server.entries.size ∧
        ∀ key, w'.server.find? key = if isCleared key then none else w.server.find? key) ∧
      (∀ schedule first second, ∃ n₁ n₂ w',
        (Op.gather schedule [clearAllIn first, clearAllIn second]).run w = (.ok [n₁, n₂], w') ∧
        w'.server.entries.size + (n₁ + n₂) = w.server.entries.size ∧
        ∀ key, w'.server.find? key = if isCleared key then none else w.server.find? key) := by
  refine ⟨fun order houtages => run_dropAllIn hfails hprompt houtages order,
    fun order => run_clearAllIn hfails hprompt order, fun schedule first second => ?_⟩
  obtain ⟨totals, w', hrun, hlength, hcounted, hentries⟩ :=
    run_gather_clearAllIn hfails hprompt schedule (List.cons_ne_nil first [second])
  obtain ⟨n₁, n₂, rfl⟩ := List.length_eq_two.1 hlength
  exact ⟨n₁, n₂, w', hrun, hcounted, hentries⟩

/-- The first clearing lists an entry, the second one lists and removes it, and only the second one counts it. -/
theorem sweeps_in_any_order_twice :
    ∃ w', (Op.gather [0, 0, 0, 0, 0, 1, 1, 1, 1] [clearAllIn [], clearAllIn []]).run
        (World.fresh [("cache:market:snapshot:XLM", ⟨"[1]", none⟩), ("k", ⟨"[2]", none⟩)]) = (.ok [0, 1], w') ∧
      w'.server.entries.size + (0 + 1) = 2 ∧ w'.server.find? "cache:market:snapshot:XLM" = none ∧
      w'.server.find? "k" = some ⟨"[2]", none⟩ := by
  have hcounts : ((Op.gather [0, 0, 0, 0, 0, 1, 1, 1, 1] [clearAllIn [], clearAllIn []]).run
      (World.fresh [("cache:market:snapshot:XLM", ⟨"[1]", none⟩), ("k", ⟨"[2]", none⟩)])).1 = .ok [0, 1] := by
    with_unfolding_all rfl
  obtain ⟨-, -, htwice⟩ := sweeps_in_any_order (World.neverFails_fresh _) (World.isPrompt_fresh _)
  obtain ⟨n₁, n₂, w', hrun, hcounted, hentries⟩ := htwice [0, 0, 0, 0, 0, 1, 1, 1, 1] [] []
  rw [hrun] at hcounts
  cases hcounts
  exact ⟨w', hrun, hcounted, hentries "cache:market:snapshot:XLM", hentries "k"⟩

end Invalidation
end CacheAside
