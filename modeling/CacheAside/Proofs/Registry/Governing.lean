import Mathlib.Tactic
import CacheAside.Registry

/-! # Which category governs a key

The one whose start the key begins with, the longest such start, and the first category of that start
(`Registry.Governs`). There is one whenever any start fits, and it is the only one, so the order of the
registry counts for equal starts alone. A search through the categories put in order of decreasing length finds
the same one, because equal lengths keep their order. Lifetime and bucket both follow it
(`Registry.governed_by_longest`). -/

namespace CacheAside
set_option autoImplicit false

theorem Category.owns_iff (c : Category) (key : String) : c.owns key = true ↔ c.start.toList <+: key.toList :=
  List.isPrefixOf_iff_prefix

/-- Two starts of one key that are equally long are one. -/
theorem start_eq_of_length_eq {key s t : String} (hs : s.toList <+: key.toList) (ht : t.toList <+: key.toList)
    (hlength : s.length = t.length) : s = t := by
  rw [← String.length_toList, ← String.length_toList] at hlength
  have hbegins := List.prefix_of_prefix_length_le hs ht hlength.le
  exact String.toList_inj.1 (hbegins.eq_of_length hlength)

namespace Registry

/-! ## Governing -/

/-- Of these categories the one that governs a key. -/
structure Governs (cs : List Category) (key : String) (c : Category) : Prop where
  begins : c.start.toList <+: key.toList
  longest : ∀ d ∈ cs, d.start.toList <+: key.toList → d.start.length ≤ c.start.length
  first : cs.find? (fun d => d.start = c.start) = some c

namespace Governs
variable {cs : List Category} {key : String} {c : Category}

theorem mem (h : Governs cs key c) : c ∈ cs := List.mem_of_find?_eq_some h.first

theorem unique {d : Category} (h : Governs cs key c) (h' : Governs cs key d) : c = d := by
  have hlength := le_antisymm (h'.longest c h.mem h.begins) (h.longest d h'.mem h'.begins)
  have hstart := start_eq_of_length_eq h.begins h'.begins hlength
  have hfirst := h.first
  rw [hstart, h'.first] at hfirst
  exact (Option.some.inj hfirst).symm

theorem head (hc : c.owns key = true) (h : ∀ d ∈ cs, d.start.toList <+: key.toList → d.start.length ≤ c.start.length) :
    Governs (c :: cs) key c := by
  refine ⟨(c.owns_iff key).1 hc, fun d hd hbegins => ?_, ?_⟩
  · rcases List.mem_cons.1 hd with rfl | hd
    · exact le_rfl
    · exact h d hd hbegins
  · rw [List.find?_cons_of_pos (by simp)]

/-- A category that does not own the key, or whose start is shorter, governs nothing in front of the others. -/
theorem cons {d : Category} (h : Governs cs key c) (hd : d.owns key = true → d.start.length < c.start.length) :
    Governs (d :: cs) key c := by
  refine ⟨h.begins, fun e he hbegins => ?_, ?_⟩
  · rcases List.mem_cons.1 he with rfl | he
    · exact (hd ((e.owns_iff key).2 hbegins)).le
    · exact h.longest e he hbegins
  · rw [List.find?_cons_of_neg, h.first]
    intro hstart
    have hstart : d.start = c.start := of_decide_eq_true hstart
    have hshorter := hd ((d.owns_iff key).2 (hstart ▸ h.begins))
    rw [hstart] at hshorter
    exact lt_irrefl _ hshorter

end Governs

variable {cs : List Category} {key : String}

theorem longest_eq_none_iff : longest key cs = none ↔ ∀ c ∈ cs, ¬c.start.toList <+: key.toList := by
  induction cs with
  | nil => simp [longest]
  | cons c cs ih =>
    rw [List.forall_mem_cons, ← ih, ← c.owns_iff, longest]
    cases longest key cs with
    | none => cases c.owns key <;> simp
    | some best =>
      simp only [reduceCtorEq, and_false, iff_false]
      split <;> simp

theorem governs_of_longest {c : Category} (h : longest key cs = some c) : Governs cs key c := by
  induction cs generalizing c with
  | nil => cases h
  | cons d cs ih =>
    rw [longest] at h
    cases hrest : longest key cs with
    | none =>
      have hnone := longest_eq_none_iff.1 hrest
      simp only [hrest, Option.ite_none_right_eq_some, Option.some.injEq] at h
      obtain ⟨hd, rfl⟩ := h
      exact Governs.head hd fun e he hbegins => absurd hbegins (hnone e he)
    | some best =>
      have hbest := ih hrest
      simp only [hrest] at h
      by_cases hd : d.owns key = true ∧ best.start.length ≤ d.start.length
      · rw [if_pos hd, Option.some.injEq] at h
        subst h
        exact Governs.head hd.1 fun e he hbegins => (hbest.longest e he hbegins).trans hd.2
      · rw [if_neg hd, Option.some.injEq] at h
        subst h
        refine hbest.cons fun howns => ?_
        exact lt_of_not_ge fun hle => hd ⟨howns, hle⟩

theorem longest_eq_some_iff {c : Category} : longest key cs = some c ↔ Governs cs key c := by
  refine ⟨governs_of_longest, fun h => ?_⟩
  cases hlongest : longest key cs with
  | none => exact absurd h.begins (longest_eq_none_iff.1 hlongest c h.mem)
  | some d => rw [h.unique (governs_of_longest hlongest)]

/-! ## Categories in order of length -/

/-- Whether the start of a category is at least as long as that of another one. -/
def isLonger (c d : Category) : Bool := d.start.length ≤ c.start.length

theorem isLonger_trans (c d e : Category) (h : isLonger c d = true) (h' : isLonger d e = true) :
    isLonger c e = true := by
  simp only [isLonger, decide_eq_true_eq] at h h' ⊢
  exact h'.trans h

theorem isLonger_total (c d : Category) : (isLonger c d || isLonger d c) = true := by
  simp only [isLonger, Bool.or_eq_true, decide_eq_true_eq]
  exact le_total _ _

/-- The categories with the longest starts first, those of equal length in the order that they had. -/
def byLength (cs : List Category) : List Category := cs.mergeSort isLonger

theorem pairwise_byLength (cs : List Category) : (byLength cs).Pairwise fun c d => isLonger c d = true :=
  List.pairwise_mergeSort isLonger_trans isLonger_total cs

/-- Categories of one start stay in the order that they had. -/
theorem filter_byLength (cs : List Category) (start : String) :
    (byLength cs).filter (fun c => c.start = start) = cs.filter fun c => c.start = start := by
  have hsame : (cs.filter fun c => c.start = start).Pairwise fun c d => isLonger c d = true := by
    refine List.pairwise_of_forall_mem_list fun c hc d hd => ?_
    have hc := of_decide_eq_true (List.mem_filter.1 hc).2
    have hd := of_decide_eq_true (List.mem_filter.1 hd).2
    simp [isLonger, hc, hd]
  have hsublist : (cs.filter fun c => c.start = start).Sublist (byLength cs) :=
    List.sublist_mergeSort isLonger_trans isLonger_total hsame List.filter_sublist
  have hfiltered := hsublist.filter fun c => c.start = start
  rw [List.filter_filter] at hfiltered
  simp only [Bool.and_self] at hfiltered
  refine (hfiltered.eq_of_length ?_).symm
  exact ((List.mergeSort_perm cs isLonger).filter _).length_eq.symm

/-- The first owner, with the longest starts put first, is the one that governs. -/
theorem longest_eq_find?_byLength (key : String) (cs : List Category) :
    longest key cs = (byLength cs).find? fun c => c.owns key := by
  have hmem : ∀ c, c ∈ byLength cs ↔ c ∈ cs := fun c => List.mem_mergeSort
  cases hfind : (byLength cs).find? fun c => c.owns key with
  | none =>
    rw [longest_eq_none_iff]
    intro c hc hbegins
    have hnot := List.find?_eq_none.1 hfind c ((hmem c).2 hc)
    exact hnot ((c.owns_iff key).2 hbegins)
  | some c =>
    obtain ⟨howns, before, after, hsplit, hbefore⟩ := List.find?_eq_some_iff_append.1 hfind
    have hbegins := (c.owns_iff key).1 howns
    rw [longest_eq_some_iff]
    refine ⟨hbegins, fun d hd hd' => ?_, ?_⟩
    · -- owners stand behind `c`, where the starts are no longer
      have hd := (hmem d).2 hd
      rw [hsplit] at hd
      have hsorted := pairwise_byLength cs
      rw [hsplit] at hsorted
      rcases List.mem_append.1 hd with hd | hd
      · have hnot := hbefore d hd
        rw [(d.owns_iff key).2 hd'] at hnot
        cases hnot
      · rcases List.mem_cons.1 hd with rfl | hd
        · exact le_rfl
        · exact of_decide_eq_true (List.rel_of_pairwise_cons (List.pairwise_append.1 hsorted).2.1 hd)
    · have hstarts := congrArg List.head? (filter_byLength cs c.start)
      rw [List.head?_filter, List.head?_filter, hsplit] at hstarts
      rw [← hstarts, List.find?_append, List.find?_eq_none.2, Option.none_or, List.find?_cons_of_pos (by simp)]
      intro d hd hstart
      have hstart : d.start = c.start := of_decide_eq_true hstart
      have hnot := hbefore d hd
      rw [(d.owns_iff key).2 (hstart ▸ hbegins)] at hnot
      cases hnot

/-! ## Other orders of the registry -/

/-- Where all starts differ, each category is the first of its start. -/
theorem first_of_nodup {c : Category} (h : (cs.map Category.start).Nodup) (hc : c ∈ cs) :
    cs.find? (fun d => d.start = c.start) = some c := by
  obtain ⟨d, hd⟩ : ∃ d, cs.find? (fun d => d.start = c.start) = some d := by
    rw [← Option.isSome_iff_exists, List.find?_isSome]
    exact ⟨c, hc, by simp⟩
  have hstart : d.start = c.start := by simpa using List.find?_some hd
  rw [hd, List.inj_on_of_nodup_map h (List.mem_of_find?_eq_some hd) hc hstart]

theorem governs_iff_of_nodup {c : Category} (h : (cs.map Category.start).Nodup) : Governs cs key c ↔
    c ∈ cs ∧ c.start.toList <+: key.toList ∧
      ∀ d ∈ cs, d.start.toList <+: key.toList → d.start.length ≤ c.start.length :=
  ⟨fun hc => ⟨hc.mem, hc.begins, hc.longest⟩, fun hc => ⟨hc.2.1, hc.2.2, first_of_nodup h hc.1⟩⟩

theorem longest_perm {ds : List Category} (h : (cs.map Category.start).Nodup) (hperm : ds.Perm cs) (key : String) :
    longest key ds = longest key cs := by
  have h' : (ds.map Category.start).Nodup := (hperm.map _).nodup_iff.2 h
  refine Option.ext fun c => ?_
  rw [longest_eq_some_iff, longest_eq_some_iff, governs_iff_of_nodup h, governs_iff_of_nodup h']
  simp only [hperm.mem_iff]

/-! ## Buckets -/

theorem mem_buckets_iff (r : Registry) (bucket : String) :
    bucket ∈ r.buckets ↔ ∃ c ∈ r.values, c.bucket = bucket := by
  have hfold : ∀ (cs : List Category) (acc : List String),
      bucket ∈ cs.foldl (fun acc c => if c.bucket ∈ acc then acc else acc ++ [c.bucket]) acc ↔
        bucket ∈ acc ∨ ∃ c ∈ cs, c.bucket = bucket := by
    intro cs
    induction cs with
    | nil => simp
    | cons c cs ih =>
      intro acc
      have hadded : bucket ∈ (if c.bucket ∈ acc then acc else acc ++ [c.bucket]) ↔
          bucket ∈ acc ∨ c.bucket = bucket := by
        split
        · rename_i hc
          refine (or_iff_left_of_imp ?_).symm
          rintro rfl
          exact hc
        · rw [List.mem_append, List.mem_singleton, eq_comm]
      rw [List.foldl_cons, ih, hadded, or_assoc]
      simp only [List.mem_cons, exists_eq_or_imp]
  rw [buckets, hfold]
  simp

/-! ## What follows the governing category -/

theorem lifetime_of_governs {r : Registry} {key : String} {c : Category} (h : Governs r.values key c)
    (otherwise : Seconds) : r.lifetime otherwise key = c.lifetime := by
  rw [lifetime, govern, longest_eq_some_iff.2 h]

theorem lifetime_of_ungoverned {r : Registry} {key : String} (h : ∀ c ∈ r.values, ¬c.start.toList <+: key.toList)
    (otherwise : Seconds) : r.lifetime otherwise key = otherwise := by
  rw [lifetime, govern, longest_eq_none_iff.2 h]

/-- No category governs a key exactly where none has a start of it, and else the first one with the longest such
start does, which a search from the longest start down finds too. A registry in another order gives the same one
if no start is there twice. Lifetime and bucket are those of the governing category, a lifetime of zero too, and the
bucket is one of those of the registry; a key without a category has the lifetime that is otherwise given, and its
own first two segments are its bucket. -/
theorem governed_by_longest (r : Registry) (key : String) :
    (r.govern key = none ↔ ∀ c ∈ r.values, ¬c.start.toList <+: key.toList) ∧
      (∀ c, r.govern key = some c ↔ Governs r.values key c) ∧
      r.govern key = (byLength r.values).find? (fun c => c.owns key) ∧
      (∀ r' : Registry, (r.values.map Category.start).Nodup → r'.rows.Perm r.rows → r'.govern key = r.govern key) ∧
      (∀ c, Governs r.values key c → (∀ otherwise, r.lifetime otherwise key = c.lifetime) ∧
        r.bucket key = Key.stem c.start ∧ r.bucket key ∈ r.buckets) ∧
      ((∀ c ∈ r.values, ¬c.start.toList <+: key.toList) → (∀ otherwise, r.lifetime otherwise key = otherwise) ∧
        r.bucket key = Key.stem key) := by
  refine ⟨longest_eq_none_iff, fun c => longest_eq_some_iff, longest_eq_find?_byLength key r.values,
    fun r' hnodup hperm => longest_perm hnodup (hperm.map Prod.snd) key, fun c hc => ?_, fun hnone => ?_⟩
  · have hbucket : r.bucket key = c.bucket := by
      rw [bucket, govern, longest_eq_some_iff.2 hc]
    exact ⟨lifetime_of_governs hc, hbucket, (r.mem_buckets_iff _).2 ⟨c, hc.mem, hbucket.symm⟩⟩
  · refine ⟨lifetime_of_ungoverned hnone, ?_⟩
    rw [bucket, govern, longest_eq_none_iff.2 hnone]

/-- A registry in which two categories have one start and another one a shorter start. -/
def pinned : Registry :=
  ofCategories [⟨"ALL", .whole 90, "cache", .null, rfl, by decide⟩,
    ⟨"PINNED", .whole 0, "cache:pin", .null, rfl, by decide⟩, ⟨"LATE", .whole 5, "cache:pin", .null, rfl, by decide⟩]

/-- Of the two categories with one start the first governs and keeps its keys for ever, whatever else is given; and
the registry of the service may be turned round. -/
theorem governed_by_longest_pinned :
    (∃ c, pinned.govern "cache:pin:x" = some c ∧ c.name = "PINNED" ∧
      pinned.lifetime (.whole 300) "cache:pin:x" = .whole 0 ∧ pinned.bucket "cache:pin:x" ∈ pinned.buckets) ∧
    (ofCategories [.newsTrending, .news, .marketExtended, .marketSnapshot]).govern "cache:news:trending" =
      builtin.govern "cache:news:trending" := by
  refine ⟨⟨⟨"PINNED", .whole 0, "cache:pin", .null, rfl, by decide⟩, rfl, rfl, ?_⟩, ?_⟩
  · obtain ⟨-, hgoverns, -, -, hfollows, -⟩ := governed_by_longest pinned "cache:pin:x"
    obtain ⟨hlifetime, -, hbucket⟩ := hfollows _ ((hgoverns _).1 rfl)
    exact ⟨hlifetime _, hbucket⟩
  · obtain ⟨-, -, -, hperm, -⟩ := governed_by_longest builtin "cache:news:trending"
    refine hperm _ (by decide) ?_
    exact List.reverse_perm builtin.rows

end Registry
end CacheAside
