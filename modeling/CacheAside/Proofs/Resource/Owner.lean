import CacheAside.Api
import CacheAside.Proofs.Key.Segments
import CacheAside.Proofs.Run.Trace

/-! # What the reads of the service are about

A resource is what one read is about: the snapshot or the extended data of an asset, the news of a category,
or the trending list. Its key says all of it as long as its name holds no separator, and no accepted name
holds one, so no two accepted resources share a key. -/

namespace CacheAside
set_option autoImplicit false

/-! ## Accepted names -/

namespace Api

theorem isNameChar_separator : isNameChar Key.separator = false := by decide

/-- Cutting a line feed off the end leaves every other character. -/
theorem mem_dropLineFeed {c : Char} {cs : List Char} (h : c ∈ cs) (hc : c ≠ '\n') : c ∈ dropLineFeed cs := by
  rw [dropLineFeed]
  split
  · rename_i hlast
    obtain ⟨front, rfl⟩ := List.getLast?_eq_some_iff.1 hlast
    rw [List.dropLast_concat]
    rcases List.mem_append.1 h with h | h
    · exact h
    · exact absurd (List.mem_singleton.1 h) hc
  · exact h

theorem not_mem_of_isName {s : String} (h : isName s = true) {c : Char} (hc : isNameChar c = false) (hne : c ≠ '\n') :
    c ∉ s.toList := by
  intro hmem
  rw [isName, Bool.and_eq_true, List.all_eq_true] at h
  have hchar := h.2 _ (mem_dropLineFeed hmem hne)
  rw [hc] at hchar
  cases hchar

/-- No accepted name holds the separator of keys. -/
theorem separator_not_mem_of_isName {s : String} (h : isName s = true) : Key.separator ∉ s.toList :=
  not_mem_of_isName h isNameChar_separator (by decide)

theorem ne_empty_of_isName {s : String} (h : isName s = true) : s ≠ "" := by
  rintro rfl
  revert h
  decide

theorem assetName_of_isName {a : String} (h : isName a = true) : assetName (.str a) = .ok a := by
  change (if isName a then Except.ok a else .error (Failure.refused (.invalidAsset (.str a)))) = _
  rw [if_pos h]

theorem categoryName_of_isName {c : String} (h : isName c = true) (htrending : c ≠ "trending") :
    categoryName (.str c) = .ok c := by
  change (if !isName c then Except.error (Failure.refused (.invalidCategory (.str c)))
    else if c = "trending" then .error (Failure.refused (.reservedCategory c)) else .ok c) = _
  rw [h, if_neg (by decide), if_neg htrending]

/-- A name that passes a test is a text, or the empty name. -/
theorem named_bind_eq_ok {test : String → Except Failure String} {v : Json} {a : String}
    (h : (named v >>= test) = .ok a) : ∃ s, (v = .str s ∨ s = "") ∧ test s = .ok a := by
  cases v with
  | str s => exact ⟨s, .inl rfl, h⟩
  | _ =>
    simp only [named] at h
    split at h
    · exact ⟨"", .inr rfl, h⟩
    · cases h

theorem assetName_eq_ok {v : Json} {a : String} (h : assetName v = .ok a) : v = .str a ∧ isName a = true := by
  obtain ⟨s, hs, htest⟩ := named_bind_eq_ok h
  split at htest
  · rename_i hname
    cases htest
    exact ⟨hs.resolve_right (ne_empty_of_isName hname), hname⟩
  · cases htest

theorem categoryName_eq_ok {v : Json} {c : String} (h : categoryName v = .ok c) :
    v = .str c ∧ isName c = true ∧ c ≠ "trending" := by
  obtain ⟨s, hs, htest⟩ := named_bind_eq_ok h
  cases hname : isName s with
  | false =>
    simp only [hname] at htest
    cases htest
  | true =>
    simp only [hname] at htest
    split at htest
    · cases htest
    · split at htest
      · cases htest
      · rename_i htrending
        cases htest
        exact ⟨hs.resolve_right (ne_empty_of_isName hname), hname, htrending⟩

end Api

/-! ## Resources -/

inductive Resource where
  | snapshot (asset : String)
  | extended (asset : String)
  | news (category : String)
  | trending
deriving DecidableEq

namespace Resource

def key : Resource → String
  | .snapshot a => Market.snapshotKey a
  | .extended a => Market.extendedKey a
  | .news c => News.categoryKey c
  | .trending => News.trendingKey

/-- The read from outside. -/
def read : Resource → Op Payload
  | .snapshot a => Api.snapshot (.str a)
  | .extended a => Api.extended (.str a)
  | .news c => Api.news (.str c)
  | .trending => Api.trending

/-- What a read of a resource fetches on a miss. -/
def provider : Resource → Op Payload
  | .snapshot a => Feed.fetchSnapshot (.str a)
  | .extended a => Feed.fetchExtended (.str a)
  | .news c => Feed.fetchNews (.str c)
  | .trending => Feed.fetchTrending

def lifetime : Resource → Seconds
  | .snapshot _ => Category.marketSnapshot.lifetime
  | .extended _ => Category.marketExtended.lifetime
  | .news _ => Category.news.lifetime
  | .trending => Category.newsTrending.lifetime

/-- Whether there is a name wherever one is asked for. -/
def IsNamed : Resource → Prop
  | .snapshot a => a ≠ ""
  | .extended a => a ≠ ""
  | .news c => c ≠ ""
  | .trending => True

/-- Whether a read of it is not refused. -/
def IsAccepted : Resource → Prop
  | .snapshot a => Api.isName a = true
  | .extended a => Api.isName a = true
  | .news c => Api.isName c = true ∧ c ≠ "trending"
  | .trending => True

instance : DecidablePred IsNamed
  | .snapshot a => inferInstanceAs (Decidable (a ≠ ""))
  | .extended a => inferInstanceAs (Decidable (a ≠ ""))
  | .news c => inferInstanceAs (Decidable (c ≠ ""))
  | .trending => .isTrue trivial

instance : DecidablePred IsAccepted
  | .snapshot a => inferInstanceAs (Decidable (Api.isName a = true))
  | .extended a => inferInstanceAs (Decidable (Api.isName a = true))
  | .news c => inferInstanceAs (Decidable (Api.isName c = true ∧ c ≠ "trending"))
  | .trending => .isTrue trivial

theorem IsAccepted.isNamed {r : Resource} (h : r.IsAccepted) : r.IsNamed := by
  cases r with
  | snapshot a => exact Api.ne_empty_of_isName h
  | extended a => exact Api.ne_empty_of_isName h
  | news c => exact Api.ne_empty_of_isName h.1
  | trending => trivial

def segments : Resource → List String
  | .snapshot a => ["cache", "market", "snapshot", a]
  | .extended a => ["cache", "market", "snapshot", "extended", a]
  | .news c => if c = News.everything then ["cache", "news"] else ["cache", "news", c]
  | .trending => ["cache", "news", "trending"]

theorem key_eq {r : Resource} (h : r.IsNamed) : r.key = Key.ofSegments r.segments := by
  cases r with
  | snapshot a =>
    have ha : a ≠ "" := h
    simp [key, segments, Market.snapshotKey, Category.marketSnapshot, Key.build, Key.ofSegments, Key.separator,
      Json.isBlank, Json.plain, Text.join, ha]
  | extended a =>
    have ha : a ≠ "" := h
    simp [key, segments, Market.extendedKey, Category.marketExtended, Key.build, Key.ofSegments, Key.separator,
      Json.isBlank, Json.plain, Text.join, ha]
  | news c =>
    have hc : c ≠ "" := h
    by_cases hall : c = News.everything
    · rw [hall]
      decide
    · simp [key, segments, News.categoryKey, Category.news, Key.build, Key.ofSegments, Key.separator,
        Json.isBlank, Json.plain, Text.join, hc, hall]
  | trending => decide

theorem separator_not_mem_segments {r : Resource} (h : r.IsAccepted) :
    ∀ w ∈ r.segments, Key.separator ∉ w.toList := by
  intro w hw
  have hplain : ∀ s ∈ ["cache", "market", "snapshot", "extended", "news", "trending"],
      Key.separator ∉ s.toList := by decide
  cases r with
  | snapshot a =>
    have ha := Api.separator_not_mem_of_isName h
    simp only [segments, List.mem_cons, List.not_mem_nil, or_false] at hw
    obtain rfl | rfl | rfl | rfl := hw <;> first | exact ha | exact hplain _ (by decide)
  | extended a =>
    have ha := Api.separator_not_mem_of_isName h
    simp only [segments, List.mem_cons, List.not_mem_nil, or_false] at hw
    obtain rfl | rfl | rfl | rfl | rfl := hw <;> first | exact ha | exact hplain _ (by decide)
  | news c =>
    have hc := Api.separator_not_mem_of_isName h.1
    rw [segments] at hw
    split at hw <;> simp only [List.mem_cons, List.not_mem_nil, or_false] at hw
    · obtain rfl | rfl := hw <;> exact hplain _ (by decide)
    · obtain rfl | rfl | rfl := hw <;> first | exact hc | exact hplain _ (by decide)
  | trending =>
    simp only [segments, List.mem_cons, List.not_mem_nil, or_false] at hw
    obtain rfl | rfl | rfl := hw <;> exact hplain _ (by decide)

theorem segments_key {r : Resource} (h : r.IsAccepted) : Key.segments r.key = r.segments := by
  have hne : r.segments ≠ [] := by
    cases r with
    | news c =>
      rw [segments]
      split <;> simp
    | _ => simp [segments]
  rw [key_eq h.isNamed]
  exact Key.segments_ofSegments hne (separator_not_mem_segments h)

/-- The resource that a key with these segments is about. -/
def owner? : List String → Option Resource
  | ["cache", "market", "snapshot", a] => some (.snapshot a)
  | ["cache", "market", "snapshot", "extended", a] => some (.extended a)
  | ["cache", "news"] => some (.news News.everything)
  | ["cache", "news", c] => if c = "trending" then some .trending else some (.news c)
  | _ => none

theorem owner?_segments {r : Resource} (h : r.IsAccepted) : owner? r.segments = some r := by
  cases r with
  | snapshot a => rfl
  | extended a => rfl
  | news c =>
    rw [segments]
    split
    · rename_i hall
      rw [hall]
      rfl
    · rw [owner?, if_neg h.2]
  | trending => rfl

theorem owner?_key {r : Resource} (h : r.IsAccepted) : owner? (Key.segments r.key) = some r := by
  rw [segments_key h, owner?_segments h]

/-- No two accepted resources have the same key. -/
theorem eq_of_key_eq {r r' : Resource} (h : r.IsAccepted) (h' : r'.IsAccepted) (hkey : r.key = r'.key) :
    r = r' := by
  have howner := owner?_key h
  rw [hkey, owner?_key h'] at howner
  exact (Option.some.inj howner).symm

end Resource
end CacheAside
