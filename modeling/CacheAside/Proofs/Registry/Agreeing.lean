import CacheAside.Proofs.Resource.Upstream
import CacheAside.Proofs.Cache.Lasting

/-! # What the registry says of resources

A read writes for the lifetime of what it reads, and a write that is told no lifetime asks the registry, which knows
keys by their start alone. Both come to the same unless the name of a resource begins with the word in which the
start of another category ends (`Resource.Strays`): the snapshot of an asset so named is filed with the extended
data, and news of a category so named with the trending list. -/

namespace CacheAside
set_option autoImplicit false

namespace Resource

/-- Whether the name begins with the last word of a start that goes on where the one of the resource ends. -/
def Strays : Resource → Prop
  | .snapshot a => "extended".toList <+: a.toList
  | .news c => "trending".toList <+: c.toList
  | _ => False

instance : DecidablePred Strays
  | .snapshot a => inferInstanceAs (Decidable ("extended".toList <+: a.toList))
  | .extended _ => .isFalse not_false
  | .news c => inferInstanceAs (Decidable ("trending".toList <+: c.toList))
  | .trending => .isFalse not_false

/-- The category that a resource is read under. -/
def category : Resource → Category
  | .snapshot _ => .marketSnapshot
  | .extended _ => .marketExtended
  | .news _ => .news
  | .trending => .newsTrending

/-- The category that the key of a resource is filed under. -/
def filed (r : Resource) : Category :=
  match r with
  | .snapshot _ => if r.Strays then .marketExtended else .marketSnapshot
  | .extended _ => .marketExtended
  | .news _ => if r.Strays then .newsTrending else .news
  | .trending => .newsTrending

theorem lifetime_category (r : Resource) : r.category.lifetime = r.lifetime := by
  cases r <;> rfl

/-! ## Keys of resources by their characters -/

theorem toList_key_snapshot {a : String} (ha : a ≠ "") :
    (snapshot a).key.toList = "cache:market:snapshot:".toList ++ a.toList := by
  rw [key_eq (r := .snapshot a) ha, segments, Key.ofSegments]
  simp [Text.join, Key.separator]

theorem toList_key_extended {a : String} (ha : a ≠ "") :
    (extended a).key.toList = "cache:market:snapshot:extended:".toList ++ a.toList := by
  rw [key_eq (r := .extended a) ha, segments, Key.ofSegments]
  simp [Text.join, Key.separator]

theorem toList_key_news {c : String} (hc : c ≠ "") (hall : c ≠ News.everything) :
    (news c).key.toList = "cache:news:".toList ++ c.toList := by
  rw [key_eq (r := .news c) hc, segments, if_neg hall, Key.ofSegments]
  simp [Text.join, Key.separator]

end Resource

namespace Registry

theorem owns_of_toList {key : String} {cs : List Char} (h : key.toList = cs) (c : Category) :
    c.owns key = c.start.toList.isPrefixOf cs := by
  rw [Category.owns, Key.beginsWith, h]

theorem mem_builtin {c : Category} :
    c ∈ builtin.values ↔ c = .marketSnapshot ∨ c = .marketExtended ∨ c = .news ∨ c = .newsTrending := by
  have hvalues : builtin.values = [.marketSnapshot, .marketExtended, .news, .newsTrending] := rfl
  rw [hvalues]
  simp

/-- A category of the service governs a key that it owns and that no category with a longer start owns. -/
theorem govern_builtin {key : String} {c : Category} (hc : c ∈ builtin.values) (howns : c.owns key = true)
    (hlonger : ∀ d ∈ builtin.values, c.start.length < d.start.length → d.owns key = false) :
    builtin.govern key = some c := by
  refine longest_eq_some_iff.2 ((governs_iff_of_nodup (by decide)).2 ⟨hc, (c.owns_iff key).1 howns, ?_⟩)
  intro d hd hbegins
  by_contra hlt
  have hnot := hlonger d hd (Nat.lt_of_not_le hlt)
  rw [(d.owns_iff key).2 hbegins] at hnot
  cases hnot

/-- Of two categories that alone can be the longest, the longer one governs what it owns and the other one the rest. -/
theorem govern_of_two {key : String} {c d : Category} (hc : c ∈ builtin.values) (hd : d ∈ builtin.values)
    (howns : c.owns key = true)
    (hc' : ∀ e ∈ builtin.values, c.start.length < e.start.length → e = d ∨ e.owns key = false)
    (hd' : ∀ e ∈ builtin.values, d.start.length < e.start.length → e.owns key = false) :
    builtin.govern key = some (if d.owns key = true then d else c) := by
  by_cases hlonger : d.owns key = true
  · rw [if_pos hlonger]
    exact govern_builtin hd hlonger hd'
  · rw [if_neg hlonger]
    refine govern_builtin hc howns fun e he hlt => ?_
    rcases hc' e he hlt with rfl | hnot
    · exact Bool.eq_false_iff.2 hlonger
    · exact hnot

/-- The registry of the service files the key of a resource under the category that its name makes it look like. -/
theorem govern_key {r : Resource} (hr : r.IsNamed) : builtin.govern r.key = some r.filed := by
  cases r with
  | snapshot a =>
    have howns := owns_of_toList (Resource.toList_key_snapshot hr)
    have hextended : Category.marketExtended.owns (Resource.snapshot a).key = "extended".toList.isPrefixOf a.toList :=
      howns _
    have hstrays : Category.marketExtended.owns (Resource.snapshot a).key = true ↔ (Resource.snapshot a).Strays := by
      rw [hextended, List.isPrefixOf_iff_prefix]
      rfl
    rw [govern_of_two (mem_builtin.2 (.inl rfl)) (mem_builtin.2 (.inr (.inl rfl))) (howns _), Resource.filed]
    · exact congrArg some (if_congr hstrays rfl rfl)
    · intro e he hlt
      obtain rfl | rfl | rfl | rfl := mem_builtin.1 he <;> first | exact .inl rfl | exact absurd hlt (by decide)
    · intro e he hlt
      obtain rfl | rfl | rfl | rfl := mem_builtin.1 he <;> exact absurd hlt (by decide)
  | extended a =>
    have howns := owns_of_toList (Resource.toList_key_extended hr)
    rw [Resource.filed]
    refine govern_builtin (mem_builtin.2 (.inr (.inl rfl))) (howns _) fun d hd hlt => ?_
    obtain rfl | rfl | rfl | rfl := mem_builtin.1 hd <;> exact absurd hlt (by decide)
  | news c =>
    by_cases hall : c = News.everything
    · rw [hall]
      rfl
    have howns := owns_of_toList (Resource.toList_key_news hr hall)
    have htrending : Category.newsTrending.owns (Resource.news c).key = "trending".toList.isPrefixOf c.toList :=
      howns _
    have hstrays : Category.newsTrending.owns (Resource.news c).key = true ↔ (Resource.news c).Strays := by
      rw [htrending, List.isPrefixOf_iff_prefix]
      rfl
    rw [govern_of_two (mem_builtin.2 (.inr (.inr (.inl rfl)))) (mem_builtin.2 (.inr (.inr (.inr rfl)))) (howns _),
      Resource.filed]
    · exact congrArg some (if_congr hstrays rfl rfl)
    · intro e he hlt
      obtain rfl | rfl | rfl | rfl := mem_builtin.1 he <;>
        first | exact .inl rfl | exact .inr (howns _) | exact absurd hlt (by decide)
    · intro e he hlt
      obtain rfl | rfl | rfl | rfl := mem_builtin.1 he <;> first | exact howns _ | exact absurd hlt (by decide)
  | trending => rfl

end Registry

/-! ## Writing again without a lifetime -/

namespace Resource

/-- A resource is filed under its own category unless its name strays. -/
theorem filed_of_not_strays {r : Resource} (h : ¬r.Strays) : r.filed = r.category := by
  cases r with
  | snapshot a => exact if_neg h
  | news c => exact if_neg h
  | _ => rfl

/-- The two categories under which a resource that strays is filed keep their entries equally long, the one longer
and the other shorter than its own category would. -/
theorem lifetime_filed_of_strays {r : Resource} (h : r.Strays) :
    r.filed.lifetime = .whole 300 ∧ r.lifetime ≠ .whole 300 := by
  cases r with
  | snapshot a =>
    rw [filed, if_pos h]
    exact ⟨rfl, fun hsame => absurd (Seconds.whole.inj hsame) (by decide)⟩
  | news c =>
    rw [filed, if_pos h]
    exact ⟨rfl, fun hsame => absurd (Seconds.whole.inj hsame) (by decide)⟩
  | _ => exact h.elim

theorem lifetime_filed (r : Resource) : ∃ n : ℤ, 0 < n ∧ r.filed.lifetime = .whole n := by
  by_cases h : r.Strays
  · exact ⟨300, by decide, (lifetime_filed_of_strays h).1⟩
  · rw [filed_of_not_strays h]
    cases r <;> exact ⟨_, by decide, rfl⟩

/-- A read of an accepted resource writes for the lifetime of its category. The registry of the service gives its key
the same lifetime exactly if the name of the resource does not stray, and five minutes if it does. Where no call
fails, a value that is written under the key without a lifetime stays as long as the registry says. -/
theorem rewritten_as_filed {w : World} (hw : w.network.NeverFails) (hregistry : w.memory.registry = Registry.builtin)
    (hfiled : w.memory.misfiled = none) (hduties : w.memory.outages = []) {r : Resource} (hr : r.IsAccepted) :
    r.read.run w = (Cache.getOrSet r.key r.provider (some r.lifetime)).run w ∧
      let resolved := w.memory.registry.lifetime w.memory.otherwise r.key
      (resolved = r.lifetime ↔ ¬r.Strays) ∧ (r.Strays → resolved = .whole 300) ∧
      ∀ value text, value.text w.memory.limits = .ok text → ∃ w', (Cache.set r.key value none).run w = (.ok (), w') ∧
        w'.server.find? r.key = some ⟨text, some resolved⟩ := by
  refine ⟨run_read hr hduties, ?_⟩
  have hresolved : w.memory.registry.lifetime w.memory.otherwise r.key = r.filed.lifetime := by
    rw [hregistry, Registry.lifetime, Registry.govern_key hr.isNamed]
  rw [hresolved]
  refine ⟨⟨fun h hstrays => ?_, fun h => ?_⟩, fun h => (lifetime_filed_of_strays h).1, fun value text htext => ?_⟩
  · obtain ⟨hfive, hother⟩ := lifetime_filed_of_strays hstrays
    exact hother (h.symm.trans hfive)
  · rw [filed_of_not_strays h, lifetime_category]
  · obtain ⟨n, hpos, hn⟩ := r.lifetime_filed
    have hseconds : Cache.secondsFor w.memory r.key none = .ok (.whole n) := by
      rw [Cache.secondsFor, hfiled, ← hn, ← hresolved]
      rfl
    obtain ⟨w', exchanges, hrun, -, hentries⟩ := Cache.set_settled hw (Cache.order_of_whole hseconds htext)
    refine ⟨w', hrun, ?_⟩
    rw [hentries, if_pos rfl, Cache.leftOf, if_pos hpos, hn]

/-- News of a category that only seems to be the trending list are kept half as long once they are written again. -/
theorem rewritten_as_filed_early :
    ∃ w', (Cache.set (news "trending-today").key (.json (.arr [])) none).run (World.fresh []) = (.ok (), w') ∧
      w'.server.find? (news "trending-today").key = some ⟨"[]", some (.whole 300)⟩ ∧
      (news "trending-today").lifetime = .whole 600 := by
  obtain ⟨-, -, hstrays, hwritten⟩ := rewritten_as_filed (World.neverFails_fresh []) rfl rfl rfl
    (show (news "trending-today").IsAccepted by decide)
  obtain ⟨w', hrun, hfind⟩ := hwritten (.json (.arr [])) "[]" rfl
  rw [hstrays (by decide)] at hfind
  exact ⟨w', hrun, hfind, rfl⟩

/-- An asset may be named like the extended data: its snapshot is read for one minute, and whoever writes it again
without a lifetime keeps it for five. -/
theorem strays_extended : (snapshot "extended").IsAccepted ∧ (snapshot "extended").lifetime = .whole 60 ∧
    (((snapshot "extended").read.run (World.fresh [])).2.server.find? (snapshot "extended").key).bind Entry.left =
      some (.whole 60) ∧
    Registry.builtin.lifetime Registry.defaultLifetime (snapshot "extended").key = .whole 300 ∧
    ∃ w', (Cache.set (snapshot "extended").key (.json (.arr [])) none).run
        ((snapshot "extended").read.run (World.fresh [])).2 = (.ok (), w') ∧
      w'.server.find? (snapshot "extended").key = some ⟨"[]", some (.whole 300)⟩ :=
  ⟨by decide, rfl, rfl, rfl, _, rfl, rfl⟩

end Resource
end CacheAside
