import CacheAside.Proofs.Resource.Upstream
import CacheAside.Proofs.Invalidation.Sweeping

/-! # Clearing everything

Where no call fails, clearing removes exactly the keys that begin with one of three starts and leaves every
other entry to time. All resources have such a key but one: the news of all categories stand under the bare
start of the news keys, which the pattern of the news does not match, so they outlive the clearing. -/

namespace CacheAside
set_option autoImplicit false

/-! ## What is cleared -/

namespace Invalidation

/-- Whether a key belongs to the market, to one of the news or to the metrics. -/
def isCleared (key : String) : Bool :=
  ["cache:market:", "cache:news:", "cache:metrics:"].any fun start => Key.beginsWith key start

theorem isCleared_iff_matches (m : Matcher) (key : String) :
    isCleared key = clearPatterns.any fun pattern => m.accepts pattern key := by
  have hpatterns : clearPatterns = ["cache:market:", "cache:news:", "cache:metrics:"].map (· ++ "*") := by decide
  have hverbatim : ∀ start ∈ ["cache:market:", "cache:news:", "cache:metrics:"], Text.IsVerbatim start := by decide
  rw [hpatterns, List.any_map, isCleared, Bool.eq_iff_iff, List.any_eq_true, List.any_eq_true]
  refine exists_congr fun start => and_congr_right fun hstart => ?_
  rw [Function.comp_apply, m.accepts_start (hverbatim start hstart)]

theorem isCleared_key {r : Resource} (h : r.IsNamed) :
    isCleared r.key = decide (r ≠ .news News.everything) := by
  rw [Resource.key_eq h, isCleared]
  simp only [Key.beginsWith, Key.ofSegments, String.toList_ofList]
  cases r with
  | snapshot a => rfl
  | extended a => rfl
  | news c =>
    rw [Resource.segments]
    split
    · rename_i hall
      rw [hall]
      decide
    · rename_i hall
      have hother : decide (Resource.news c ≠ .news News.everything) = true := by
        rw [decide_eq_true_iff]
        intro h
        exact hall (Resource.news.inj h)
      rw [hother]
      rfl
  | trending => rfl

theorem clearAll_swept {w : World} (hw : w.network.NeverFails) :
    ∃ n w' exchanges, clearAll.run w = (.ok n, w') ∧ Swept w w' exchanges isCleared := by
  have hcovers : isCleared = fun key => clearPatterns.any fun pattern => w.server.matcher.accepts pattern key :=
    funext (isCleared_iff_matches w.server.matcher)
  have hpatterns : List.Forall₂ (fun op sweeps => op.Sweeps (fun _ => True) sweeps) clearTasks
      (clearPatterns.map fun pattern => [.pattern pattern]) := by
    refine List.forall₂_map_left_iff.2 (List.forall₂_map_right_iff.2 (List.forall₂_same.2 fun pattern _ => ?_))
    exact Cache.sweeps_deleteByPattern pattern
  have hclear : clearAll.Sweeps (fun _ => True) _ :=
    (Op.Sweeps.note _).bind fun _ => (Op.Sweeps.gather hpatterns).bind fun counts => Op.Sweeps.pure _
  obtain ⟨n, w', exchanges, hrun, hswept⟩ := hclear w hw trivial
  rw [hcovers]
  exact ⟨n, w', exchanges, hrun, hswept⟩

/-- After a clearing in which no call fails the store holds no key of a resource or of the metrics, but for the
news of all categories: those are still there unless they have run out. The next read of any other resource goes
upstream, and that of all news only if the cache has no value for them. -/
theorem clearAll_drops {w : World} (hw : w.network.NeverFails) :
    ∃ n w' exchanges, clearAll.run w = (.ok n, w') ∧ Traced w w' exchanges ∧
      let allNews := (w.server.waits (w.network.pauses w.history exchanges)).find? (News.categoryKey News.everything)
      ((∀ r : Resource, r.IsNamed → w'.server.find? r.key = none) ↔ allNews = none) ∧
      (∀ r : Resource, r.IsNamed → r ≠ .news News.everything → w'.server.find? r.key = none) ∧
      (∀ key, Key.beginsWith key "cache:metrics:" = true → w'.server.find? key = none) ∧
      (w.memory.outages = [] → ∀ r : Resource, r.IsAccepted →
        ((r.read.run w').2.memory.fetches = r.key :: w'.memory.fetches ↔
          r ≠ .news News.everything ∨ ((Cache.get r.key).run w').1 = .ok .null)) := by
  obtain ⟨n, w', exchanges, hrun, hswept⟩ := clearAll_swept hw
  refine ⟨n, w', exchanges, hrun, hswept.traced, ?_⟩
  intro allNews
  have hall : w'.server.find? (News.categoryKey News.everything) = allNews := by
    rw [hswept.entries, if_neg]
    have hkept := isCleared_key (r := .news News.everything) (by decide)
    rw [Resource.key, decide_eq_false (not_not.2 rfl)] at hkept
    rw [hkept]
    decide
  have hothers : ∀ r : Resource, r.IsNamed → r ≠ .news News.everything → w'.server.find? r.key = none := by
    intro r hr hne
    rw [hswept.entries, isCleared_key hr, decide_eq_true hne, if_pos rfl]
  refine ⟨⟨fun h => ?_, fun h r hr => ?_⟩, hothers, fun key hkey => ?_, fun hduties r hr => ?_⟩
  · rw [← hall]
    exact h (.news News.everything) (by decide)
  · by_cases hne : r = .news News.everything
    · rw [hne]
      exact hall.trans h
    · exact hothers r hr hne
  · have hcleared : isCleared key = true := List.any_eq_true.2 ⟨_, by decide, hkey⟩
    rw [hswept.entries, hcleared, if_pos rfl]
  · have hw' := hswept.traced.neverFails hw
    have hduties' : w'.memory.outages = [] := (congrArg Rules.outages hswept.rules).trans hduties
    rw [Resource.fetches_read_iff hr hw'.contained hduties', iff_comm, or_iff_right_iff_imp]
    intro hne
    exact Cache.get_of_missing hw'.contained (hothers r hr.isNamed hne)

/-- The snapshot of an asset is fetched again after a clearing. -/
theorem clearAll_drops_snapshot :
    ∃ n w', clearAll.run (World.fresh [("cache:market:snapshot:XLM", ⟨"[1]", none⟩)]) = (.ok n, w') ∧
      w'.server.find? "cache:market:snapshot:XLM" = none ∧
      ((Resource.snapshot "XLM").read.run w').2.memory.fetches =
        "cache:market:snapshot:XLM" :: w'.memory.fetches := by
  have hw := World.neverFails_fresh [("cache:market:snapshot:XLM", ⟨"[1]", none⟩)]
  obtain ⟨n, w', exchanges, hrun, -, -, hothers, -, hread⟩ := clearAll_drops hw
  have hkey : (Resource.snapshot "XLM").key = "cache:market:snapshot:XLM" := by decide
  rw [← hkey]
  exact ⟨n, w', hrun, hothers (.snapshot "XLM") (by decide) (by decide),
    (hread rfl (.snapshot "XLM") (by decide)).2 (.inl (by decide))⟩

/-- The news of all categories outlive a clearing, and the next read of them does not go upstream. -/
theorem clearAll_keeps_all_news :
    ∃ n w', clearAll.run (World.fresh [("cache:news", ⟨"[1]", none⟩)]) = (.ok n, w') ∧
      w'.server.find? (Resource.news News.everything).key = some ⟨"[1]", none⟩ ∧
      ((Resource.news News.everything).read.run w').2.memory.fetches = w'.memory.fetches := by
  have hw := World.neverFails_fresh [("cache:news", ⟨"[1]", none⟩)]
  obtain ⟨n, w', exchanges, hrun, hswept⟩ := clearAll_swept hw
  have hkey : (Resource.news News.everything).key = "cache:news" := by decide
  have hkept : w'.server.find? "cache:news" = some ⟨"[1]", none⟩ := by
    rw [hswept.entries, if_neg (by decide)]
    exact Server.find?_waits_endless rfl _
  have hw' := hswept.traced.neverFails hw
  have hduties : w'.memory.outages = [] := congrArg Rules.outages hswept.rules
  have hlimits : w'.memory.limits = .standard := congrArg Rules.limits hswept.rules
  refine ⟨n, w', hrun, by rw [hkey, hkept], ?_⟩
  obtain ⟨reading, hsettled, hne, -, hok, -⟩ := Cache.get_outcome (Resource.news News.everything).key hw'.contained
  have hvalue : (w'.server.waits (w'.network.pauses w'.history reading)).valueAt w'.memory.limits
      (Resource.news News.everything).key = .arr [.int 1] := by
    rw [hlimits, Server.valueAt, hkey, Server.find?_waits_endless hkept]
    rfl
  rw [hsettled.traced.wentThrough hw' hne, if_pos rfl, hvalue] at hok
  rw [Resource.run_read (by decide) hduties]
  exact Cache.fetches_getOrSet_of_hit _ _ _ hok Json.noConfusion

end Invalidation
end CacheAside
