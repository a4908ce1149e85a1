import CacheAside.Proofs.Resource.Upstream
import CacheAside.Proofs.Invalidation.Sweeping

/-! # What an update drops

Where only the service itself hears of updates and no call fails, an update drops the keys that its sweeps cover
and leaves every other entry to time. For an asset these are one or two keys of its own, which belong to no other
accepted resource. For a category of news it is the key of the category; without a category it is everything under
the start of the news keys, and the bare start. -/

namespace CacheAside
set_option autoImplicit false

/-! ## The sweeps of an update -/

namespace Market

/-- The keys that an update of an asset drops. -/
def updatedKeys (asset : String) (kind : AssetKind) : List String :=
  if kind = .metadata then [extendedKey asset] else [snapshotKey asset, extendedKey asset]

theorem sweeps_dropAsset (asset : String) : (dropAsset asset).Sweeps Rules.IsPlain
    [.single (snapshotKey asset), .single (extendedKey asset)] := by
  have hboth : List.Forall₂ (fun op sweeps => op.Sweeps Rules.IsPlain sweeps)
      [Cache.delete (snapshotKey asset), Cache.delete (extendedKey asset)]
      [[.single (snapshotKey asset)], [.single (extendedKey asset)]] :=
    .cons (Cache.sweeps_delete _) (.cons (Cache.sweeps_delete _) .nil)
  exact Op.Sweeps.duty (fun _ h => h.outages) _ (Op.Sweeps.gather hboth).discard

theorem sweeps_dropExtended (asset : String) :
    (dropExtended asset).Sweeps Rules.IsPlain [.single (extendedKey asset)] :=
  Op.Sweeps.duty (fun _ h => h.outages) _ (Cache.sweeps_delete _)

theorem any_updatedKeys (m : Matcher) (asset : String) (kind : AssetKind) (key : String) :
    (((updatedKeys asset kind).map Sweep.single).any fun x => x.covers m key) =
      decide (key ∈ updatedKeys asset kind) := by
  rw [List.any_map, Bool.eq_iff_iff, List.any_eq_true, decide_eq_true_iff]
  constructor
  · rintro ⟨k, hk, hcovers⟩
    rwa [of_decide_eq_true (p := key = k) hcovers]
  · intro hkey
    exact ⟨key, hkey, decide_eq_true (p := key = key) rfl⟩

end Market

namespace News

/-- What dropping all news sweeps away. -/
def allSweeps : List Sweep :=
  [.pattern (Category.news.start ++ ":*"), .pattern (Category.newsTrending.start ++ ":*"),
   .single (categoryKey everything)]

/-- Whether an update of the news drops a key: those of all categories where none is given. -/
def isUpdated (category : Option String) (trending : Bool) (key : String) : Bool :=
  let c := category.getD ""
  if c = "" then key = "cache:news" || Key.beginsWith key "cache:news:"
  else key = (if c = "all" then "cache:news" else "cache:news:" ++ c) || (trending && key = "cache:news:trending")

theorem sweeps_dropAll : dropAll.Sweeps Rules.IsPlain allSweeps := by
  have htasks : List.Forall₂ (fun op sweeps => op.Sweeps Rules.IsPlain sweeps) dropAllTasks
      (allSweeps.map fun x => [x]) :=
    .cons (Cache.sweeps_deleteByPattern _).discard
      (.cons (Cache.sweeps_deleteByPattern _).discard (.cons (Cache.sweeps_delete _) .nil))
  exact Op.Sweeps.duty (fun _ h => h.outages) _ (Op.Sweeps.gather htasks).discard

theorem sweeps_dropCategory (category : String) :
    (dropCategory category).Sweeps Rules.IsPlain [.single (categoryKey category)] :=
  Op.Sweeps.duty (fun _ h => h.outages) _ (Cache.sweeps_delete _)

theorem sweeps_dropTrending : dropTrending.Sweeps Rules.IsPlain [.single trendingKey] :=
  Op.Sweeps.duty (fun _ h => h.outages) _ (Cache.sweeps_delete _)

theorem categoryKey_eq {category : String} (h : category ≠ "") :
    categoryKey category = if category = "all" then "cache:news" else "cache:news:" ++ category := by
  have hkey : categoryKey category = _ := Resource.key_eq (r := .news category) h
  rw [hkey, Resource.segments, everything]
  split
  · decide
  · refine String.toList_injective ?_
    rw [Key.ofSegments, String.toList_ofList, String.toList_append]
    rfl

theorem beginsWith_of_trending {key : String} (h : Key.beginsWith key "cache:news:trending:" = true) :
    Key.beginsWith key "cache:news:" = true := by
  rw [Key.beginsWith, List.isPrefixOf_iff_prefix] at h ⊢
  exact (List.isPrefixOf_iff_prefix.1 (by decide)).trans h

theorem any_allSweeps (m : Matcher) (key : String) : (allSweeps.any fun x => x.covers m key) =
    (decide (key = "cache:news") || Key.beginsWith key "cache:news:") := by
  have hnewsStart : Text.IsVerbatim "cache:news:" := by decide
  have htrendingStart : Text.IsVerbatim "cache:news:trending:" := by decide
  have hnews : (Sweep.pattern (Category.news.start ++ ":*")).covers m key = Key.beginsWith key "cache:news:" :=
    m.accepts_start hnewsStart key
  have htrending : (Sweep.pattern (Category.newsTrending.start ++ ":*")).covers m key =
      Key.beginsWith key "cache:news:trending:" := m.accepts_start htrendingStart key
  have hall : (Sweep.single (categoryKey everything)).covers m key = decide (key = "cache:news") := by
    have hkey : categoryKey everything = "cache:news" := by decide
    rw [← hkey]
    rfl
  simp only [allSweeps, List.any_cons, List.any_nil, hnews, htrending, hall, Bool.or_false]
  -- the trending list begins with the start of the news keys too
  cases hkey : Key.beginsWith key "cache:news:trending:" with
  | true => rw [beginsWith_of_trending hkey, Bool.true_or, Bool.or_true]
  | false => rw [Bool.false_or, Bool.or_comm]

end News

namespace Update

/-- What the service sweeps away as its answer to an update. -/
def sweeps : Update → List Sweep
  | .asset id kind => (Market.updatedKeys (Key.segment id) kind).map .single
  | .news category trending =>
    (if category.isBlank then News.allSweeps else [.single (News.categoryKey category.plain)]) ++
      if trending then [.single News.trendingKey] else []

end Update

namespace Invalidation

theorem sweeps_invalidate (u : Update) : (invalidate u).Sweeps Rules.IsPlain u.sweeps := by
  cases u with
  | asset id kind =>
    refine (Op.Sweeps.note _).bind fun _ => ?_
    by_cases h : kind = .metadata
    · simp only [Market.updatedKeys, h, if_true]
      exact Market.sweeps_dropExtended _
    · simp only [Market.updatedKeys, h, if_false]
      exact Market.sweeps_dropAsset _
  | news category trending =>
    have htrending : (if trending then News.dropTrending else Pure.pure ()).Sweeps Rules.IsPlain
        (if trending then [.single News.trendingKey] else []) := by
      cases trending with
      | true => exact News.sweeps_dropTrending
      | false => exact Op.Sweeps.pure ()
    refine (Op.Sweeps.note _).bind fun _ => ?_
    cases category.isBlank with
    | true => exact News.sweeps_dropAll.bind fun _ => htrending
    | false => exact (News.sweeps_dropCategory _).bind fun _ => htrending

/-- An announced update makes its sweeps. -/
theorem announce_swept {w : World} (hw : w.network.NeverFails) (hrules : w.memory.rules.IsPlain) (u : Update) :
    ∃ w' exchanges, (announce (announcement u)).run w = (.ok (), w') ∧
      Swept w w' exchanges fun key => u.sweeps.any fun x => x.covers w.server.matcher key := by
  have hanswer : (deliver (announceWithin 31) u .invalidation).Sweeps Rules.IsPlain ([] ++ u.sweeps) :=
    Op.Sweeps.bind (Op.Sweeps.modify fun _ => rfl) fun _ => sweeps_invalidate u
  have hcounted : (Op.collect (·.bump "cache_invalidations_total" [eventType u.topic])).Sweeps Rules.IsPlain [] :=
    Op.Sweeps.modify fun _ => rfl
  have hdelivered : (deliverAll (announceWithin 31) u [.invalidation]).Sweeps Rules.IsPlain (u.sweeps ++ []) :=
    (hanswer.contain _).bind fun _ => Op.Sweeps.pure ()
  obtain ⟨⟨⟩, w', exchanges, hrun, hswept⟩ := (hcounted.bind fun _ => hdelivered) w hw hrules
  rw [List.nil_append, List.append_nil] at hswept
  rw [run_announce hrules]
  exact ⟨w', exchanges, hrun, hswept⟩

/-! ## Updates of assets -/

/-- Which accepted resources stand under the keys that an update of an accepted asset drops. -/
theorem mem_updatedKeys_iff {a : String} (ha : Api.isName a = true) (kind : AssetKind) {r : Resource}
    (hr : r.IsAccepted) :
    r.key ∈ Market.updatedKeys a kind ↔ r = .extended a ∨ r = .snapshot a ∧ kind ≠ .metadata := by
  have hkey : ∀ r' : Resource, r'.IsAccepted → (r.key = r'.key ↔ r = r') :=
    fun r' hr' => ⟨Resource.eq_of_key_eq hr hr', congrArg Resource.key⟩
  have hsnapshot : r.key = Market.snapshotKey a ↔ r = .snapshot a := hkey (.snapshot a) ha
  have hextended : r.key = Market.extendedKey a ↔ r = .extended a := hkey (.extended a) ha
  rw [Market.updatedKeys]
  split
  · rename_i hkind
    simp [hextended, hkind]
  · rename_i hkind
    simp only [List.mem_cons, List.not_mem_nil, or_false, hsnapshot, hextended, hkind, ne_eq,
      not_false_eq_true, and_true]
    exact or_comm

theorem beginsWith_of_mem_updatedKeys {a : String} {kind : AssetKind} {key : String}
    (h : key ∈ Market.updatedKeys a kind) : Key.beginsWith key "cache:market:" = true := by
  have hkeys : key = Market.snapshotKey a ∨ key = Market.extendedKey a := by
    rw [Market.updatedKeys] at h
    split at h
    · exact .inr (List.mem_singleton.1 h)
    · simpa only [List.mem_cons, List.not_mem_nil, or_false] using h
  by_cases ha : a = ""
  · rcases hkeys with rfl | rfl
    · rw [ha]
      decide
    · rw [ha]
      decide
  · have hsnapshot : Market.snapshotKey a = _ := Resource.key_eq (r := .snapshot a) ha
    have hextended : Market.extendedKey a = _ := Resource.key_eq (r := .extended a) ha
    simp only [Key.beginsWith]
    rcases hkeys with rfl | rfl
    · rw [hsnapshot]
      simp only [Key.ofSegments, String.toList_ofList]
      rfl
    · rw [hextended]
      simp only [Key.ofSegments, String.toList_ofList]
      rfl

/-- An update of an asset removes its extended data and, unless only the description of the asset changed, its
snapshot, and leaves every other entry to time. Of the accepted resources these are those of the asset itself, if
its name is accepted; no news are among them. The next read of what was removed goes upstream, however late. -/
theorem asset_update_drops {w : World} (hw : w.network.NeverFails) (hrules : w.memory.rules.IsPlain) (a : String)
    (kind : AssetKind) :
    ∃ w' exchanges, (announce (.asset (.str a) (.str kind.name))).run w = (.ok (), w') ∧ Traced w w' exchanges ∧
      (∀ key, w'.server.find? key = if key ∈ Market.updatedKeys a kind then none
        else (w.server.waits (w.network.pauses w.history exchanges)).find? key) ∧
      (w.network.IsPrompt → ∀ key ∉ Market.updatedKeys a kind, w'.server.find? key = w.server.find? key) ∧
      (Api.isName a = true → ∀ r : Resource, r.IsAccepted →
        (r.key ∈ Market.updatedKeys a kind ↔ r = .extended a ∨ r = .snapshot a ∧ kind ≠ .metadata)) ∧
      (∀ key, Key.beginsWith key "cache:news" = true → key ∉ Market.updatedKeys a kind) ∧
      (∀ r : Resource, r.IsAccepted → r.key ∈ Market.updatedKeys a kind → ∀ delays,
        let late := { w' with server := w'.server.waits delays }
        (r.read.run late).2.memory.fetches = r.key :: late.memory.fetches) := by
  obtain ⟨w', exchanges, hrun, hswept⟩ := announce_swept hw hrules (.asset (.str a) kind)
  have hcovers : ∀ key, ((Update.asset (.str a) kind).sweeps.any fun x => x.covers w.server.matcher key) =
      decide (key ∈ Market.updatedKeys a kind) := by
    intro key
    rw [Update.sweeps, Key.segment_str, Market.any_updatedKeys]
  simp only [hcovers] at hswept
  have hentries := hswept.entries
  simp only [decide_eq_true_eq] at hentries
  refine ⟨w', exchanges, hrun, hswept.traced, hentries, fun hprompt key hkey => ?_, fun ha r hr => ?_,
    fun key hnews hkey => ?_, fun r hr hkey delays => ?_⟩
  · exact hswept.kept hprompt (decide_eq_false hkey)
  · exact mem_updatedKeys_iff ha kind hr
  · have hmarket := beginsWith_of_mem_updatedKeys hkey
    rw [Key.beginsWith, List.isPrefixOf_iff_prefix] at hnews hmarket
    have hprefix := List.prefix_of_prefix_length_le hnews hmarket (by decide)
    revert hprefix
    decide
  · intro late
    have hlate : late.network.Contained := (hswept.traced.neverFails hw).contained
    have hduties : late.memory.outages = [] := (congrArg Rules.outages hswept.rules).trans hrules.outages
    have hgone : late.server.find? r.key = none := by
      refine Server.find?_waits_eq_none ?_ delays
      rw [hentries, if_pos hkey]
    exact (Resource.fetches_read_iff hr hlate hduties).2 (Cache.get_of_missing hlate hgone)

/-- A new price of an asset drops its two entries, keeps those of an asset whose name is the start of a key, and the
next read of the snapshot goes upstream. -/
theorem asset_update_drops_price :
    ∃ w', (announce (.asset (.str "XLM") (.str "price"))).run (World.fresh
        [("cache:market:snapshot:XLM", ⟨"[1]", none⟩), ("cache:market:snapshot:extended:XLM", ⟨"[2]", none⟩),
          ("cache:market:snapshot:extended", ⟨"[3]", none⟩)]) = (.ok (), w') ∧
      w'.server.find? "cache:market:snapshot:XLM" = none ∧
      w'.server.find? "cache:market:snapshot:extended:XLM" = none ∧
      w'.server.find? "cache:market:snapshot:extended" = some ⟨"[3]", none⟩ ∧
      ((Resource.snapshot "XLM").read.run w').2.memory.fetches = "cache:market:snapshot:XLM" :: w'.memory.fetches := by
  obtain ⟨w', exchanges, hrun, -, hentries, hkept, -, -, hread⟩ :=
    asset_update_drops (World.neverFails_fresh _) ⟨rfl, rfl, rfl⟩ "XLM" .price
  refine ⟨w', hrun, ?_, ?_, ?_, hread (.snapshot "XLM") (by decide) (by decide) []⟩
  · rw [hentries, if_pos (by decide)]
  · rw [hentries, if_pos (by decide)]
  · rw [hkept (World.isPrompt_fresh _) _ (by decide)]
    rfl

/-! ## Updates of news -/

theorem any_news_sweeps (m : Matcher) (category : Option String) (trending : Bool) (key : String) :
    ((Update.news (Json.ofOption .str category) trending).sweeps.any fun x => x.covers m key) =
      News.isUpdated category trending key := by
  have htrending : ((if trending then [Sweep.single News.trendingKey] else []).any fun x => x.covers m key) =
      (trending && decide (key = "cache:news:trending")) := by
    have hkey : News.trendingKey = "cache:news:trending" := by decide
    cases trending with
    | true =>
      rw [if_pos rfl, List.any_cons, List.any_nil, Bool.or_false, hkey]
      rfl
    | false => rfl
  have hblank : (Json.ofOption .str category).isBlank = decide (category.getD "" = "") := by
    cases category <;> rfl
  rw [Update.sweeps, List.any_append, htrending, News.isUpdated, hblank]
  by_cases hc : category.getD "" = ""
  · rw [if_pos (decide_eq_true hc), if_pos hc, News.any_allSweeps]
    -- the trending list is among the news that begin with the start
    by_cases hkey : key = "cache:news:trending"
    · rw [hkey]
      cases trending <;> decide
    · rw [decide_eq_false hkey, Bool.and_false, Bool.or_false]
  · obtain ⟨c, rfl⟩ : ∃ c, category = some c := by
      cases category with
      | none => exact absurd rfl hc
      | some c => exact ⟨c, rfl⟩
    rw [if_neg (by rw [decide_eq_false hc]; decide), if_neg hc, List.any_cons, List.any_nil, Bool.or_false]
    have hkey : News.categoryKey c = _ := News.categoryKey_eq hc
    change (decide (key = News.categoryKey c) || _) = _
    rw [hkey]
    rfl

/-- Only news are dropped. -/
theorem isNews_of_isUpdated {category : Option String} {trending : Bool} {key : String}
    (h : News.isUpdated category trending key = true) :
    key = "cache:news" ∨ Key.beginsWith key "cache:news:" = true := by
  rw [News.isUpdated] at h
  split at h
  · rw [Bool.or_eq_true, decide_eq_true_eq] at h
    exact h
  · rw [Bool.or_eq_true, Bool.and_eq_true, decide_eq_true_eq, decide_eq_true_eq] at h
    rcases h with rfl | ⟨-, rfl⟩
    · split
      · exact .inl rfl
      · refine .inr ?_
        rw [Key.beginsWith, String.toList_append, List.isPrefixOf_iff_prefix]
        exact List.prefix_append _ _
    · exact .inr (by decide)

/-- An update of a category of the news removes the news of that category and, where it is said to be trending, the
trending list. Without a category it removes the news of all categories and every key under the start of the news.
Every other entry is left to time; entries that are no news are among these. -/
theorem news_update_drops {w : World} (hw : w.network.NeverFails) (hrules : w.memory.rules.IsPlain)
    (category : Option String) (trending : Bool) :
    ∃ w' exchanges, (announce (.news (Json.ofOption .str category) trending)).run w = (.ok (), w') ∧
      Traced w w' exchanges ∧
      (∀ key, w'.server.find? key = if News.isUpdated category trending key then none
        else (w.server.waits (w.network.pauses w.history exchanges)).find? key) ∧
      (w.network.IsPrompt → ∀ key, News.isUpdated category trending key = false →
        w'.server.find? key = w.server.find? key) ∧
      (∀ key, News.isUpdated category trending key = true →
        key = "cache:news" ∨ Key.beginsWith key "cache:news:" = true) := by
  obtain ⟨w', exchanges, hrun, hswept⟩ := announce_swept hw hrules (.news (Json.ofOption .str category) trending)
  simp only [any_news_sweeps] at hswept
  exact ⟨w', exchanges, hrun, hswept.traced, hswept.entries, fun hprompt _ hkey => hswept.kept hprompt hkey,
    fun _ => isNews_of_isUpdated⟩

/-- Without a category all news go, the bare start too, and what only begins like them stays. -/
theorem news_update_drops_all :
    ∃ w', (announce (.news .null false)).run (World.fresh [("cache:news", ⟨"[1]", none⟩),
        ("cache:news:defi", ⟨"[2]", none⟩), ("cache:newsletter:1", ⟨"[3]", none⟩),
        ("cache:market:snapshot:XLM", ⟨"[4]", none⟩)]) = (.ok (), w') ∧
      w'.server.find? "cache:news" = none ∧ w'.server.find? "cache:news:defi" = none ∧
      w'.server.find? "cache:newsletter:1" = some ⟨"[3]", none⟩ ∧
      w'.server.find? "cache:market:snapshot:XLM" = some ⟨"[4]", none⟩ := by
  obtain ⟨w', exchanges, hrun, -, hentries, hkept, -⟩ :=
    news_update_drops (World.neverFails_fresh [("cache:news", ⟨"[1]", none⟩), ("cache:news:defi", ⟨"[2]", none⟩),
      ("cache:newsletter:1", ⟨"[3]", none⟩), ("cache:market:snapshot:XLM", ⟨"[4]", none⟩)]) ⟨rfl, rfl, rfl⟩
      none false
  refine ⟨w', hrun, ?_, ?_, ?_, ?_⟩
  · rw [hentries, if_pos (by decide)]
  · rw [hentries, if_pos (by decide)]
  · rw [hkept (World.isPrompt_fresh _) _ (by decide)]
    rfl
  · rw [hkept (World.isPrompt_fresh _) _ (by decide)]
    rfl

end Invalidation
end CacheAside
