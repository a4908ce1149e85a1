import CacheAside.Proofs.Json.Strings
import CacheAside.Proofs.Resource.Delivered
import CacheAside.Proofs.Site.Effect

/-! # Requests for data

A request for the data of an accepted resource is answered whatever calls to the store fail and whatever stands in
it. What cannot be read is fetched again; what can be read is answered as it is, unless it lacks the shape that is
declared for the resource or goes too deep, which is answered as an internal error (`data_answered`). A text with half
a character cannot be sent on; nothing is promised for it. -/

namespace CacheAside
set_option autoImplicit false

open Http (Request Response Route)

/-! ## Shapes -/

/-- The shape that the data of a resource is declared to have. -/
def Resource.shape : Resource → Http.Shape
  | .snapshot _ | .extended _ => .object
  | .news _ | .trending => .objects

/-- Whether a value has the declared shape, and goes no deeper than an answer may. -/
def Resource.Suits (r : Resource) (v : Json) : Prop := r.shape.describes v = true ∧ r.shape.holds v = true

theorem Resource.describes_of_shows {r : Resource} {v : Json} (h : r.Shows v) : r.shape.describes v = true := by
  cases r with
  | snapshot a =>
    obtain ⟨s, -, rfl⟩ := h
    rfl
  | extended a =>
    obtain ⟨s, i, -, rfl⟩ := h
    rfl
  | news c =>
    obtain ⟨hourAgo, twoHoursAgo, rfl⟩ := h
    rfl
  | trending =>
    obtain ⟨present, halfHourAgo, rfl⟩ := h
    rfl

theorem Resource.levels_of_shows {r : Resource} {v : Json} (h : r.Shows v) : v.levels ≤ 3 := by
  cases r with
  | snapshot a =>
    obtain ⟨s, -, rfl⟩ := h
    simp [Feed.Snapshot.json, Feed.Snapshot.fields, Json.levels, Json.memberLevels]
  | extended a =>
    obtain ⟨s, i, -, rfl⟩ := h
    simp [Feed.extendedJson, Feed.Snapshot.fields, Feed.Indicators.fields, Json.levels, Json.memberLevels]
  | news c =>
    obtain ⟨hourAgo, twoHoursAgo, rfl⟩ := h
    simp [Feed.categoryArticles, Feed.Article.json, Json.levels, Json.itemLevels, Json.memberLevels]
  | trending =>
    obtain ⟨present, halfHourAgo, rfl⟩ := h
    simp [Feed.trendingArticles, Feed.Article.json, Json.levels, Json.itemLevels, Json.memberLevels]

/-- What the feed makes up for a resource can be answered. -/
theorem Resource.suits_of_shows {r : Resource} {v : Json} (h : r.Shows v) : r.Suits v := by
  have hlevels := levels_of_shows h
  refine ⟨describes_of_shows h, decide_eq_true ?_⟩
  rw [Http.Shape.levelsBelow]
  omega

namespace Http

theorem isObject_finite (v : Json) : isObject (finite v) = isObject v := by
  cases v with
  | float x =>
    rw [finite]
    split <;> rfl
  | _ => rfl

theorem all_isObject_finiteItems (vs : List Json) : (finiteItems vs).all isObject = vs.all isObject := by
  induction vs with
  | nil => rfl
  | cons v vs ih => rw [finiteItems, List.all_cons, List.all_cons, isObject_finite, ih]

/-- Making numbers finite keeps the shape. -/
theorem Shape.describes_finite (shape : Shape) (v : Json) : shape.describes (finite v) = shape.describes v := by
  cases shape with
  | object => exact isObject_finite v
  | objects =>
    cases v with
    | arr vs => exact all_isObject_finiteItems vs
    | float x =>
      rw [finite]
      split <;> rfl
    | _ => rfl

end Http

/-! ## Requests -/

/-- Whether a request asks for a resource. -/
def Http.Request.AsksFor (req : Request) (r : Resource) : Prop :=
  req.method = "GET" ∧ match r with
    | .snapshot a => req.target.path = ("/api/cache/market/" ++ a).toList
    | .extended a => req.target.path = ("/api/cache/market/" ++ a ++ "/extended").toList
    | .news c => req.target.path = "/api/cache/news".toList ∧ Site.category req.target = c
    | .trending => req.target.path = "/api/cache/news/trending".toList

/-- The segments of the path of a resource. -/
def Resource.path : Resource → List String
  | .snapshot a => ["api", "cache", "market", a]
  | .extended a => ["api", "cache", "market", a, "extended"]
  | .news _ => ["api", "cache", "news"]
  | .trending => ["api", "cache", "news", "trending"]

def Resource.route : Resource → Route
  | .snapshot a => .snapshot a
  | .extended a => .extended a
  | .news _ => .news
  | .trending => .trending

/-- The name of the provider that is asked for a resource. -/
def Resource.providerName : Resource → String
  | .snapshot _ | .extended _ => "market"
  | .news _ | .trending => "news"

theorem Http.split_path {words : List String} (h : ∀ word ∈ words, '/' ∉ word.toList) :
    Text.split '/' (Text.join '/' ([] :: words.map String.toList)) = [] :: words.map String.toList := by
  refine Text.split_join (List.cons_ne_nil _ _) fun word hword => ?_
  rcases List.mem_cons.1 hword with rfl | hword
  · exact List.not_mem_nil
  · obtain ⟨s, hs, rfl⟩ := List.mem_map.1 hword
    exact h s hs

theorem Resource.slash_not_mem_path {r : Resource} (h : r.IsAccepted) : ∀ word ∈ r.path, '/' ∉ word.toList := by
  have hname : ∀ {a : String}, Api.isName a = true → '/' ∉ a.toList :=
    fun ha => Api.not_mem_of_isName ha (by decide) (by decide)
  have hplain : ∀ word ∈ ["api", "cache", "market", "extended", "news", "trending"], '/' ∉ word.toList := by decide
  intro word hword
  cases r with
  | snapshot a =>
    simp only [path, List.mem_cons, List.not_mem_nil, or_false] at hword
    obtain rfl | rfl | rfl | rfl := hword <;> first | exact hname h | exact hplain _ (by decide)
  | extended a =>
    simp only [path, List.mem_cons, List.not_mem_nil, or_false] at hword
    obtain rfl | rfl | rfl | rfl | rfl := hword <;> first | exact hname h | exact hplain _ (by decide)
  | news c =>
    simp only [path, List.mem_cons, List.not_mem_nil, or_false] at hword
    obtain rfl | rfl | rfl := hword <;> exact hplain _ (by decide)
  | trending =>
    simp only [path, List.mem_cons, List.not_mem_nil, or_false] at hword
    obtain rfl | rfl | rfl | rfl := hword <;> exact hplain _ (by decide)

theorem Http.Request.AsksFor.path_eq {req : Request} {r : Resource} (h : req.AsksFor r) :
    req.target.path = Text.join '/' ([] :: r.path.map String.toList) := by
  obtain ⟨-, h⟩ := h
  cases r with
  | snapshot a =>
    rw [show req.target.path = _ from h, String.toList_append]
    rfl
  | extended a =>
    rw [show req.target.path = _ from h, String.toList_append, String.toList_append]
    simp [Resource.path, Text.join]
  | news c => exact h.1
  | trending => exact h

namespace Site
variable {s : Site} {req : Request} {r : Resource}

theorem destination_of_asks (hcache : s.features.cache = true) (hr : r.IsAccepted) (h : req.AsksFor r) :
    Http.destination s.features req.target.path = .route r.route := by
  have hname : ∀ {a : String}, Api.isName a = true → a.toList ≠ [] := by
    intro a ha hnil
    exact Api.ne_empty_of_isName ha (String.toList_eq_nil_iff.1 hnil)
  have hroute : Route.ofPath? s.features req.target.path = some r.route := by
    rw [Route.ofPath?, h.path_eq, Http.split_path (Resource.slash_not_mem_path hr)]
    cases r with
    | snapshot a => simp [Resource.path, hcache, Route.is, Route.ofCache?, Resource.route, hname hr]
    | extended a => simp [Resource.path, hcache, Route.is, Route.ofCache?, Resource.route, hname hr, Route.ends]
    | news c => simp [Resource.path, hcache, Route.is, Route.ofCache?, Resource.route, Route.ends]
    | trending => simp [Resource.path, hcache, Route.is, Route.ofCache?, Resource.route, Route.ends]
  rw [Http.destination, hroute]

/-- A request for a resource comes to a read of it. -/
theorem serve_of_asks (hcache : s.features.cache = true) (hr : r.IsAccepted) (h : req.AsksFor r) :
    s.serve req = delivering r.shape (s.asking r.providerName r.read) := by
  have hmethod : req.method ∈ r.route.methods := by
    rw [h.1]
    cases r <;> exact List.mem_singleton.2 rfl
  rw [serve, destination_of_asks hcache hr h]
  simp only [hmethod, if_true]
  cases r with
  | news c =>
    obtain ⟨-, -, hcategory⟩ := h
    rw [Resource.route, respond, hcategory]
    rfl
  | _ => rfl

/-! ## Answers -/

/-- What is answered for a value that was read. -/
def answerFor (r : Resource) (v : Json) : Except Failure Response :=
  if r.shape.describes v = false then .error .misshapen
  else if r.shape.holds v = false then .error .answerTooDeep
  else .ok (.json 200 (Http.finite v))

theorem run_answer_of_read (hcache : s.features.cache = true) (hr : r.IsAccepted) (h : req.AsksFor r) {w w₁ : World}
    {v : Json} (hread : r.read.run (w.withMemory (begunIn req)) = (.ok (.json v), w₁)) :
    ∃ response w', (s.answer req).run w = (.ok response, w') ∧
      (r.Suits v → response.status = 200 ∧ response.body = .json (Http.finite v)) ∧
      (¬ r.Suits v → ∃ f, response = internalError f) := by
  have hserve : (s.serve req).run (w.withMemory (begunIn req)) = (answerFor r v, w₁) := by
    rw [serve_of_asks hcache hr h, run_delivering, run_asking, hread]
    rfl
  rw [run_answer, run_answerInside, hserve, answerFor]
  cases hdescribes : r.shape.describes v with
  | false =>
    refine ⟨_, _, rfl, fun hsuits => ?_, fun _ => ⟨_, rfl⟩⟩
    rw [Resource.Suits, hdescribes] at hsuits
    cases hsuits.1
  | true =>
    cases hholds : r.shape.holds v with
    | false =>
      refine ⟨_, _, rfl, fun hsuits => ?_, fun _ => ⟨_, rfl⟩⟩
      rw [Resource.Suits, hholds] at hsuits
      cases hsuits.2
    | true => exact ⟨_, _, rfl, fun _ => ⟨rfl, rfl⟩, fun hnot => absurd ⟨hdescribes, hholds⟩ hnot⟩

/-- A request for an accepted resource is answered with data of the declared shape where the cache finds nothing, be it
that the call fails, that nothing stands under the key or that it cannot be read, and also where it finds data that
can be answered in a text of whole characters. Where what it finds lacks the shape or goes too deep, the answer is an
internal error. -/
theorem data_answered (hcache : s.features.cache = true) (hr : r.IsAccepted) (hasks : req.AsksFor r) {w : World}
    (hw : w.network.Contained) (hready : w.memory.IsReady) :
    ∃ found v response w', ((Cache.get r.key).run w).1 = .ok found ∧ (s.answer req).run w = (.ok response, w') ∧
      (found = .null → r.Shows v) ∧
      (found ≠ .null → v = found ∧ ∃ e, w.server.find? r.key = some e ∧ Json.read w.memory.limits e.text = .ok found) ∧
      (found = .null ∨ (r.Suits found ∧ ∀ e ∈ w.server.find? r.key, Json.IsWhole e.text) →
        response.status = 200 ∧ response.body = .json (Http.finite v) ∧
          r.shape.describes (Http.finite v) = true) ∧
      (found ≠ .null → ¬ r.Suits found → response.status = 500 ∧ response.body = (internalError .misshapen).body) := by
  have hbegun : (w.withMemory (begunIn req)).memory.IsReady := ⟨hready.outages, hready.calendar⟩
  obtain ⟨found, v, w₁, hfound, hread, hmiss, hhit⟩ :=
    Resource.read_answered hr (w := w.withMemory (begunIn req)) hw hbegun
  rw [Cache.fst_get_withMemory rfl rfl rfl] at hfound
  obtain ⟨response, w', hrun, hsuits, hnot⟩ := run_answer_of_read hcache hr hasks hread
  refine ⟨found, v, response, w', hfound, hrun, hmiss, fun hne => ⟨hhit hne, Cache.exists_of_get hw hfound hne⟩,
    fun h => ?_, fun hne hunfit => ?_⟩
  · have hv : r.Suits v := by
      by_cases hnull : found = .null
      · exact Resource.suits_of_shows (hmiss hnull)
      · rw [hhit hnull]
        exact (h.resolve_left hnull).1
    obtain ⟨hstatus, hbody⟩ := hsuits hv
    exact ⟨hstatus, hbody, (r.shape.describes_finite v).trans hv.1⟩
  · rw [hhit hne] at hnot
    obtain ⟨f, rfl⟩ := hnot hunfit
    exact ⟨rfl, rfl⟩

/-- A site of the cache without its documentation. -/
def plain : Site := ⟨"cache", ⟨true, false⟩, none⟩

/-- A request for the snapshot of an asset. -/
def snapshotRequest : Request := ⟨"GET", "localhost", .parse "/api/cache/market/XLM", none⟩

theorem asksFor_snapshotRequest : snapshotRequest.AsksFor (.snapshot "XLM") := ⟨rfl, by decide⟩

/-- A text that cannot be read is a miss, and the snapshot is answered from the feed. -/
theorem data_answered_unreadable : ∃ v response w',
    (plain.answer snapshotRequest).run (World.fresh [("cache:market:snapshot:XLM", ⟨"\x7b", none⟩)]) =
      (.ok response, w') ∧ response.status = 200 ∧ response.body = .json (Http.finite v) ∧
      (Resource.snapshot "XLM").Shows v := by
  have hcache : plain.features.cache = true := rfl
  have hready : (World.fresh [("cache:market:snapshot:XLM", ⟨"\x7b", none⟩)]).memory.IsReady := ⟨rfl, by decide⟩
  obtain ⟨found, v, response, w', hfound, hrun, hmiss, -, hanswered, -⟩ :=
    data_answered hcache (r := .snapshot "XLM") (by decide) asksFor_snapshotRequest (World.contained_fresh _) hready
  have hget : ((Cache.get (Resource.snapshot "XLM").key).run
      (World.fresh [("cache:market:snapshot:XLM", ⟨"\x7b", none⟩)])).1 = .ok .null := rfl
  have hnull : found = .null := Except.ok.inj (hfound.symm.trans hget)
  obtain ⟨hstatus, hbody, -⟩ := hanswered (.inl hnull)
  exact ⟨v, response, w', hrun, hstatus, hbody, hmiss hnull⟩

/-- A list under the key of a snapshot can be read but is no object. It is answered with an internal error, although
the asset is accepted and no call fails. -/
theorem data_withheld : Json.read .standard "[1]" = .ok (.arr [.int 1]) ∧ (Resource.snapshot "XLM").IsAccepted ∧
    snapshotRequest.AsksFor (.snapshot "XLM") ∧
    ∃ response w', (plain.answer snapshotRequest).run
        (World.fresh [("cache:market:snapshot:XLM", ⟨"[1]", none⟩)]) = (.ok response, w') ∧ response.status = 500 := by
  have hread : ((Resource.snapshot "XLM").read.run
      ((World.fresh [("cache:market:snapshot:XLM", ⟨"[1]", none⟩)]).withMemory (begunIn snapshotRequest))).1 =
        .ok (.json (.arr [.int 1])) := rfl
  have hunfit : ¬ (Resource.snapshot "XLM").Suits (.arr [.int 1]) := fun h => Bool.false_ne_true h.1
  obtain ⟨response, w', hrun, -, hinternal⟩ :=
    run_answer_of_read (s := plain) rfl (by decide) asksFor_snapshotRequest (Prod.ext hread rfl)
  obtain ⟨f, rfl⟩ := hinternal hunfit
  exact ⟨rfl, by decide, asksFor_snapshotRequest, _, w', hrun, rfl⟩

end Site
end CacheAside
