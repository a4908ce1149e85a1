import CacheAside.Proofs.Resource.Owner
import CacheAside.Proofs.Json.RoundTrip
import CacheAside.Proofs.Run.Policy

/-! # What the feed shows of a resource

The value of a resource is what the feed makes up for it, with some figures and instants: the fields of a
snapshot with the name of the asset among them, the same with the indicators behind, or articles. It says itself
what it is of (`asset_shown`, `category_shown`), and what is read from its text is the value as it was
(`read_shown`). -/

namespace CacheAside
set_option autoImplicit false

namespace Resource

/-- Whether a value is one of this resource. -/
def Shows : Resource → Json → Prop
  | .snapshot a, v => ∃ s : Feed.Snapshot, s.asset = a ∧ v = s.json
  | .extended a, v => ∃ (s : Feed.Snapshot) (i : Feed.Indicators), s.asset = a ∧ v = Feed.extendedJson s i
  | .news c, v => ∃ hourAgo twoHoursAgo : Instant,
      v = .arr ((Feed.categoryArticles c hourAgo twoHoursAgo).map Feed.Article.json)
  | .trending, v => ∃ present halfHourAgo : Instant,
      v = .arr ((Feed.trendingArticles present halfHourAgo).map Feed.Article.json)

/-- Whether a read of this resource may give this. -/
def Gives (r : Resource) (p : Payload) : Prop := ∃ v, p = .json v ∧ r.Shows v

theorem isWellNamed_of_shows {r : Resource} {v : Json} (h : r.Shows v) : v.isWellNamed = true := by
  cases r with
  | snapshot a =>
    obtain ⟨s, -, rfl⟩ := h
    rfl
  | extended a =>
    obtain ⟨s, i, -, rfl⟩ := h
    rfl
  | news c =>
    obtain ⟨hourAgo, twoHoursAgo, rfl⟩ := h
    rfl
  | trending =>
    obtain ⟨present, halfHourAgo, rfl⟩ := h
    rfl

/-- What is read from the text of a value, within any limits, is shown of the resource as well. -/
theorem read_shown {r : Resource} {v v' : Json} (h : r.Shows v) {limits : Json.Limits}
    (hread : Json.read limits v.text = .ok v') : r.Shows v' := by
  rwa [Json.eq_of_read_text (isWellNamed_of_shows h) hread]

end Resource

/-! ## The feed keeps to every policy -/

namespace Feed
variable (P : Policy)

theorem within_draw : draw.Within P fun _ => True := by
  refine Op.Within.get.bind fun m _ => ?_
  cases m.draws with
  | nil => exact Op.Within.pure trivial
  | cons x rest => exact (Op.Within.set _).bind fun _ _ => Op.Within.pure trivial

theorem within_between (base width : Float) : (between base width).Within P fun _ => True :=
  (within_draw P).bind fun _ _ => Op.Within.pure trivial

theorem within_drawSnapshot (a : String) : (drawSnapshot (.str a)).Within P fun s => s.asset = a := by
  refine (within_between P _ _).bind fun price _ => (within_between P _ _).bind fun volume _ => ?_
  refine (within_between P _ _).bind fun cap _ => (within_between P _ _).bind fun change _ => ?_
  exact Op.Within.get.bind fun m _ => Op.Within.pure rfl

theorem within_drawIndicators : drawIndicators.Within P fun _ => True := by
  refine (within_between P _ _).bind fun strength _ => (within_draw P).bind fun value _ => ?_
  refine (within_draw P).bind fun signal _ => (within_draw P).bind fun histogram _ => ?_
  refine (within_between P _ _).bind fun upper _ => (within_between P _ _).bind fun middle _ => ?_
  refine (within_between P _ _).bind fun lower _ => (within_between P _ _).bind fun simple20 _ => ?_
  refine (within_between P _ _).bind fun simple50 _ => (within_between P _ _).bind fun exponential12 _ => ?_
  exact Op.Within.pure trivial

theorem within_ago (seconds : ℕ) : (ago seconds).Within P fun _ => True := by
  refine Op.Within.get.bind fun m _ => ?_
  cases m.clock.earlier seconds with
  | some i => exact Op.Within.pure trivial
  | none => exact Op.Within.throw _

end Feed

namespace Resource

/-- What is fetched for a resource is a value of it. -/
theorem within_provider (P : Policy) (r : Resource) : r.provider.Within P r.Gives := by
  cases r with
  | snapshot a =>
    refine Op.Within.duty _ ((Op.Within.note _).bind fun _ _ => ?_)
    exact (Feed.within_drawSnapshot P a).bind fun s hs => Op.Within.pure ⟨_, rfl, s, hs, rfl⟩
  | extended a =>
    refine Op.Within.duty _ ((Op.Within.note _).bind fun _ _ => (Feed.within_drawIndicators P).bind fun i _ => ?_)
    exact (Feed.within_drawSnapshot P a).bind fun s hs => Op.Within.pure ⟨_, rfl, s, i, hs, rfl⟩
  | news c =>
    refine Op.Within.duty _ ((Op.Within.note _).bind fun _ _ => (Feed.within_ago P _).bind fun hourAgo _ => ?_)
    exact (Feed.within_ago P _).bind fun twoHoursAgo _ => Op.Within.pure ⟨_, rfl, hourAgo, twoHoursAgo, rfl⟩
  | trending =>
    refine Op.Within.duty _ ((Op.Within.note _).bind fun _ _ => Op.Within.get.bind fun m _ => ?_)
    exact (Feed.within_ago P _).bind fun halfHourAgo _ => Op.Within.pure ⟨_, rfl, m.clock, halfHourAgo, rfl⟩

end Resource
end CacheAside
