import CacheAside.Proofs.Resource.Shown
import CacheAside.Proofs.Cache.Guarded

/-! # Traffic

Calls to the service are started at any time and carried on in any order, one command at a time, while calls to
the store fail and entries run out. Whatever happens, what stands under a key is of the resource that the key is
of, because no two resources share a key; so a read gives what was asked for, whether it comes from the store or
from the feed (`no_cross_talk`). -/

namespace CacheAside
set_option autoImplicit false

/-! ## Reads under a policy -/

/-- Lets the read of every accepted resource through the cache, with these results. -/
def Policy.Caches (P : Policy) (Q : Resource → Payload → Prop) : Prop :=
  ∀ r : Resource, r.IsAccepted → (Cache.getOrSet r.key r.provider (some r.lifetime)).Within P (Q r)

namespace Api
variable {P : Policy} {Q : Resource → Payload → Prop}

theorem within_accepted {Q : Payload → Prop} {name : Except Failure String} {body : String → Op Payload}
    (h : ∀ a, name = .ok a → (body a).Within P Q) : (accepted name body).Within P Q :=
  (Op.Within.conclude (Q := fun a => name = .ok a) fun _ ha => ha).bind fun a ha => h a ha

theorem within_snapshot (h : P.Caches Q) (asset : Json) :
    (snapshot asset).Within P fun p => ∃ a, asset = .str a ∧ Q (.snapshot a) p := by
  refine Op.Within.duty _ (within_accepted fun a ha => ?_)
  obtain ⟨rfl, hname⟩ := assetName_eq_ok ha
  exact Op.Within.duty _ ((h (.snapshot a) hname).mono fun p hp => ⟨a, rfl, hp⟩)

theorem within_extended (h : P.Caches Q) (asset : Json) :
    (extended asset).Within P fun p => ∃ a, asset = .str a ∧ Q (.extended a) p := by
  refine Op.Within.duty _ (within_accepted fun a ha => ?_)
  obtain ⟨rfl, hname⟩ := assetName_eq_ok ha
  exact Op.Within.duty _ ((h (.extended a) hname).mono fun p hp => ⟨a, rfl, hp⟩)

theorem within_news (h : P.Caches Q) (category : Json) :
    (news category).Within P fun p => ∃ c, category = .str c ∧ Q (.news c) p := by
  refine Op.Within.duty _ (within_accepted fun c hc => ?_)
  obtain ⟨rfl, hname⟩ := categoryName_eq_ok hc
  exact Op.Within.duty _ ((h (.news c) hname).mono fun p hp => ⟨c, rfl, hp⟩)

theorem within_trending (h : P.Caches Q) : trending.Within P (Q .trending) :=
  Op.Within.duty _ (Op.Within.duty _ (h .trending trivial))

end Api

/-! ## Reads under the guard -/

namespace Resource

/-- Whether a text may stand under a key: it is written of a resource with this key. -/
def Belongs (key text : String) : Prop :=
  ∃ r : Resource, r.IsAccepted ∧ r.key = key ∧ ∃ v, r.Shows v ∧ v.text = text

/-- What stands under the key of a resource is read as a value of it. -/
theorem shows_of_belongs {r : Resource} (hr : r.IsAccepted) {text : String} (h : Belongs r.key text)
    {limits : Json.Limits} {v : Json} (hread : Json.read limits text = .ok v) : r.Shows v := by
  obtain ⟨r', hr', hkey, v', hshows, rfl⟩ := h
  obtain rfl := eq_of_key_eq hr' hr hkey
  exact read_shown hshows hread

theorem caches_belongs : (Policy.guarding Belongs).Caches Gives := by
  intro r hr
  refine Cache.within_getOrSet Policy.lenient_guarding ?_ (within_provider _ r) ?_
  · exact fun limits text v htext hread => ⟨v, rfl, shows_of_belongs hr (htext text rfl) hread⟩
  · rintro _ ⟨v, rfl, hv⟩ s - limits text htext
    obtain ⟨-, -, rfl⟩ := Payload.writeWithin_eq_ok.1 htext
    have hbelongs : Belongs r.key v.text := ⟨r, hr, rfl, v, hv, rfl⟩
    exact ⟨fun _ => hbelongs, fun _ => hbelongs⟩

end Resource

/-! ## Calls -/

inductive Call where
  | snapshot (asset : Json)
  | extended (asset : Json)
  | news (category : Json)
  | trending
  | announce (a : Announcement)
  | clearAll

namespace Call

/-- The operation of a call; only reads give something. -/
def op : Call → Op (Option Payload)
  | .snapshot asset => some <$> Api.snapshot asset
  | .extended asset => some <$> Api.extended asset
  | .news category => some <$> Api.news category
  | .trending => some <$> Api.trending
  | .announce a => do
    Invalidation.announce a
    return none
  | .clearAll => do
    discard Invalidation.clearAll
    return none

/-- The resource that a read of a value names. -/
def Reads : Call → Resource → Prop
  | .snapshot asset, r => ∃ a, asset = .str a ∧ r = .snapshot a
  | .extended asset, r => ∃ a, asset = .str a ∧ r = .extended a
  | .news category, r => ∃ c, category = .str c ∧ r = .news c
  | .trending, r => r = .trending
  | _, _ => False

def Gives (call : Call) (given : Option Payload) : Prop :=
  ∀ p, given = some p → ∃ r v, call.Reads r ∧ p = .json v ∧ r.Shows v

theorem within_op {P : Policy} (hP : P.Lenient) {Q : Resource → Payload → Prop} (h : P.Caches Q) (call : Call) :
    call.op.Within P fun given => ∀ p, given = some p → ∃ r, call.Reads r ∧ Q r p := by
  have hsome : ∀ {p' : Payload}, (∃ r, call.Reads r ∧ Q r p') → ∀ p, some p' = some p →
      ∃ r, call.Reads r ∧ Q r p := by
    rintro p' hp' p ⟨⟩
    exact hp'
  have hnone : ∀ p, none = some p → ∃ r, call.Reads r ∧ Q r p := fun p hp => nomatch hp
  cases call with
  | snapshot asset =>
    refine Op.Within.map (Api.within_snapshot h asset) fun p hp => hsome ?_
    obtain ⟨a, ha, hp⟩ := hp
    exact ⟨.snapshot a, ⟨a, ha, rfl⟩, hp⟩
  | extended asset =>
    refine Op.Within.map (Api.within_extended h asset) fun p hp => hsome ?_
    obtain ⟨a, ha, hp⟩ := hp
    exact ⟨.extended a, ⟨a, ha, rfl⟩, hp⟩
  | news category =>
    refine Op.Within.map (Api.within_news h category) fun p hp => hsome ?_
    obtain ⟨c, hc, hp⟩ := hp
    exact ⟨.news c, ⟨c, hc, rfl⟩, hp⟩
  | trending => exact Op.Within.map (Api.within_trending h) fun p hp => hsome ⟨.trending, rfl, hp⟩
  | announce a => exact (Invalidation.within_announce hP a).bind fun _ _ => Op.Within.pure hnone
  | clearAll => exact (Invalidation.within_clearAll hP).discard.bind fun _ _ => Op.Within.pure hnone

theorem within_gives (call : Call) : call.op.Within (Policy.guarding Resource.Belongs) call.Gives := by
  refine (within_op Policy.lenient_guarding Resource.caches_belongs call).mono fun given hgiven p hp => ?_
  obtain ⟨r, hr, v, hv, hshows⟩ := hgiven p hp
  exact ⟨r, v, hr, hv, hshows⟩

end Call

/-! ## Runs of calls -/

/-- The world, the calls started so far, and what is left of them to do, each in the place of its call. -/
structure Traffic where
  world : World
  calls : List Call
  pool : Pool (Except Failure (Option Payload))

inductive Move where
  | start (call : Call)
  /-- Carries on the call at a place, by one step. -/
  | carryOn (place : ℕ)
  /-- These entries run out. -/
  | expire (keys : List String)

namespace Traffic

def make (t : Traffic) : Move → Traffic
  | .start call => { t with calls := t.calls ++ [call], pool := t.pool ++ [ExceptT.run call.op] }
  | .carryOn place => { t with world := (t.pool.advance place t.world).2, pool := (t.pool.advance place t.world).1 }
  | .expire keys => { t with world := { t.world with server := t.world.server.without keys } }

/-- The traffic after moves, in order. -/
def after (t : Traffic) (moves : List Move) : Traffic := moves.foldl make t

/-- What the call at a place may end in. -/
def Due (t : Traffic) (place : ℕ) (r : Except Failure (Option Payload)) : Prop :=
  ∀ call, t.calls[place]? = some call → ∀ given, r = .ok given → call.Gives given

/-- What stands in the store may stand there, and every call keeps to that. -/
structure Orderly (t : Traffic) : Prop where
  store : t.world.server.Guarded Resource.Belongs
  places : t.pool.length = t.calls.length
  pool : ∀ (i : ℕ) (task : Task Memory (Except Failure (Option Payload))), t.pool[i]? = some task →
    task.Within (Policy.guarding Resource.Belongs) (t.Due i)

theorem Orderly.start {t : Traffic} (h : t.Orderly) (call : Call) : (t.make (.start call)).Orderly := by
  refine ⟨h.store, by simp [Traffic.make, h.places], fun i task hi => ?_⟩
  rcases Nat.lt_or_ge i t.pool.length with hlt | hge
  · -- an earlier call
    have hi' : t.pool[i]? = some task := by
      rw [← hi, Traffic.make, List.getElem?_append_left hlt]
    refine (h.pool i task hi').mono fun r hr call' hcall' => hr call' ?_
    rw [← hcall', Traffic.make, List.getElem?_append_left (h.places ▸ hlt)]
  · rw [Traffic.make, List.getElem?_append_right hge, List.getElem?_singleton] at hi
    split at hi
    · rename_i hlast
      obtain rfl : i = t.calls.length := by have := h.places; omega
      cases hi
      refine Task.Within.mono (fun r hr call' hcall' => ?_) call.within_gives
      rw [Traffic.make, List.getElem?_concat_length] at hcall'
      cases hcall'
      exact hr
    · cases hi

theorem Orderly.make {t : Traffic} (h : t.Orderly) (m : Move) : (t.make m).Orderly := by
  cases m with
  | start call => exact h.start call
  | carryOn place =>
    obtain ⟨hstore, hpool⟩ := Policy.upheld_guarding.advance h.pool h.store place
    exact ⟨hstore, (Pool.length_advance _ _ _).trans h.places, hpool⟩
  | expire keys => exact ⟨h.store.without keys, h.places, h.pool⟩

theorem Orderly.after {t : Traffic} (h : t.Orderly) (moves : List Move) : (t.after moves).Orderly := by
  induction moves generalizing t with
  | nil => exact h
  | cons m moves ih => exact ih (h.make m)

end Traffic

/-! ## No cross-talk -/

/-- The names of the indicators in extended data. -/
def Feed.indicatorNames : List String := ["rsi", "macd", "bollinger_bands", "moving_averages"]

/-- What a caller counts on in what a read gives: the data of the very asset, with indicators or without, the
articles of the very category, or the trending list. -/
def Call.Serves : Call → Json → Prop
  | .snapshot asset, v => (∃ s : Feed.Snapshot, v = s.json) ∧ v.member? "asset_id" = some asset ∧
      ∀ name ∈ Feed.indicatorNames, v.member? name = none
  | .extended asset, v => (∃ (s : Feed.Snapshot) (i : Feed.Indicators), v = Feed.extendedJson s i) ∧
      v.member? "asset_id" = some asset ∧ ∀ name ∈ Feed.indicatorNames, v.member? name ≠ none
  | .news category, v => ∃ articles : List Feed.Article, articles ≠ [] ∧
      v = .arr (articles.map Feed.Article.json) ∧
      ∀ article ∈ articles, article.json.member? "category" = some category
  | .trending, v => ∃ present halfHourAgo : Instant,
      v = .arr ((Feed.trendingArticles present halfHourAgo).map Feed.Article.json)
  | _, _ => False

theorem Call.serves_of_shows {call : Call} {r : Resource} {v : Json} (hreads : call.Reads r) (h : r.Shows v) :
    call.Serves v := by
  cases call with
  | snapshot asset =>
    obtain ⟨a, rfl, rfl⟩ := hreads
    obtain ⟨s, rfl, rfl⟩ := h
    refine ⟨⟨s, rfl⟩, rfl, fun name hname => ?_⟩
    simp only [Feed.indicatorNames, List.mem_cons, List.not_mem_nil, or_false] at hname
    obtain rfl | rfl | rfl | rfl := hname <;> rfl
  | extended asset =>
    obtain ⟨a, rfl, rfl⟩ := hreads
    obtain ⟨s, i, rfl, rfl⟩ := h
    refine ⟨⟨s, i, rfl⟩, rfl, fun name hname => ?_⟩
    simp only [Feed.indicatorNames, List.mem_cons, List.not_mem_nil, or_false] at hname
    obtain rfl | rfl | rfl | rfl := hname <;> exact Option.some_ne_none _
  | news category =>
    obtain ⟨c, rfl, rfl⟩ := hreads
    obtain ⟨hourAgo, twoHoursAgo, rfl⟩ := h
    refine ⟨_, List.cons_ne_nil _ _, rfl, fun article harticle => ?_⟩
    simp only [List.mem_cons, List.not_mem_nil, or_false] at harticle
    obtain rfl | rfl := harticle <;> rfl
  | trending =>
    obtain rfl := hreads
    exact h
  | announce a => exact hreads.elim
  | clearAll => exact hreads.elim

/-- From an empty store on, whatever is called, fails or runs out meanwhile and in whatever order calls are
carried on, a read that ends with a value gives what it asks for. -/
theorem Traffic.no_cross_talk {w : World} (hempty : ∀ key, w.server.find? key = none) (moves : List Move) {i : ℕ}
    {call : Call} {p : Payload} (hcall : ((Traffic.mk w [] []).after moves).calls[i]? = some call)
    (hended : ((Traffic.mk w [] []).after moves).pool[i]? = some (.done (.ok (some p)))) :
    ∃ v, p = .json v ∧ call.Serves v := by
  have hstart : (Traffic.mk w [] []).Orderly := by
    refine ⟨fun key e he => ?_, rfl, fun i task hi => ?_⟩
    · change w.server.find? key = some e at he
      rw [hempty] at he
      cases he
    · cases hi
  have hgives : call.Gives (some p) := (hstart.after moves).pool i _ hended call hcall (some p) rfl
  obtain ⟨r, v, hreads, rfl, hshows⟩ := hgives p rfl
  exact ⟨v, rfl, Call.serves_of_shows hreads hshows⟩

/-- The moves of two reads of one asset, in turns. -/
def Traffic.turns : List Move :=
  [.start (.snapshot (.str "XLM")), .start (.extended (.str "XLM")), .carryOn 0, .carryOn 1, .carryOn 0, .carryOn 1,
    .carryOn 0,
    .carryOn 0, .carryOn 0, .carryOn 1, .carryOn 1, .carryOn 0, .expire ["cache:market:snapshot:XLM"], .carryOn 0,
    .carryOn 0, .carryOn 0]

theorem Traffic.no_cross_talk_turns : ∃ p,
    ((Traffic.mk (World.fresh []) [] []).after turns).pool[0]? = some (.done (.ok (some p))) ∧
      ∃ v, p = .json v ∧ (Call.snapshot (.str "XLM")).Serves v := by
  have hended : ((Traffic.mk (World.fresh []) [] []).after turns).pool[0]? = some (.done (.ok (some _))) := rfl
  exact ⟨_, hended, Traffic.no_cross_talk (fun _ => rfl) _ rfl hended⟩

end CacheAside
