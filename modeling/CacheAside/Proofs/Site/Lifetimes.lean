import CacheAside.Proofs.Site.Requests

/-! # How long entries live

Only reads of accepted resources write, each with the lifetime of its own resource, and no two of them share a key.
So from an empty store on every entry has seconds left, and no more of them than the resource of its key is given
(`nothing_outlives`), however the registry would file that key and whatever fails, runs out or is dropped. -/

namespace CacheAside
set_option autoImplicit false

/-! ## Leases -/

/-- The seconds that a resource is kept. -/
def Resource.seconds : Resource → ℕ
  | .snapshot _ => 60
  | .extended _ => 300
  | .news _ => 600
  | .trending => 300

theorem Resource.lifetime_eq (r : Resource) : r.lifetime = .whole r.seconds := by
  cases r <;> rfl

theorem Resource.seconds_pos (r : Resource) : 0 < r.seconds := by
  cases r <;> exact Nat.succ_pos _

/-- Allows to write under the key of an accepted resource with the lifetime of that resource, and not otherwise. -/
def Policy.leasing : Policy where
  allows
    | .set _ _ => False
    | .setFor key seconds _ => ∃ r : Resource, r.IsAccepted ∧ r.key = key ∧ seconds = r.lifetime
    | _ => True
  admits _ _ := True

/-- Whether an entry has seconds left, no more than the accepted resource of its key is kept. -/
def Entry.IsLeased (key : String) (e : Entry) : Prop :=
  ∃ r : Resource, r.IsAccepted ∧ r.key = key ∧ ∃ left : ℤ, e.left = some (.whole left) ∧ 0 < left ∧ left ≤ r.seconds

theorem Entry.IsLeased.wait {key : String} {e e' : Entry} {n : ℕ} (h : e.IsLeased key) (hlater : e.wait n = some e') :
    e'.IsLeased key := by
  obtain ⟨r, hr, hkey, left, hleft, hpos, hle⟩ := h
  cases n with
  | zero =>
    cases hlater
    exact ⟨r, hr, hkey, left, hleft, hpos, hle⟩
  | succ n =>
    rw [Entry.wait, Entry.later, hleft] at hlater
    simp only [Seconds.minus_whole, Seconds.isOver?_whole, Option.some.injEq, decide_eq_true_eq] at hlater
    split at hlater
    · cases hlater
    · cases hlater
      refine ⟨r, hr, hkey, left - (n + 1 : ℕ), rfl, by omega, by omega⟩

namespace Policy

theorem upheld_leasing : leasing.Upheld (Server.All Entry.IsLeased) where
  admits _ _ _ _ := trivial
  apply s c h hc := by
    cases c with
    | set key text => exact hc.elim
    | setFor key seconds text =>
      obtain ⟨r, hr, hkey, rfl⟩ := hc
      have hpos := r.seconds_pos
      refine h.put ⟨r, hr, hkey, r.seconds, ?_, by omega, le_rfl⟩
      rw [r.lifetime_eq, Seconds.unlessNull_whole]
    | remove keys => exact h.without keys
    | _ => exact h
  wait s n h := h.wait fun _ _ _ he hlater => he.wait hlater

theorem lenient_leasing : leasing.Lenient := by
  intro c hc
  cases c with
  | set key text => cases hc
  | setFor key seconds text => cases hc
  | _ => trivial

theorem caches_leasing : leasing.Caches fun _ _ => True := by
  intro r hr
  refine Cache.within_getOrSet lenient_leasing (fun _ _ _ _ _ => trivial)
    ((Resource.within_provider _ r).mono fun _ _ => trivial) ?_
  intro value _ s hs limits text _
  refine ⟨fun _ => ⟨r, hr, rfl, hs _ rfl⟩, fun hnot => ?_⟩
  have hpos := r.seconds_pos
  -- a lifetime is never without end
  rw [hs _ rfl, r.lifetime_eq, Seconds.isPositive?_whole, Option.some.injEq, decide_eq_false_iff_not] at hnot
  omega

end Policy

/-! ## Calls and requests over time -/

inductive Demand where
  | call (c : Call)
  | request (s : Site) (r : Http.Request)

def Demand.op : Demand → Op Unit
  | .call c => discard c.op
  | .request s r => discard (s.answer r)

theorem Demand.within_op (d : Demand) : d.op.Within Policy.leasing fun _ => True := by
  cases d with
  | call c => exact (c.within_op Policy.lenient_leasing Policy.caches_leasing).discard
  | request s r => exact (s.within_answer Policy.lenient_leasing Policy.caches_leasing r).discard

/-- The world and what is left to do of the demands made so far, each in its place. -/
structure Load where
  world : World
  pool : Pool (Except Failure Unit)

inductive Turn where
  | start (d : Demand)
  /-- Carries on the demand at a place, by one step. -/
  | carryOn (place : ℕ)
  | pass (seconds : ℕ)

namespace Load

def take (l : Load) : Turn → Load
  | .start d => { l with pool := l.pool ++ [ExceptT.run d.op] }
  | .carryOn place => ⟨(l.pool.advance place l.world).2, (l.pool.advance place l.world).1⟩
  | .pass seconds => { l with world := { l.world with server := l.world.server.wait seconds } }

/-- The load after turns, in order. -/
def after (l : Load) (turns : List Turn) : Load := turns.foldl take l

/-- Every entry is leased, and whatever is left to do keeps to that. -/
structure Lasts (l : Load) : Prop where
  store : l.world.server.All Entry.IsLeased
  pool : ∀ (i : ℕ) (task : Task Memory (Except Failure Unit)), l.pool[i]? = some task →
    task.Within Policy.leasing fun r => ∀ a, r = .ok a → True

theorem Lasts.take {l : Load} (h : l.Lasts) (t : Turn) : (l.take t).Lasts := by
  cases t with
  | start d =>
    refine ⟨h.store, fun i task hi => ?_⟩
    rcases List.mem_append.1 (List.mem_of_getElem? hi) with hold | hnew
    · obtain ⟨j, hj⟩ := List.mem_iff_getElem?.1 hold
      exact h.pool j task hj
    · rw [List.mem_singleton.1 hnew]
      exact d.within_op
  | carryOn place =>
    obtain ⟨hstore, hpool⟩ := Policy.upheld_leasing.advance h.pool h.store place
    exact ⟨hstore, hpool⟩
  | pass seconds => exact ⟨Policy.upheld_leasing.wait _ seconds h.store, h.pool⟩

theorem Lasts.after {l : Load} (h : l.Lasts) (turns : List Turn) : (l.after turns).Lasts := by
  induction turns generalizing l with
  | nil => exact h
  | cons t turns ih => exact ih (h.take t)

/-- From an empty store on, whatever is asked for, fails, runs out or is dropped, and in whatever order, every entry
stands under the key of exactly one accepted resource and runs out within the seconds that this resource is kept. -/
theorem nothing_outlives {w : World} (hempty : ∀ key, w.server.find? key = none) (turns : List Turn) {key : String}
    {e : Entry} (hfound : ((Load.mk w []).after turns).world.server.find? key = some e) :
    ∃ r : Resource, r.IsAccepted ∧ r.key = key ∧ (∀ r' : Resource, r'.IsAccepted → r'.key = key → r' = r) ∧
      ∃ left : ℤ, e.left = some (.whole left) ∧ 0 < left ∧ left ≤ r.seconds := by
  have hstart : (Load.mk w []).Lasts := by
    refine ⟨fun key e he => ?_, fun i task hi => by cases hi⟩
    change w.server.find? key = some e at he
    rw [hempty] at he
    cases he
  obtain ⟨r, hr, hkey, hleft⟩ := (hstart.after turns).store key e hfound
  exact ⟨r, hr, hkey, fun r' hr' hkey' => Resource.eq_of_key_eq hr' hr (hkey'.trans hkey.symm), hleft⟩

/-- A snapshot is written and five seconds pass, while news are asked for over HTTP. -/
def overlapping : List Turn :=
  [.start (.call (.snapshot (.str "extended-2"))),
    .start (.request ⟨"cache", ⟨true, false⟩, none⟩ ⟨"GET", "localhost", .parse "/api/cache/news", none⟩),
    .carryOn 0, .carryOn 1, .carryOn 0, .carryOn 0, .carryOn 1, .carryOn 0, .carryOn 0, .carryOn 0, .carryOn 0,
    .carryOn 0, .pass 5]

/-- The key of the snapshot begins like those of extended data; what stands there is kept as a snapshot. -/
theorem nothing_outlives_overlapping : ∃ key e, key = "cache:market:snapshot:extended-2" ∧
    ((Load.mk (World.fresh []) []).after overlapping).world.server.find? key = some e ∧ e.left = some (.whole 55) ∧
      ∃ r : Resource, r.IsAccepted ∧ r.key = key ∧ (∀ r' : Resource, r'.IsAccepted → r'.key = key → r' = r) ∧
        ∃ left : ℤ, e.left = some (.whole left) ∧ 0 < left ∧ left ≤ r.seconds := by
  have hfound : ((Load.mk (World.fresh []) []).after overlapping).world.server.find?
      "cache:market:snapshot:extended-2" = some ⟨_, some (.whole 55)⟩ := rfl
  exact ⟨_, _, rfl, hfound, rfl, nothing_outlives (fun _ => rfl) _ hfound⟩

end Load
end CacheAside
