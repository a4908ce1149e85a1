import CacheAside.Proofs.Cache.Outcome
import CacheAside.Proofs.Invalidation.Announcing

/-! # Failures stay inside

Whatever fails on the way to the store, and whatever stands in it, an operation ends with an answer; the
one failure that a caller sees is that of a provider it brought itself. Each failure on the way is one
error in the journal. `Sound` is this for operations that have no failures of their own, and it is kept
by putting such operations together. -/

namespace CacheAside
set_option autoImplicit false

/-! ## Sound operations -/

/-- Only the service itself hears of updates, and nothing is out of order. -/
structure Rules.IsPlain (r : Rules) : Prop where
  asset : r.assetSubscribers = [.invalidation]
  news : r.newsSubscribers = [.invalidation]
  outages : r.outages = []

/-- An operation that always has an answer and writes one error for each failure on its way. -/
def Sound {α : Type} (op : Op α) : Prop :=
  ∀ w : World, w.network.Contained → w.memory.rules.IsPlain →
    ∃ a w' exchanges, op.run w = (.ok a, w') ∧ Accounted w w' exchanges 0

namespace Sound
variable {α β : Type}

theorem pure (a : α) : Sound (Pure.pure a : Op α) :=
  fun w _ _ => ⟨a, w, [], rfl, Accounted.refl w⟩

theorem modify {f : Memory → Memory} (hf : Quiet f) : Sound (modify f : Op Unit) :=
  fun w _ _ => ⟨(), w.withMemory f, [], rfl, (Accounted.refl w).quiet hf⟩

theorem note {n : Note} (hn : n.isCacheError = false) : Sound (Op.note n) := modify (quiet_noted hn)

theorem bind {op : Op α} {f : α → Op β} (h : Sound op) (hf : ∀ a, Sound (f a)) : Sound (op >>= f) := by
  intro w hw hrules
  obtain ⟨a, w₁, earlier, hrun, hfirst⟩ := h w hw hrules
  have hrules₁ : w₁.memory.rules.IsPlain := by
    rw [hfirst.rules]
    exact hrules
  obtain ⟨b, w₂, later, hrun₂, hsecond⟩ := hf a w₁ (hfirst.traced.contained hw) hrules₁
  refine ⟨b, w₂, later ++ earlier, ?_, hfirst.trans hsecond⟩
  rw [Op.run_bind, hrun]
  exact hrun₂

theorem discard {op : Op α} (h : Sound op) : Sound (Functor.discard op) := by
  intro w hw hrules
  obtain ⟨a, w', exchanges, hrun, haccounted⟩ := h w hw hrules
  refine ⟨(), w', exchanges, ?_, haccounted⟩
  rw [Op.run_discard, hrun]

theorem contain {body : Op α} (h : Sound body) (handle : Failure → Op α) : Sound (Op.contain body handle) := by
  intro w hw hrules
  obtain ⟨a, w', exchanges, hrun, haccounted⟩ := h w hw hrules
  refine ⟨a, w', exchanges, ?_, haccounted⟩
  rw [Op.run_contain, hrun]

theorem duty (d : Duty) {body : Op α} (h : Sound body) : Sound (Op.duty d body) := by
  intro w hw hrules
  obtain ⟨a, w', exchanges, hrun, haccounted⟩ := h w hw hrules
  refine ⟨a, w', exchanges, ?_, haccounted⟩
  rw [Op.run_duty_of_no_outages d body hrules.outages]
  exact hrun

theorem gather {ops : List (Op α)} (h : ∀ op ∈ ops, Sound op) : Sound (Op.gather [] ops) := by
  induction ops with
  | nil => exact pure []
  | cons op ops ih =>
    intro w hw hrules
    obtain ⟨a, w₁, earlier, hrun, hfirst⟩ := h op List.mem_cons_self w hw hrules
    have hrules₁ : w₁.memory.rules.IsPlain := by
      rw [hfirst.rules]
      exact hrules
    have hrest := ih fun o ho => h o (List.mem_cons_of_mem _ ho)
    obtain ⟨as, w₂, later, hrun₂, hsecond⟩ := hrest w₁ (hfirst.traced.contained hw) hrules₁
    exact ⟨a :: as, w₂, later ++ earlier, Op.run_gather_cons hrun hrun₂, hfirst.trans hsecond⟩

end Sound

/-! ## Operations of the cache -/

namespace Cache

theorem sound_delete (key : String) : Sound (delete key) := by
  intro w hw _
  obtain ⟨exchanges, -, -, haccounted, hok⟩ := delete_outcome key hw
  exact ⟨(), _, exchanges, Prod.ext hok rfl, haccounted⟩

theorem sound_deleteByPattern (pattern : String) : Sound (deleteByPattern pattern) := by
  intro w hw _
  obtain ⟨exchanges, -, -, haccounted, n, hok, -⟩ := deleteByPattern_outcome pattern hw
  exact ⟨n, _, exchanges, Prod.ext hok rfl, haccounted⟩

end Cache

/-! ## Updates and clearing -/

namespace Invalidation

theorem sound_note (level : Level) (event : String) (fields : List (String × Json)) :
    Sound (note level event fields) := by
  refine Sound.note ?_
  rw [Note.isCacheError, decide_eq_false_iff_not]
  rintro ⟨h, -⟩
  change logger = Cache.logger at h
  exact absurd h (by decide)

theorem dropping_sound : Op.Dropping fun _ op => Sound op where
  pure := Sound.pure
  note := sound_note .info
  bind := Sound.bind
  discard := Sound.discard
  duty := Sound.duty
  gather := Sound.gather
  delete := Cache.sound_delete
  deleteByPattern := Cache.sound_deleteByPattern

theorem sound_clearAll : Sound clearAll := by
  refine Sound.bind (sound_note _ _ _) fun _ => Sound.bind (Sound.gather ?_) fun counts => Sound.pure _
  intro op hop
  obtain ⟨pattern, -, rfl⟩ := List.mem_map.1 hop
  exact Cache.sound_deleteByPattern pattern

def announcement : Update → Announcement
  | .asset id kind => .asset id (.str kind.name)
  | .news category trending => .news category trending

theorem accept_announcement (u : Update) : accept (announcement u) = .ok u := by
  rcases u with ⟨id, kind⟩ | ⟨category, trending⟩
  · cases kind <;> rfl
  · rfl

/-- Where the rules are plain, an announcement is counted and reaches the service's own answer alone. -/
theorem run_announce {w : World} (hrules : w.memory.rules.IsPlain) (u : Update) :
    (announce (announcement u)).run w =
      (Op.collect (·.bump "cache_invalidations_total" [eventType u.topic]) >>= fun _ =>
        deliverAll (announceWithin 31) u [.invalidation]).run w := by
  have hsubscribers : w.memory.subscribers u.topic = [.invalidation] := by
    cases u.topic with
    | asset => exact hrules.asset
    | news => exact hrules.news
  rw [announce, nesting, announceWithin, accept_announcement]
  simp only
  rw [Op.run_bind, Op.run_bind, Op.run_collect]
  simp only
  rw [Op.run_bind, Op.run_get]
  exact congrArg (fun subscribers => (deliverAll (announceWithin 31) u subscribers).run _) hsubscribers

/-- The service's own answer to an update cannot fail, so announcing one cannot either. -/
theorem sound_announce (u : Update) : Sound (announce (announcement u)) := by
  have hdeliver : Sound (deliverAll (announceWithin 31) u [.invalidation]) := by
    refine Sound.bind (Sound.contain ?_ _) fun _ => Sound.pure ()
    exact Sound.bind (Sound.modify fun _ => ⟨rfl, rfl⟩) fun _ => dropping_invalidate dropping_sound u
  have hcollect : Sound (Op.collect (·.bump "cache_invalidations_total" [eventType u.topic])) :=
    Sound.modify fun _ => ⟨rfl, rfl⟩
  intro w hw hrules
  rw [run_announce hrules]
  exact (hcollect.bind fun _ => hdeliver) w hw hrules

end Invalidation

/-! ## Providers -/

/-- A provider that makes no call to the store, writes no error of the cache and keeps the rules. -/
def Detached (provider : Op Payload) : Prop :=
  ∀ w : World, Accounted w (provider.run w).2 [] 0

namespace Cache
variable {w : World}

theorem isUnsent_congr {m m' : Memory} (h : m'.rules = m.rules) (key : String) (value : Payload)
    (seconds : Option Seconds) : isUnsent m' key value seconds = isUnsent m key value seconds := by
  have hseconds : secondsFor m' key seconds = secondsFor m key seconds := by
    have hregistry : m'.registry = m.registry := congrArg Rules.registry h
    have hmisfiled : m'.misfiled = m.misfiled := congrArg Rules.misfiled h
    have hotherwise : m'.otherwise = m.otherwise := congrArg Rules.otherwise h
    simp only [secondsFor, hregistry, hmisfiled, hotherwise]
  have hlimits : m'.limits = m.limits := congrArg Rules.limits h
  simp only [isUnsent, order, hseconds, hlimits]

/-- What the provider of a read comes to, if it is called at all. -/
def delivery? (key : String) (provider : Op Payload) (w : World) : Option (Except Failure Payload) :=
  match (get key).run w with
  | (.ok .null, w) => some (provider.run (w.withMemory (fetchIn key))).1
  | _ => none

/-- The errors that a read owes to its provider, or to the write of what it delivered. -/
def deliveryErrors (m : Memory) (key : String) (seconds : Option Seconds) : Option (Except Failure Payload) → ℕ
  | some (.ok value) => if isUnsent m key value seconds then 1 else 0
  | some (.error f) => if f.isContained then 1 else 0
  | none => 0

theorem callProvider_outcome (key : String) {provider : Op Payload} (hprovider : Detached provider) (w : World) :
    ((callProvider key provider).run w).1 = (provider.run (w.withMemory (fetchIn key))).1 ∧
      Accounted w ((callProvider key provider).run w).2 []
        (match (provider.run (w.withMemory (fetchIn key))).1 with
          | .error f => if f.isContained then 1 else 0
          | .ok _ => 0) := by
  rw [run_callProvider]
  refine ⟨rfl, ?_⟩
  have hcalled : Accounted w (provider.run (w.withMemory (fetchIn key))).2 ([] ++ []) (0 + 0) :=
    ((Accounted.refl w).quiet (quiet_fetchIn key)).trans (hprovider _)
  rcases hrun : provider.run (w.withMemory (fetchIn key)) with ⟨r, w₁⟩
  rw [hrun] at hcalled
  cases r with
  | ok value => exact hcalled.quiet fun _ => ⟨rfl, rfl⟩
  | error f =>
    cases hf : f.isContained with
    | true =>
      change Accounted _ _ [] (if f.isContained then 1 else 0)
      rw [if_pos hf]
      refine ⟨hcalled.traced.withMemory _, ?_, ?_⟩
      · refine Eq.trans ?_ hcalled.rules
        simp only [World.withMemory, deliveredIn, hf, if_true]
        rfl
      · have herrors := hcalled.errors
        have hdelivered : (deliveredIn key (.error f) w₁.memory).errors = w₁.memory.errors + 1 := by
          rw [← errors_swallowIn "Cache provider error" [("key", .str key)] f]
          simp only [deliveredIn, hf, if_true]
          rfl
        change (deliveredIn key (.error f) w₁.memory).errors = _
        rw [hdelivered]
        exact congrArg (· + 1) herrors
    | false =>
      change Accounted _ _ [] (if f.isContained then 1 else 0)
      rw [if_neg (by simp [hf])]
      refine hcalled.quiet fun m => ?_
      simp only [deliveredIn, hf, Bool.false_eq_true, if_false]
      exact ⟨rfl, rfl⟩

theorem getOrSet_outcome (key : String) {provider : Op Payload} (hprovider : Detached provider)
    (seconds : Option Seconds) (hw : w.network.Contained) :
    (∀ f, ((getOrSet key provider seconds).run w).1 = .error f ↔ delivery? key provider w = some (.error f)) ∧
      ∃ exchanges, Accounted w ((getOrSet key provider seconds).run w).2 exchanges
        (deliveryErrors w.memory key seconds (delivery? key provider w)) := by
  obtain ⟨earlier, -, -, hget, hok, -⟩ := get_outcome key hw
  rw [run_getOrSet, delivery?]
  rcases hrun : (get key).run w with ⟨r, w₁⟩
  rw [hrun] at hget hok
  simp only at hok
  rw [hok]
  generalize (if wentThrough earlier then
    (w.server.waits (w.network.pauses w.history earlier)).valueAt w.memory.limits key else Json.null) = v
  cases v with
  | null =>
    simp only
    obtain ⟨hdelivered, hcalled⟩ := callProvider_outcome key hprovider w₁
    have hafter := hget.trans hcalled
    rcases hcall : (callProvider key provider).run w₁ with ⟨r, w₂⟩
    rw [hcall] at hdelivered hcalled hafter
    simp only at hdelivered
    rw [← hdelivered] at hafter ⊢
    cases r with
    | error f =>
      refine ⟨fun f' => ?_, [] ++ earlier, ?_⟩
      · simp
      · rw [Nat.zero_add] at hafter
        exact hafter
    | ok value =>
      obtain ⟨writing, -, hset, hsetok, -⟩ := set_outcome key value seconds (hafter.traced.contained hw)
      rw [isUnsent_congr hafter.rules] at hset
      simp only
      rcases hwrite : (set key value seconds).run w₂ with ⟨r, w₃⟩
      rw [hwrite] at hset hsetok
      simp only at hsetok
      subst hsetok
      refine ⟨fun f' => ?_, writing ++ ([] ++ earlier), ?_⟩
      · simp
      · have hall := hafter.trans hset
        rw [Nat.zero_add, Nat.zero_add] at hall
        exact hall
  | _ =>
    refine ⟨fun f => ?_, earlier, hget⟩
    simp

end Cache

/-! ## Whole runs -/

/-- The calls of an event that failed, and the texts that could not be read. -/
def Event.strikes {δ α : Type} (e : Event δ α) : ℕ :=
  e.before.network.strikes e.before.memory.limits e.before.history e.before.server e.exchanges

namespace Cache

/-- What can be asked of the service, updates and clearing included. -/
inductive Request where
  | get (key : String)
  | set (key : String) (value : Payload) (seconds : Option Seconds)
  | delete (key : String)
  | deleteByPattern (pattern : String)
  | invalidateEntity (type name : Json)
  | serverInfo
  | getOrSet (key : String) (provider : Op Payload) (detached : Detached provider) (seconds : Option Seconds)
  | update (u : Update)
  | clearAll

inductive Answer where
  | nothing
  | value (v : Payload)
  | count (n : ℕ)
  | text (s : String)

namespace Request

def op : Request → Op Answer
  | .get key => do return .value (.json (← Cache.get key))
  | .set key value seconds => do
    Cache.set key value seconds
    return .nothing
  | .delete key => do
    Cache.delete key
    return .nothing
  | .deleteByPattern pattern => do return .count (← Cache.deleteByPattern pattern)
  | .invalidateEntity type name => do return .count (← Cache.invalidateEntity type name)
  | .serverInfo => do return .text (← Cache.serverInfo)
  | .getOrSet key provider _ seconds => do return .value (← Cache.getOrSet key provider seconds)
  | .update u => do
    Invalidation.announce (Invalidation.announcement u)
    return .nothing
  | .clearAll => do return .count (← Invalidation.clearAll)

def delivery? (w : World) : Request → Option (Except Failure Payload)
  | .getOrSet key provider _ _ => Cache.delivery? key provider w
  | _ => none

/-- The answer in place of one that cannot be had from the store. -/
def fallback? : Request → Option Answer
  | .get _ => some (.value (.json .null))
  | .deleteByPattern _ => some (.count 0)
  | .invalidateEntity _ _ => some (.count 0)
  | .serverInfo => some (.text Cache.infoUnavailable)
  | _ => none

/-- The errors that a request causes besides those on the way to the store: a value that cannot be written, or
the failure of a provider. -/
def ownErrors (w : World) : Request → ℕ
  | .set key value seconds => if Cache.isUnsent w.memory key value seconds then 1 else 0
  | .getOrSet key provider _ seconds =>
    Cache.deliveryErrors w.memory key seconds (Cache.delivery? key provider w)
  | _ => 0

end Request

theorem run_map_ok {α β : Type} {op : Op α} (f : α → β) {w w' : World} {a : α} (h : op.run w = (.ok a, w')) :
    (op >>= fun a => (return f a : Op β)).run w = (.ok (f a), w') := by
  rw [Op.run_bind, h]
  rfl

/-- A request that has an answer whatever happens, seen as an event. -/
theorem event_of_ok {e : Event Request Answer} {a : Answer} {w' : World} {exchanges : List Exchange} {own : ℕ}
    (he : e.Performs Request.op) (hrun : (Request.op e.deed).run e.before = (.ok a, w'))
    (haccounted : Accounted e.before w' exchanges own) :
    e.outcome = .ok a ∧ exchanges = e.exchanges ∧ Accounted e.before e.after exchanges own := by
  rw [Event.Performs, hrun] at he
  obtain ⟨houtcome, rfl⟩ := Prod.mk.inj he
  exact ⟨houtcome.symm, haccounted.traced.exchanges_eq.symm, haccounted⟩

theorem request_outcome {e : Event Request Answer} (he : e.Performs Request.op)
    (hw : e.before.network.Contained) (hrules : e.before.memory.rules.IsPlain) :
    (∀ f, e.outcome = .error f ↔ e.deed.delivery? e.before = some (.error f)) ∧
      (e.strikes ≠ 0 → ∀ a, e.deed.fallback? = some a → e.outcome = .ok a) ∧
      Accounted e.before e.after e.exchanges (e.deed.ownErrors e.before) := by
  -- a request without a provider, once it is known to have an answer
  have hplain : ∀ a w' exchanges, (Request.op e.deed).run e.before = (.ok a, w') →
      Accounted e.before w' exchanges (e.deed.ownErrors e.before) → e.deed.delivery? e.before = none →
      (e.before.network.strikes e.before.memory.limits e.before.history e.before.server exchanges ≠ 0 →
        ∀ b, e.deed.fallback? = some b → a = b) →
      (∀ f, e.outcome = .error f ↔ e.deed.delivery? e.before = some (.error f)) ∧
        (e.strikes ≠ 0 → ∀ a, e.deed.fallback? = some a → e.outcome = .ok a) ∧
        Accounted e.before e.after e.exchanges (e.deed.ownErrors e.before) := by
    intro a w' exchanges hrun haccounted hdelivery hfallback
    obtain ⟨houtcome, rfl, hafter⟩ := event_of_ok he hrun haccounted
    refine ⟨fun f => ?_, fun hstrikes b hb => ?_, hafter⟩
    · rw [houtcome, hdelivery]
      simp
    · rw [houtcome, hfallback hstrikes b hb]
  obtain ⟨deed, w, outcome, w'⟩ := e
  simp only at hw hrules
  cases deed with
  | get key =>
    obtain ⟨exchanges, -, -, haccounted, hok, hnull⟩ := Cache.get_outcome key hw
    refine hplain _ _ exchanges (run_map_ok (fun v => Answer.value (.json v)) (Prod.ext hok rfl)) haccounted rfl
      fun hstrikes b hb => ?_
    cases hb
    have hvalue := hnull hstrikes
    rw [hok] at hvalue
    rw [Except.ok.inj hvalue]
  | set key value seconds =>
    obtain ⟨exchanges, -, haccounted, hok, -⟩ := Cache.set_outcome key value seconds hw
    exact hplain .nothing _ exchanges (run_map_ok (fun _ => Answer.nothing) (Prod.ext hok rfl)) haccounted rfl
      fun _ b hb => by cases hb
  | delete key =>
    obtain ⟨exchanges, -, -, haccounted, hok⟩ := Cache.delete_outcome key hw
    exact hplain .nothing _ exchanges (run_map_ok (fun _ => Answer.nothing) (Prod.ext hok rfl)) haccounted rfl
      fun _ b hb => by cases hb
  | deleteByPattern pattern =>
    obtain ⟨exchanges, -, -, haccounted, n, hok, hzero⟩ := Cache.deleteByPattern_outcome pattern hw
    refine hplain (.count n) _ exchanges (run_map_ok Answer.count (Prod.ext hok rfl)) haccounted rfl
      fun hstrikes b hb => ?_
    cases hb
    rw [hzero hstrikes]
  | invalidateEntity type name =>
    obtain ⟨exchanges, -, haccounted, n, hok, hzero⟩ := Cache.invalidateEntity_outcome type name hw
    refine hplain (.count n) _ exchanges (run_map_ok Answer.count (Prod.ext hok rfl)) haccounted rfl
      fun hstrikes b hb => ?_
    cases hb
    rw [hzero hstrikes]
  | serverInfo =>
    obtain ⟨exchanges, -, -, haccounted, text, hok, hinfo⟩ := Cache.serverInfo_outcome hw
    refine hplain (.text text) _ exchanges (run_map_ok Answer.text (Prod.ext hok rfl)) haccounted rfl
      fun hstrikes b hb => ?_
    cases hb
    rw [hinfo hstrikes]
  | getOrSet key provider detached seconds =>
    obtain ⟨hfails, exchanges, haccounted⟩ := Cache.getOrSet_outcome key detached seconds hw
    have hrun : (Cache.getOrSet key provider seconds >>= fun v => (return .value v : Op Answer)).run w =
        (outcome, w') := he
    rw [Op.run_bind] at hrun
    rcases hget : (Cache.getOrSet key provider seconds).run w with ⟨r, w₁⟩
    rw [hget] at hfails haccounted hrun
    have hafter : w₁ = w' ∧ ∀ f, outcome = .error f ↔ r = .error f := by
      cases r with
      | ok v =>
        cases hrun
        simp
      | error f =>
        cases hrun
        simp
    obtain ⟨rfl, houtcome⟩ := hafter
    obtain rfl := haccounted.traced.exchanges_eq
    refine ⟨fun f => (houtcome f).trans (hfails f), ?_, haccounted⟩
    rintro _ a ⟨⟩
  | update u =>
    obtain ⟨a, w', exchanges, hrun, haccounted⟩ := Invalidation.sound_announce u w hw hrules
    exact hplain .nothing _ exchanges (run_map_ok (fun _ => Answer.nothing) hrun) haccounted rfl
      fun _ b hb => by cases hb
  | clearAll =>
    obtain ⟨n, w', exchanges, hrun, haccounted⟩ := Invalidation.sound_clearAll w hw hrules
    exact hplain (.count n) _ exchanges (run_map_ok Answer.count hrun) haccounted rfl
      fun _ b hb => by cases hb

/-- In every run a request fails only where the provider that it brings fails, and then with that failure.
Where a call fails or a text cannot be read, it answers as if nothing were there. The journal of the cache
grows by exactly one error for each failure. -/
theorem faults_stay_inside {w : World} (hfaults : w.network.Contained) (hrules : w.memory.rules.IsPlain)
    {requests : List Request} {past rest : List (Event Request Answer)} {e : Event Request Answer}
    (h : record Request.op requests w = past ++ e :: rest) :
    (∀ f, e.outcome = .error f ↔ e.deed.delivery? e.before = some (.error f)) ∧
      (e.strikes ≠ 0 → ∀ a, e.deed.fallback? = some a → e.outcome = .ok a) ∧
      e.after.memory.errors = e.before.memory.errors + e.strikes + e.deed.ownErrors e.before := by
  have hstep : ∀ (past : List (Event Request Answer)) (e : Event Request Answer),
      (e.before.network.Contained ∧ e.before.memory.rules.IsPlain) → e.Performs Request.op →
        e.after.network.Contained ∧ e.after.memory.rules.IsPlain := by
    rintro past e ⟨hw, hrules⟩ he
    obtain ⟨-, -, haccounted⟩ := request_outcome he hw hrules
    refine ⟨haccounted.traced.contained hw, ?_⟩
    rw [haccounted.rules]
    exact hrules
  obtain ⟨⟨hw, hplain⟩, he⟩ := record_invariant
    (P := fun _ w => w.network.Contained ∧ w.memory.rules.IsPlain) hstep ⟨hfaults, hrules⟩ h
  obtain ⟨hfails, hfallback, haccounted⟩ := request_outcome he hw hplain
  exact ⟨hfails, hfallback, haccounted.errors⟩

/-- A text that cannot be read and a provider that fails are one error each. -/
theorem faults_stay_inside_unreadable :
    ∃ e, record Request.op [.getOrSet "k" (throw (.fault .runtime "down")) Accounted.refl none]
        (World.fresh [("k", ⟨"\x7b", none⟩)]) = [e] ∧ e.strikes = 1 ∧
      e.outcome = .error (.fault .runtime "down") ∧ e.after.memory.errors = e.before.memory.errors + 1 + 1 := by
  have h : record Request.op [.getOrSet "k" (throw (.fault .runtime "down")) Accounted.refl none]
      (World.fresh [("k", ⟨"\x7b", none⟩)]) = [] ++ _ :: [] := rfl
  have hfaults := World.contained_fresh [("k", ⟨"\x7b", none⟩)]
  exact ⟨_, h, rfl, rfl, (faults_stay_inside hfaults ⟨rfl, rfl, rfl⟩ h).2.2⟩

end Cache
end CacheAside
