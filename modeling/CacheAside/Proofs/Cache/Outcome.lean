import CacheAside.Proofs.Cache.Effect
import CacheAside.Proofs.Run.Record

/-! # Calls that go through and calls that fail

Each operation of the cache either gets all its calls answered and has its effect, or leaves the server
to time alone (`Settled`). Either way the journal of the cache grows by one error for every failure on
the way (`Accounted`): a call that fails, a text that cannot be read, and what the operation reports of
its own. -/

namespace CacheAside
set_option autoImplicit false

/-! ## Effects on the server -/

/-- The exchanges of an operation that, once they all go through, leaves `leaves` under the keys that it
covers and every other entry to time. -/
structure Settled (w w' : World) (exchanges : List Exchange) (covers : String → Bool) (leaves : Option Entry) :
    Prop where
  traced : Traced w w' exchanges
  failed : wentThrough exchanges = false → w'.server = w.server.waits (w.network.pauses w.history exchanges)
  done : wentThrough exchanges = true → ∀ key, w'.server.find? key =
    if covers key then leaves else (w.server.waits (w.network.pauses w.history exchanges)).find? key

theorem Settled.withMemory {w w' : World} {exchanges : List Exchange} {covers : String → Bool}
    {leaves : Option Entry} (h : Settled w w' exchanges covers leaves) (f : Memory → Memory) :
    Settled w (w'.withMemory f) exchanges covers leaves :=
  ⟨h.traced.withMemory f, h.failed, h.done⟩

/-- The keys under which a command leaves something new. -/
def Command.covers : Command → String → Bool
  | .set key _, k => k = key
  | .setFor key _ _, k => k = key
  | .remove keys, k => k ∈ keys
  | _, _ => false

/-- What a command leaves under the keys that it covers. -/
def Command.leaves : Command → Option Entry
  | .set _ text => some ⟨text, none⟩
  | .setFor _ seconds text => some ⟨text, seconds.unlessNull⟩
  | _ => none

theorem Server.find?_apply (s : Server) (c : Command) (key : String) :
    (s.apply c).2.find? key = if c.covers key then c.leaves else s.find? key := by
  cases c with
  | set k text => simp [apply, Command.covers, Command.leaves, find?_put]
  | setFor k seconds text => simp [apply, Command.covers, Command.leaves, find?_put]
  | remove keys => simp [apply, Command.covers, Command.leaves, find?_without]
  | _ => rfl

/-! ## Failures on the way -/

def Note.isCacheError (n : Note) : Bool := n.logger = Cache.logger ∧ n.level = .error

def Memory.errors (m : Memory) : ℕ := m.journal.countP Note.isCacheError

def Server.isUnreadable (s : Server) (limits : Json.Limits) (key : String) : Bool :=
  match s.find? key with
  | none => false
  | some e =>
    match Json.read limits e.text with
    | .error _ => true
    | .ok _ => false

/-- The failure in an answer of the server. -/
def Command.strike (limits : Json.Limits) (s : Server) : Command → ℕ
  | .get key => if s.isUnreadable limits key then 1 else 0
  | _ => 0

/-- The failures among exchanges that followed on others: calls that failed, and texts that were answered
but cannot be read. -/
def Network.strikes (n : Network) (limits : Json.Limits) (past : List Exchange) (s : Server) :
    List Exchange → ℕ
  | [] => 0
  | x :: older =>
    n.strikes limits past s older +
      match x.failure with
      | some _ => 1
      | none => x.command.strike limits ((n.replay past s older).wait (n.delay (older ++ past) x.command))

theorem Network.strikes_append (n : Network) (limits : Json.Limits) (past : List Exchange) (s : Server)
    (later earlier : List Exchange) :
    n.strikes limits past s (later ++ earlier) =
      n.strikes limits past s earlier + n.strikes limits (earlier ++ past) (n.replay past s earlier) later := by
  induction later with
  | nil => rfl
  | cons x later ih =>
    rw [List.cons_append, strikes, ih, strikes, replay_append, List.append_assoc, Nat.add_assoc]

theorem Network.strikes_of_opening (n : Network) (limits : Json.Limits) (past : List Exchange) (s : Server)
    {exchanges : List Exchange} (h : ∀ x ∈ exchanges, x.IsOpening) : n.strikes limits past s exchanges = 0 := by
  induction exchanges with
  | nil => rfl
  | cons x older ih =>
    obtain ⟨endpoint, rfl⟩ := h x List.mem_cons_self
    rw [strikes, ih fun y hy => h y (List.mem_cons_of_mem _ hy)]
    rfl

/-- What decides how an operation goes: who hears of updates, what is out of order, how long keys live, and what can be
read and written. -/
structure Rules where
  assetSubscribers : List Subscriber
  newsSubscribers : List Subscriber
  outages : List (Duty × Failure)
  registry : Registry
  misfiled : Option FiledRegistry
  otherwise : Seconds
  limits : Json.Limits

def Memory.rules (m : Memory) : Rules :=
  ⟨m.assetSubscribers, m.newsSubscribers, m.outages, m.registry, m.misfiled, m.otherwise, m.limits⟩

/-- The errors in the journal grew by the failures among the exchanges, and so many of the operation's
own. -/
structure Accounted (w w' : World) (exchanges : List Exchange) (own : ℕ) : Prop where
  traced : Traced w w' exchanges
  rules : w'.memory.rules = w.memory.rules
  errors : w'.memory.errors = w.memory.errors + w.network.strikes w.memory.limits w.history w.server exchanges + own

namespace Accounted

theorem limits {w w' : World} {exchanges : List Exchange} {own : ℕ} (h : Accounted w w' exchanges own) :
    w'.memory.limits = w.memory.limits :=
  congrArg Rules.limits h.rules

theorem trans {w₁ w₂ w₃ : World} {earlier later : List Exchange} {a b : ℕ}
    (h : Accounted w₁ w₂ earlier a) (h' : Accounted w₂ w₃ later b) :
    Accounted w₁ w₃ (later ++ earlier) (a + b) := by
  refine ⟨h.traced.trans h'.traced, h'.rules.trans h.rules, ?_⟩
  rw [h'.errors, h.errors, Network.strikes_append, h.limits, h.traced.network, h.traced.history, h.traced.server]
  omega

theorem refl (w : World) : Accounted w w [] 0 := ⟨Traced.refl w, rfl, rfl⟩

end Accounted

/-- A change of memory that writes no error of the cache and keeps the rules. -/
def Quiet (f : Memory → Memory) : Prop := ∀ m, (f m).errors = m.errors ∧ (f m).rules = m.rules

theorem Accounted.quiet {w w' : World} {exchanges : List Exchange} {own : ℕ} (h : Accounted w w' exchanges own)
    {f : Memory → Memory} (hf : Quiet f) : Accounted w (w'.withMemory f) exchanges own := by
  obtain ⟨herrors, hrules⟩ := hf w'.memory
  exact ⟨h.traced.withMemory f, hrules.trans h.rules, herrors.trans h.errors⟩

theorem quiet_noted {n : Note} (h : n.isCacheError = false) : Quiet (Memory.noted n) := by
  intro m
  refine ⟨?_, rfl⟩
  rw [Memory.errors, Memory.noted, List.countP_cons_of_neg (by simp [h])]
  rfl

namespace Cache

theorem quiet_hitIn (key : String) : Quiet (hitIn key) := fun _ => ⟨rfl, rfl⟩

theorem quiet_missIn (key : String) : Quiet (missIn key) := fun _ => ⟨rfl, rfl⟩

theorem quiet_debugIn (event : String) (fields : List (String × Json)) : Quiet (debugIn event fields) :=
  quiet_noted rfl

theorem quiet_writtenIn (key : String) (left : Option Seconds) : Quiet (writtenIn key left) := by
  cases left <;> exact quiet_debugIn _ _

theorem quiet_fetchIn (key : String) : Quiet (fetchIn key) := fun _ => ⟨rfl, rfl⟩

theorem errors_swallowIn (event : String) (fields : List (String × Json)) (f : Failure) (m : Memory) :
    (swallowIn event fields f m).errors = m.errors + 1 := by
  rw [Memory.errors, swallowIn, Memory.noted, List.countP_cons_of_pos rfl]
  rfl

end Cache

/-- A failure that is written down counts for the one that stands last in the exchanges. -/
theorem Accounted.swallow {w w' : World} {exchanges : List Exchange} (h : Traced w w' exchanges)
    (hsame : w.SameService w') (hstrikes : w.network.strikes w.memory.limits w.history w.server exchanges = 1)
    (event : String) (fields : List (String × Json)) (f : Failure) :
    Accounted w (w'.withMemory (Cache.swallowIn event fields f)) exchanges 0 := by
  obtain ⟨b, hb⟩ := hsame
  refine ⟨h.withMemory _, ?_, ?_⟩
  · rw [World.withMemory, hb]
    rfl
  · rw [World.withMemory, Cache.errors_swallowIn, hstrikes, hb]
    rfl

/-! ## Single calls -/

/-- A call that fails is one failure; one that is answered has its effect on the server as it is then. -/
theorem Sent.report {c : Command} {w w' : World} {r : Except Failure c.Reply} (h : Sent c w r w') :
    ∃ exchanges, Settled w w' exchanges c.covers c.leaves ∧ exchanges ≠ [] ∧
      let arrival := w.server.waits (w.network.pauses w.history exchanges)
      ((∃ f, r = .error f ∧ f.isContained = true ∧ wentThrough exchanges = false ∧
          w.network.strikes w.memory.limits w.history w.server exchanges = 1) ∨
        r = .ok (arrival.apply c).1 ∧ wentThrough exchanges = true ∧ w'.server = (arrival.apply c).2 ∧
          w.network.strikes w.memory.limits w.history w.server exchanges = c.strike w.memory.limits arrival) := by
  cases h with
  | @failed f f' client c' older _ contained opening traced same =>
    have hthrough : wentThrough (⟨client, c', some f'⟩ :: older) = false :=
      wentThrough_of_failed List.mem_cons_self rfl
    have hsilent : ∀ x ∈ (⟨client, c', some f'⟩ :: older : List Exchange), x.isSilent = true := by
      intro x hx
      rcases List.mem_cons.1 hx with rfl | hx
      · rfl
      · exact (opening x hx).isSilent
    refine ⟨_, ⟨traced, fun _ => traced.server_of_silent hsilent, fun h => ?_⟩, List.cons_ne_nil _ _,
      .inl ⟨f, rfl, contained, hthrough, ?_⟩⟩
    · rw [hthrough] at h
      cases h
    · rw [Network.strikes, Network.strikes_of_opening _ _ _ _ opening]
      rfl
  | @answered client older _ opening traced same =>
    have hthrough : wentThrough (⟨client, c, none⟩ :: older) = true := by
      simp only [wentThrough, List.isEmpty_cons, Bool.not_false, Bool.true_and, List.all_cons, Option.isNone_none,
        List.all_eq_true]
      intro x hx
      rw [(opening x hx).failure]
      rfl
    have hsilent : ∀ x ∈ older, x.isSilent = true := fun x hx => (opening x hx).isSilent
    have hserver := traced.server
    rw [Network.replay_cons_of_silent _ _ _ _ _ hsilent] at hserver
    refine ⟨_, ⟨traced, fun h => ?_, fun _ key => ?_⟩, List.cons_ne_nil _ _, .inr ⟨rfl, hthrough, hserver, ?_⟩⟩
    · rw [hthrough] at h
      cases h
    · rw [hserver, Server.find?_apply]
    · rw [Network.strikes, Network.strikes_of_opening _ _ _ _ opening, Network.replay_of_silent _ _ _ hsilent,
        Nat.zero_add]
      rfl

theorem Accounted.of_sent {w w' : World} {exchanges : List Exchange} (ht : Traced w w' exchanges)
    (hsame : w.SameService w') (hstrikes : w.network.strikes w.memory.limits w.history w.server exchanges = 0) :
    Accounted w w' exchanges 0 := by
  obtain ⟨b, hb⟩ := hsame
  refine ⟨ht, ?_, ?_⟩
  · rw [hb]
    rfl
  · rw [hb, hstrikes]
    rfl

/-! ## Operations -/

/-- The value under a key; null where there is none or it cannot be read. -/
def Server.valueAt (s : Server) (limits : Json.Limits) (key : String) : Json :=
  match s.find? key with
  | none => .null
  | some e =>
    match Json.read limits e.text with
    | .error _ => .null
    | .ok v => v

namespace Cache
variable {w : World}

theorem get_outcome (key : String) (hw : w.network.Contained) :
    ∃ exchanges, Settled w ((get key).run w).2 exchanges (fun _ => false) none ∧ exchanges ≠ [] ∧
      Accounted w ((get key).run w).2 exchanges 0 ∧
      ((get key).run w).1 = .ok (if wentThrough exchanges then
        (w.server.waits (w.network.pauses w.history exchanges)).valueAt w.memory.limits key else .null) ∧
      (w.network.strikes w.memory.limits w.history w.server exchanges ≠ 0 → ((get key).run w).1 = .ok .null) := by
  have hsent := Store.sent_fetch key hw
  have hsame := hsent.same
  obtain ⟨exchanges, hsettled, hne, hreport⟩ := hsent.report
  rw [run_get]
  rcases hfetch : (Store.fetch key).run w with ⟨r, w₁⟩
  rw [hfetch] at hsame hsettled hreport
  refine ⟨exchanges, ?_⟩
  obtain ⟨f, rfl, hf, hthrough, hstrikes⟩ | ⟨rfl, hthrough, -, hstrikes⟩ := hreport
  · simp only [hf, if_true, hthrough, Bool.false_eq_true, if_false]
    exact ⟨(hsettled.withMemory _).withMemory _, hne,
      (Accounted.swallow hsettled.traced hsame hstrikes _ _ _).quiet (quiet_missIn key), trivial, fun _ => trivial⟩
  · set arrival := w.server.waits (w.network.pauses w.history exchanges) with harrival
    rw [Command.strike] at hstrikes
    simp only [hthrough, if_true, Server.apply, Server.valueAt]
    cases hfind : arrival.find? key with
    | none =>
      have hzero : w.network.strikes w.memory.limits w.history w.server exchanges = 0 := by
        rw [hstrikes, Server.isUnreadable, hfind]
        rfl
      exact ⟨hsettled.withMemory _, hne,
        (Accounted.of_sent hsettled.traced hsame hzero).quiet (quiet_missIn key), rfl, fun _ => rfl⟩
    | some entry =>
      simp only [Option.map_some]
      cases hread : Json.read w.memory.limits entry.text with
      | error e =>
        have hone : w.network.strikes w.memory.limits w.history w.server exchanges = 1 := by
          rw [hstrikes, Server.isUnreadable, hfind]
          simp only [hread, if_true]
        exact ⟨(hsettled.withMemory _).withMemory _, hne,
          (Accounted.swallow hsettled.traced hsame hone _ _ _).quiet (quiet_missIn key), rfl, fun _ => rfl⟩
      | ok v =>
        have hzero : w.network.strikes w.memory.limits w.history w.server exchanges = 0 := by
          rw [hstrikes, Server.isUnreadable, hfind]
          simp only [hread, Bool.false_eq_true, if_false]
        exact ⟨hsettled.withMemory _, hne,
          (Accounted.of_sent hsettled.traced hsame hzero).quiet (quiet_hitIn key), rfl, fun h => absurd hzero h⟩

/-! ### Writing -/

theorem isContained_of_comparisonFault {key : Json} {cs : List FiledCategory} {f : Failure}
    (h : FiledRegistry.comparisonFault? key cs = some f) : f.isContained = true := by
  induction cs with
  | nil => cases h
  | cons c rest ih =>
    unfold FiledRegistry.comparisonFault? at h
    split at h
    · split at h
      · cases h
      · exact ih h
    · cases h
      rfl
    · cases h
      rfl

theorem isContained_of_order {m : Memory} {key : String} {value : Payload} {seconds : Option Seconds}
    {f : Failure} (h : order m key value seconds = .error f) : f.isContained = true := by
  unfold order at h
  split at h
  · rename_i f' hseconds
    cases h
    unfold secondsFor at hseconds
    split at hseconds
    · cases hseconds
    · split at hseconds
      · rename_i f' hlookup
        cases hseconds
        obtain ⟨filed, -, hfault⟩ := Option.bind_eq_some_iff.1 hlookup
        unfold FiledRegistry.lookupFault? at hfault
        split at hfault
        · exact isContained_of_comparisonFault hfault
        · cases hfault
          rfl
      · cases hseconds
  · split at h
    · cases h
      rfl
    · split at h <;> cases h
      rfl

/-- Whether a write is given up before anything is sent. -/
def isUnsent (m : Memory) (key : String) (value : Payload) (seconds : Option Seconds) : Bool :=
  match order m key value seconds with
  | .error _ => true
  | .ok _ => false

def entryOf (m : Memory) (key : String) (value : Payload) (seconds : Option Seconds) : Option Entry :=
  match order m key value seconds with
  | .error _ => none
  | .ok (text, left) => some ⟨text, left⟩

theorem order_eq_ok {m : Memory} {key : String} {value : Payload} {seconds : Option Seconds} {text : String}
    {left : Option Seconds} (h : order m key value seconds = .ok (text, left)) :
    value.text m.limits = .ok text ∧ ∀ s, left = some s → s.isPositive? = some true := by
  unfold order at h
  split at h
  · cases h
  · split at h
    · cases h
    · rename_i htext
      split at h
      · cases h
      · rename_i hpositive
        cases h
        refine ⟨htext, ?_⟩
        rintro s ⟨⟩
        exact hpositive
      · cases h
        refine ⟨htext, ?_⟩
        rintro s ⟨⟩

theorem unlessNull_of_isPositive {s : Seconds} (h : s.isPositive? = some true) : s.unlessNull = some s := by
  cases s with
  | other v => cases h
  | _ => rfl

theorem write_outcome (key text : String) {left : Option Seconds}
    (hleft : ∀ s, left = some s → s.isPositive? = some true) (hw : w.network.Contained) :
    ∃ exchanges, Settled w ((write key text left).run w).2 exchanges (fun k => k = key) (some ⟨text, left⟩) ∧
      exchanges ≠ [] ∧ w.SameService ((write key text left).run w).2 ∧
      ((∃ f, ((write key text left).run w).1 = .error f ∧ f.isContained = true ∧ wentThrough exchanges = false ∧
          w.network.strikes w.memory.limits w.history w.server exchanges = 1) ∨
        ((write key text left).run w).1 = .ok () ∧ wentThrough exchanges = true ∧
          w.network.strikes w.memory.limits w.history w.server exchanges = 0) := by
  cases left with
  | none =>
    have hsent := Store.sent_write key text hw
    obtain ⟨exchanges, hsettled, hne, hreport⟩ := hsent.report
    refine ⟨exchanges, hsettled, hne, hsent.same, hreport.imp_right ?_⟩
    rintro ⟨hr, hthrough, -, hstrikes⟩
    exact ⟨hr, hthrough, hstrikes⟩
  | some s =>
    have hsent := Store.sent_writeFor key text s hw
    obtain ⟨exchanges, hsettled, hne, hreport⟩ := hsent.report
    have hleaves : (Command.setFor key s text).leaves = some ⟨text, some s⟩ := by
      rw [Command.leaves, unlessNull_of_isPositive (hleft s rfl)]
    rw [hleaves] at hsettled
    refine ⟨exchanges, hsettled, hne, hsent.same, hreport.imp_right ?_⟩
    rintro ⟨hr, hthrough, -, hstrikes⟩
    exact ⟨hr, hthrough, hstrikes⟩

theorem set_outcome (key : String) (value : Payload) (seconds : Option Seconds) (hw : w.network.Contained) :
    ∃ exchanges, Settled w ((set key value seconds).run w).2 exchanges (fun k => k = key)
        (entryOf w.memory key value seconds) ∧
      Accounted w ((set key value seconds).run w).2 exchanges
        (if isUnsent w.memory key value seconds then 1 else 0) ∧
      ((set key value seconds).run w).1 = .ok () ∧ (exchanges = [] ↔ isUnsent w.memory key value seconds = true) := by
  rw [run_set, isUnsent, entryOf]
  cases horder : order w.memory key value seconds with
  | error f =>
    have hf := isContained_of_order horder
    simp only [hf, if_true]
    refine ⟨[], ⟨Traced.of_memory w _, fun _ => rfl, fun h => by cases h⟩, ⟨Traced.of_memory w _, rfl, ?_⟩, trivial,
      iff_of_true rfl trivial⟩
    rw [World.withMemory, errors_swallowIn]
    rfl
  | ok written =>
    obtain ⟨text, left⟩ := written
    obtain ⟨exchanges, hsettled, hne, hsame, hreport⟩ := write_outcome key text (order_eq_ok horder).2 hw
    simp only [Bool.false_eq_true, if_false]
    rcases hwrite : (write key text left).run w with ⟨r, w₁⟩
    rw [hwrite] at hsettled hsame hreport
    refine ⟨exchanges, ?_⟩
    obtain ⟨f, rfl, hf, -, hstrikes⟩ | ⟨rfl, -, hstrikes⟩ := hreport
    · simp only [hf, if_true]
      exact ⟨hsettled.withMemory _, Accounted.swallow hsettled.traced hsame hstrikes _ _ _, trivial,
        iff_of_false hne not_false⟩
    · exact ⟨hsettled.withMemory _,
        (Accounted.of_sent hsettled.traced hsame hstrikes).quiet (quiet_writtenIn key left), rfl,
        iff_of_false hne not_false⟩

/-! ### Removing -/

theorem delete_outcome (key : String) (hw : w.network.Contained) :
    ∃ exchanges, Settled w ((delete key).run w).2 exchanges (fun k => k = key) none ∧ exchanges ≠ [] ∧
      Accounted w ((delete key).run w).2 exchanges 0 ∧ ((delete key).run w).1 = .ok () := by
  have hsent := Store.sent_remove key hw
  have hsame := hsent.same
  obtain ⟨exchanges, hsettled, hne, hreport⟩ := hsent.report
  have hcovers : (Command.remove [key]).covers = fun k => decide (k = key) := by
    funext k
    simp [Command.covers]
  rw [hcovers] at hsettled
  rw [run_delete]
  rcases hremove : (Store.remove key).run w with ⟨r, w₁⟩
  rw [hremove] at hsame hsettled hreport
  refine ⟨exchanges, ?_⟩
  obtain ⟨f, rfl, hf, -, hstrikes⟩ | ⟨rfl, -, -, hstrikes⟩ := hreport
  · simp only [hf, if_true]
    exact ⟨hsettled.withMemory _, hne, Accounted.swallow hsettled.traced hsame hstrikes _ _ _, trivial⟩
  · exact ⟨hsettled.withMemory _, hne,
      (Accounted.of_sent hsettled.traced hsame hstrikes).quiet (quiet_debugIn _ _), rfl⟩

theorem wentThrough_append {later earlier : List Exchange} (hearlier : wentThrough earlier = true)
    (hne : later ≠ []) : wentThrough (later ++ earlier) = wentThrough later := by
  rw [wentThrough, Bool.and_eq_true] at hearlier
  cases later with
  | nil => exact absurd rfl hne
  | cons x xs => simp [wentThrough, hearlier.2]

/-- Waiting goes on from where time alone has passed. -/
theorem waits_of_traced {w w₁ : World} {earlier : List Exchange} (ht : Traced w w₁ earlier)
    (hserver : w₁.server = w.server.waits (w.network.pauses w.history earlier)) (later : List Exchange) :
    w₁.server.waits (w₁.network.pauses w₁.history later) =
      w.server.waits (w.network.pauses w.history (later ++ earlier)) := by
  rw [hserver, ht.network, ht.history, ← Server.waits_append, ← Network.pauses_append]

/-- A key that matches and is not listed is not there. -/
theorem find?_of_not_mem_matching {s : Server} {pattern key : String}
    (haccepts : s.matcher.accepts pattern key = true) (h : key ∉ s.matching pattern) : s.find? key = none := by
  rw [Server.mem_matching] at h
  cases hfind : s.find? key with
  | none => rfl
  | some e => exact absurd ⟨⟨e, hfind⟩, haccepts⟩ h

/-- The listed keys are removed some time later; those that matched and were not listed are not there then. -/
theorem settled_of_listed {w w₁ w₂ : World} {listing removing : List Exchange} {pattern : String}
    (ht : Traced w w₁ listing) (hserver : w₁.server = w.server.waits (w.network.pauses w.history listing))
    (hthrough : wentThrough listing = true) (hne : removing ≠ [])
    (h : Settled w₁ w₂ removing (Command.remove (w₁.server.matching pattern)).covers none) :
    Settled w w₂ (removing ++ listing) (w.server.matcher.accepts pattern) none := by
  have hboth := wentThrough_append hthrough hne
  have hwaits := waits_of_traced ht hserver removing
  refine ⟨ht.trans h.traced, fun hfailed => ?_, fun hdone key => ?_⟩
  · rw [hboth] at hfailed
    rw [h.failed hfailed, hwaits]
  · rw [hboth] at hdone
    rw [h.done hdone key, ← hwaits]
    rw [← ht.matcher]
    by_cases hmem : key ∈ w₁.server.matching pattern
    · have haccepts := ((Server.mem_matching _ _ _).1 hmem).2
      simp [Command.covers, hmem, haccepts]
    · simp only [Command.covers, hmem, decide_false, Bool.false_eq_true, if_false]
      split
      · rename_i haccepts
        exact Server.find?_waits_eq_none (find?_of_not_mem_matching haccepts hmem) _
      · rfl

theorem deleteByPattern_outcome (pattern : String) (hw : w.network.Contained) :
    ∃ exchanges, Settled w ((deleteByPattern pattern).run w).2 exchanges
        (w.server.matcher.accepts pattern) none ∧ exchanges ≠ [] ∧
      Accounted w ((deleteByPattern pattern).run w).2 exchanges 0 ∧
      ∃ n, ((deleteByPattern pattern).run w).1 = .ok n ∧
        (w.network.strikes w.memory.limits w.history w.server exchanges ≠ 0 → n = 0) := by
  have hsent := Store.sent_keysMatching pattern hw
  have hsame := hsent.same
  obtain ⟨listing, hsettled, hne, hreport⟩ := hsent.report
  have ht := hsettled.traced
  rw [run_deleteByPattern]
  rcases hlist : (Store.keysMatching pattern).run w with ⟨r, w₁⟩
  rw [hlist] at hsame hsettled hreport ht
  obtain ⟨f, rfl, hf, hthrough, hstrikes⟩ | ⟨rfl, hthrough, hserver, hstrikes⟩ := hreport
  · simp only [hf, if_true]
    refine ⟨listing, ⟨ht.withMemory _, hsettled.failed, fun h => ?_⟩, hne,
      Accounted.swallow ht hsame hstrikes _ _ _, 0, rfl, fun _ => rfl⟩
    rw [hthrough] at h
    cases h
  have haccounted : Accounted w w₁ listing 0 := Accounted.of_sent ht hsame hstrikes
  have harrival : w₁.server = w.server.waits (w.network.pauses w.history listing) := hserver
  have hkeys : ((w.server.waits (w.network.pauses w.history listing)).apply (.list pattern)).1 =
      w₁.server.matching pattern := by rw [harrival]; rfl
  simp only [hkeys]
  cases hempty : (w₁.server.matching pattern).isEmpty with
  | true =>
    simp only [if_true]
    refine ⟨listing, ⟨ht, fun h => ?_, fun _ key => ?_⟩, hne, haccounted, 0, rfl, fun _ => rfl⟩
    · rw [hthrough] at h
      cases h
    · rw [← harrival, ← ht.matcher]
      split
      · rename_i haccepts
        refine find?_of_not_mem_matching haccepts ?_
        rw [List.isEmpty_iff.1 hempty]
        exact List.not_mem_nil
      · rfl
  | false =>
    simp only [Bool.false_eq_true, if_false]
    have hlisted : w₁.server.matching pattern ≠ [] := by
      intro h
      rw [h] at hempty
      cases hempty
    have hsent₂ := Store.sent_removeMany hlisted (ht.contained hw)
    have hsame₂ := hsent₂.same
    obtain ⟨removing, hsettled₂, hnonempty, hreport₂⟩ := hsent₂.report
    rcases hremove : (Store.removeMany (w₁.server.matching pattern)).run w₁ with ⟨r, w₂⟩
    rw [hremove] at hsame₂ hsettled₂ hreport₂
    have hboth : removing ++ listing ≠ [] := List.append_ne_nil_of_left_ne_nil hnonempty listing
    have hsettled := settled_of_listed ht harrival hthrough hnonempty hsettled₂
    obtain ⟨f, rfl, hf, -, hstrikes₂⟩ | ⟨rfl, -, -, hstrikes₂⟩ := hreport₂
    · simp only [hf, if_true]
      have haccounted₂ := haccounted.trans (Accounted.swallow hsettled₂.traced hsame₂ hstrikes₂
        "Cache pattern delete error" [("pattern", .str pattern)] f)
      exact ⟨_, hsettled.withMemory _, hboth, haccounted₂, 0, rfl, fun _ => rfl⟩
    · have haccounted₂ := haccounted.trans (Accounted.of_sent hsettled₂.traced hsame₂ hstrikes₂)
      refine ⟨_, hsettled.withMemory _, hboth, haccounted₂.quiet (quiet_debugIn _ _), _, rfl, fun h => ?_⟩
      rw [Network.strikes_append, hstrikes, ← haccounted.limits, ← ht.history, ← ht.server, ← ht.network,
        hstrikes₂] at h
      exact absurd rfl h

theorem invalidateEntity_outcome (type name : Json) (hw : w.network.Contained) :
    ∃ exchanges, Settled w ((invalidateEntity type name).run w).2 exchanges
        (w.server.matcher.accepts (entityPattern type.plain (Key.segment name))) none ∧
      Accounted w ((invalidateEntity type name).run w).2 exchanges 0 ∧
      ∃ n, ((invalidateEntity type name).run w).1 = .ok n ∧
        (w.network.strikes w.memory.limits w.history w.server exchanges ≠ 0 → n = 0) := by
  obtain ⟨exchanges, hsettled, -, haccounted, n, hok, hzero⟩ :=
    deleteByPattern_outcome (entityPattern type.plain (Key.segment name)) hw
  rw [run_invalidateEntity]
  rcases hdelete : (deleteByPattern (entityPattern type.plain (Key.segment name))).run w with ⟨r, w₁⟩
  rw [hdelete] at hsettled haccounted hok
  simp only at hok
  subst hok
  exact ⟨exchanges, hsettled.withMemory _, haccounted.quiet (quiet_noted rfl), n, rfl, hzero⟩

/-! ### Diagnostics -/

theorem serverInfo_outcome (hw : w.network.Contained) :
    ∃ exchanges, Settled w (serverInfo.run w).2 exchanges (fun _ => false) none ∧ exchanges ≠ [] ∧
      Accounted w (serverInfo.run w).2 exchanges 0 ∧
      ∃ text, (serverInfo.run w).1 = .ok text ∧
        (w.network.strikes w.memory.limits w.history w.server exchanges ≠ 0 → text = infoUnavailable) := by
  have hsent := Store.sent_reporting "server_info" [] .describe hw
  have hsame := hsent.same
  obtain ⟨exchanges, hsettled, hne, hreport⟩ := hsent.report
  rw [run_serverInfo]
  rcases hinfo : (Store.reporting "server_info" [] (Store.send .describe)).run w with ⟨r, w₁⟩
  rw [hinfo] at hsame hsettled hreport
  refine ⟨exchanges, ?_⟩
  obtain ⟨f, rfl, hf, -, hstrikes⟩ | ⟨rfl, hthrough, -, hstrikes⟩ := hreport
  · simp only [hf, if_true]
    exact ⟨hsettled.withMemory _, hne, Accounted.swallow hsettled.traced hsame hstrikes _ _ _, _, rfl,
      fun _ => rfl⟩
  · exact ⟨hsettled, hne, Accounted.of_sent hsettled.traced hsame hstrikes, _, rfl, fun h => absurd hstrikes h⟩

end Cache
end CacheAside
