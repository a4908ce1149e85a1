import CacheAside.Proofs.Run.Record
import CacheAside.Proofs.Store.Passage

/-! # One client at a time

Clients are numbered in the order in which they are created. After some exchanges a client is held if it is the one
created last and none was closed since (`Holds`). In every run of the store, whatever fails, a client is created
only where none is held, every other command is given to the client that is held, and this is the one that the store
remembers (`InTurn`, kept by every way of a deed). So between two creations exactly one client is closed, the earlier
one. -/

namespace CacheAside
set_option autoImplicit false

namespace Exchange

def creates (x : Exchange) : Bool := x.failure.isNone && x.command.opens

def closes (x : Exchange) : Bool := x.failure.isNone && x.command.closes

theorem creates_eq_false {x : Exchange} (h : x.command.opens = false) : x.creates = false := by
  rw [creates, h, Bool.and_false]

theorem closes_eq_false {x : Exchange} (h : x.command.closes = false) : x.closes = false := by
  rw [closes, h, Bool.and_false]

theorem opens_of_creates {x : Exchange} (h : x.creates = true) : x.command.opens = true :=
  (Bool.and_eq_true_iff.1 h).2

theorem opens_of_closes {x : Exchange} (h : x.closes = true) : x.command.opens = false := by
  have hcloses := (Bool.and_eq_true_iff.1 h).2
  cases hc : x.command <;> first | rfl | (rw [hc] at hcloses; cases hcloses)

end Exchange

namespace Store

/-- How many clients are made after exchanges, where so many were made before. -/
def made (start : ℕ) (exchanges : List Exchange) : ℕ := start + exchanges.countP Exchange.creates

/-- Whether client number `n` is held after exchanges, the latest first: it was created, and since then neither was
another one created nor one closed. -/
def Holds (start n : ℕ) (exchanges : List Exchange) : Prop :=
  ∃ since x before, exchanges = since ++ x :: before ∧ x.creates = true ∧ made start before = n ∧
    ∀ y ∈ since, y.creates = false ∧ y.closes = false

/-- The number of the client that is held after exchanges. -/
def held (start : ℕ) : List Exchange → Option ℕ
  | [] => none
  | x :: older => if x.creates then some (made start older) else if x.closes then none else held start older

section
variable {start n : ℕ}

theorem made_cons_of_creates {x : Exchange} (hx : x.creates = true) (older : List Exchange) :
    made start (x :: older) = made start older + 1 := by
  rw [made, List.countP_cons_of_pos hx]
  rfl

theorem made_cons_of_not {x : Exchange} (hx : x.creates = false) (older : List Exchange) :
    made start (x :: older) = made start older := by
  rw [made, List.countP_cons_of_neg (by rw [hx]; exact Bool.false_ne_true)]
  rfl

theorem holds_cons_iff {x : Exchange} {older : List Exchange} : Holds start n (x :: older) ↔
    (x.creates = true ∧ made start older = n) ∨ (x.creates = false ∧ x.closes = false ∧ Holds start n older) := by
  constructor
  · rintro ⟨since, o, before, hsplit, ho, hn, hsince⟩
    cases since with
    | nil =>
      cases hsplit
      exact .inl ⟨ho, hn⟩
    | cons y since =>
      cases hsplit
      obtain ⟨hcreates, hcloses⟩ := hsince x List.mem_cons_self
      exact .inr ⟨hcreates, hcloses, since, o, before, rfl, ho, hn, fun y hy => hsince y (List.mem_cons_of_mem _ hy)⟩
  · rintro (⟨hx, hn⟩ | ⟨hcreates, hcloses, since, o, before, rfl, ho, hn, hsince⟩)
    · exact ⟨[], x, older, rfl, hx, hn, fun y hy => absurd hy List.not_mem_nil⟩
    · refine ⟨x :: since, o, before, rfl, ho, hn, fun y hy => ?_⟩
      rcases List.mem_cons.1 hy with rfl | hy
      · exact ⟨hcreates, hcloses⟩
      · exact hsince y hy

theorem held_eq_some_iff {exchanges : List Exchange} : held start exchanges = some n ↔ Holds start n exchanges := by
  induction exchanges with
  | nil =>
    refine ⟨nofun, ?_⟩
    rintro ⟨since, x, before, hsplit, -⟩
    cases since <;> cases hsplit
  | cons x older ih =>
    rw [holds_cons_iff, held]
    cases hcreates : x.creates with
    | true => simp
    | false =>
      cases hcloses : x.closes with
      | true => simp
      | false => simpa using ih

theorem held_cons_of_failed {x : Exchange} (hx : x.failure.isSome = true) (older : List Exchange) :
    held start (x :: older) = held start older := by
  have hnone : x.failure.isNone = false := Option.isNone_eq_false_iff.2 hx
  rw [held, Exchange.creates, Exchange.closes, hnone]
  rfl

/-- The client that is held is the one created last. -/
theorem Holds.made_eq {exchanges : List Exchange} (h : Holds start n exchanges) : made start exchanges = n + 1 := by
  obtain ⟨since, x, before, rfl, hx, rfl, hsince⟩ := h
  have hnone : since.countP Exchange.creates = 0 := List.countP_eq_zero.2 fun y hy hcreates => by
    rw [(hsince y hy).1] at hcreates
    cases hcreates
  rw [made, List.countP_append, hnone, List.countP_cons_of_pos hx, Nat.zero_add]
  rfl

/-! ## Exchanges in turn -/

/-- Exchanges in which a client is created only where none is held, and every other command is given to the one
that is. -/
def InTurn (start : ℕ) : List Exchange → Prop
  | [] => True
  | x :: older =>
    x.client = held start older ∧ x.command.opens = (held start older).isNone ∧ InTurn start older

theorem InTurn.of_append {later earlier : List Exchange} (h : InTurn start (later ++ earlier)) :
    InTurn start earlier := by
  induction later with
  | nil => exact h
  | cons x later ih => exact ih h.2.2

theorem InTurn.opening {later : List Exchange} {x : Exchange} {older : List Exchange}
    (h : InTurn start (later ++ x :: older)) (hx : x.command.opens = true) :
    x.client = none ∧ ∀ n, ¬Holds start n older := by
  obtain ⟨hclient, hopens, -⟩ := h.of_append
  rw [hx, eq_comm, Option.isNone_iff_eq_none] at hopens
  refine ⟨hclient.trans hopens, fun n hn => ?_⟩
  rw [held_eq_some_iff.2 hn] at hopens
  cases hopens

theorem InTurn.exists_holds {later : List Exchange} {x : Exchange} {older : List Exchange}
    (h : InTurn start (later ++ x :: older)) (hx : x.command.opens = false) :
    ∃ n, x.client = some n ∧ Holds start n older := by
  obtain ⟨hclient, hopens, -⟩ := h.of_append
  rw [hx, eq_comm, Option.isNone_eq_false_iff, Option.isSome_iff_exists] at hopens
  obtain ⟨n, hn⟩ := hopens
  exact ⟨n, hclient.trans hn, held_eq_some_iff.1 hn⟩

/-- A client stays the one that is held until it is closed. -/
theorem InTurn.held_until_closed {later older : List Exchange} (h : InTurn start (later ++ older))
    (holder : held start older = some n)
    (hopen : ∀ after z before, later = after ++ z :: before → Holds start n (before ++ older) → z.closes = false) :
    held start (later ++ older) = some n := by
  induction later with
  | nil => exact holder
  | cons x later ih =>
    have hlater := ih h.2.2 fun after z before hsplit => hopen (x :: after) z before (by rw [hsplit, List.cons_append])
    have hopens : x.command.opens = false :=
      h.2.1.trans (Option.isNone_eq_false_iff.2 (by rw [List.append_eq, hlater]; rfl))
    have hcloses := hopen [] x later rfl (held_eq_some_iff.1 hlater)
    rw [List.cons_append, held, Exchange.creates_eq_false hopens, hcloses]
    exact hlater

/-- Of two places in a list one is before the other, or they are the same. -/
theorem eq_or_before_or_after {α : Type} {as bs as' bs' : List α} {b b' : α} (h : as ++ b :: bs = as' ++ b' :: bs') :
    (b = b' ∧ bs = bs') ∨ (∃ cs, as = as' ++ b' :: cs ∧ bs' = cs ++ b :: bs) ∨
      ∃ cs, as' = as ++ b :: cs ∧ bs = cs ++ b' :: bs' := by
  rcases List.append_eq_append_iff.1 h with ⟨cs, has, hbs⟩ | ⟨cs, has, hbs⟩
  · cases cs with
    | nil => exact .inl (List.cons.inj hbs)
    | cons c cs =>
      obtain ⟨rfl, htail⟩ := List.cons.inj hbs
      exact .inr (.inr ⟨cs, has, htail⟩)
  · cases cs with
    | nil =>
      obtain ⟨hb, hbs⟩ := List.cons.inj hbs
      exact .inl ⟨hb.symm, hbs.symm⟩
    | cons c cs =>
      obtain ⟨rfl, htail⟩ := List.cons.inj hbs
      exact .inr (.inl ⟨cs, has, htail⟩)

/-- A closed client is never held again. -/
theorem Holds.not_of_closes {after older : List Exchange} {z : Exchange} (h : Holds start n older)
    (hz : z.closes = true) : ¬Holds start n (after ++ z :: older) := by
  rintro ⟨since, o, before, hsplit, ho, hmade, hsince⟩
  rcases eq_or_before_or_after hsplit with ⟨rfl, -⟩ | ⟨between, -, rfl⟩ | ⟨between, rfl, -⟩
  · rw [Exchange.creates_eq_false (Exchange.opens_of_closes hz)] at ho
    cases ho
  · -- a creation after the closing makes a client with a later number
    have hearlier := h.made_eq
    rw [made, List.countP_append, List.countP_cons] at hmade
    rw [made] at hearlier
    omega
  · have hopen := (hsince z (List.mem_append_right _ List.mem_cons_self)).2
    rw [hz] at hopen
    cases hopen

/-- Between two creations the first client is closed once. -/
theorem InTurn.closed_once {later between older : List Exchange} {x y : Exchange}
    (h : InTurn start (later ++ x :: (between ++ y :: older))) (hx : x.creates = true) (hy : y.creates = true) :
    ∃! before, ∃ after z, between = after ++ z :: before ∧ z.closes = true ∧ z.client = some (made start older) ∧
      Holds start (made start older) (before ++ y :: older) := by
  have hholds : held start (y :: older) = some (made start older) := by rw [held, hy, if_pos rfl]
  have hclosed : ∃ before, ∃ after z, between = after ++ z :: before ∧ z.closes = true ∧
      Holds start (made start older) (before ++ y :: older) := by
    by_contra hnone
    have hstill := h.of_append.2.2.held_until_closed hholds fun after z before hsplit hn =>
      Bool.eq_false_iff.2 fun hcloses => hnone ⟨before, after, z, hsplit, hcloses, hn⟩
    exact (h.opening (Exchange.opens_of_creates hx)).2 _ (held_eq_some_iff.1 hstill)
  obtain ⟨before, after, z, rfl, hz, hn⟩ := hclosed
  have hclient : z.client = some (made start older) := by
    have hinTurn := h.of_append.2.2
    rw [List.append_assoc, List.cons_append] at hinTurn
    exact hinTurn.of_append.1.trans (held_eq_some_iff.2 hn)
  refine ⟨before, ⟨after, z, rfl, hz, hclient, hn⟩, ?_⟩
  rintro before' ⟨after', z', hsplit, hz', -, hn'⟩
  -- of two closings the client would be held at the later one too
  rcases eq_or_before_or_after hsplit with ⟨-, h⟩ | ⟨between, -, rfl⟩ | ⟨between, -, rfl⟩
  · exact h.symm
  · rw [List.append_assoc, List.cons_append] at hn'
    exact absurd hn' (hn.not_of_closes hz)
  · rw [List.append_assoc, List.cons_append] at hn
    exact absurd hn (hn'.not_of_closes hz')

end

/-! ## Deeds and runs -/

/-- What the store remembers after exchanges in turn: the client that is held, and how many were made. -/
structure Keeping (start : ℕ) (exchanges : List Exchange) (w : World) : Prop where
  inTurn : InTurn start exchanges
  clients : w.memory.clients = ⟨held start exchanges, made start exchanges⟩

namespace Keeping
variable {start : ℕ} {w w' : World} {earlier : List Exchange}

theorem held_eq (h : Keeping start earlier w) : w.memory.clients.held = held start earlier :=
  congrArg Clients.held h.clients

theorem made_eq (h : Keeping start earlier w) : w.memory.clients.made = made start earlier :=
  congrArg Clients.made h.clients

theorem held_iff (h : Keeping start earlier w) (n : ℕ) :
    w.memory.clients.held = some n ↔ Holds start n earlier := by
  rw [h.held_eq, held_eq_some_iff]

/-- A command to the client that is held. -/
theorem of_call {n : ℕ} {c : Command} {failure : Option Failure} (hw : Keeping start earlier w)
    (hheld : held start earlier = some n) (hopens : c.opens = false) (hcloses : c.closes = false)
    (hw' : w'.memory.clients = w.memory.clients) : Keeping start (⟨n, c, failure⟩ :: earlier) w' := by
  refine ⟨⟨hheld.symm, ?_, hw.inTurn⟩, ?_⟩
  · rw [hheld]
    exact hopens
  · rw [held, made_cons_of_not (Exchange.creates_eq_false hopens), Exchange.creates_eq_false hopens,
      Exchange.closes_eq_false hcloses, hw', hw.clients]
    rfl

theorem of_passage {c : Command} {failure : Option Failure} {exchanges : List Exchange} (hw : Keeping start earlier w)
    (h : Passage c w w' failure exchanges) (hopens : c.opens = false) (hcloses : c.closes = false) :
    Keeping start (exchanges ++ earlier) w' := by
  cases h with
  | held _ before after => exact hw.of_call (hw.held_eq.symm.trans before) hopens hcloses after
  | created endpoint _ before after =>
    have hnone := hw.held_eq.symm.trans before
    have hopened : Keeping start (⟨none, .open endpoint, none⟩ :: earlier) w.renewed := by
      refine ⟨⟨hnone.symm, (congrArg Option.isNone hnone).symm, hw.inTurn⟩, ?_⟩
      rw [held, made_cons_of_creates rfl, World.renewed, Clients.make, hw.made_eq]
      rfl
    exact hopened.of_call (hopened.held_eq.symm.trans rfl) hopens hcloses after
  | uncreated endpoint f before after =>
    have hnone := hw.held_eq.symm.trans before
    refine ⟨⟨hnone.symm, (congrArg Option.isNone hnone).symm, hw.inTurn⟩, ?_⟩
    rw [after, hw.clients]
    rfl

theorem of_turn {failure : Option Failure} {exchanges : List Exchange} (hw : Keeping start earlier w)
    (h : Turn w w' failure exchanges) : Keeping start (exchanges ++ earlier) w' := by
  cases h with
  | idle same => exact ⟨hw.inTurn, same.trans hw.clients⟩
  | call opens closes passage => exact hw.of_passage passage opens closes
  | closed before after =>
    have hheld := hw.held_eq.symm.trans before
    refine ⟨⟨hheld.symm, (congrArg Option.isNone hheld).symm, hw.inTurn⟩, ?_⟩
    rw [after, hw.clients]
    rfl
  | unclosed f before after =>
    have hheld := hw.held_eq.symm.trans before
    refine ⟨⟨hheld.symm, (congrArg Option.isNone hheld).symm, hw.inTurn⟩, ?_⟩
    rw [after, hw.clients]
    rfl

/-- A deed keeps the exchanges in turn. -/
theorem after {e : Event Deed Json} (h : Keeping start earlier e.before) (he : e.Performs Deed.op) :
    ∃ failure, Traced e.before e.after e.exchanges ∧ Turn e.before e.after failure e.exchanges ∧
      Keeping start (e.exchanges ++ earlier) e.after := by
  obtain ⟨failure, exchanges, hdone⟩ := done e.deed e.before
  rw [he] at hdone
  obtain rfl : e.exchanges = exchanges := hdone.traced.exchanges_eq
  exact ⟨failure, hdone.traced, hdone.turn, h.of_turn hdone.turn⟩

end Keeping

theorem held_eq_none {m : Memory} (h : m.connected = false) : m.clients.held = none :=
  Option.isNone_iff_eq_none.1 (Option.isSome_eq_false_iff.1 h)

/-- So at every deed of a run that starts without a client they are. -/
theorem keeping_of_record {w : World} (hw : w.memory.connected = false) {deeds : List Deed}
    {past rest : List (Event Deed Json)} {e : Event Deed Json} (h : record Deed.op deeds w = past ++ e :: rest) :
    ∃ earlier, Traced w e.before earlier ∧ Keeping w.memory.clients.made earlier e.before ∧ e.Performs Deed.op := by
  have hstep : ∀ (past : List (Event Deed Json)) (e : Event Deed Json),
      (∃ earlier, Traced w e.before earlier ∧ Keeping w.memory.clients.made earlier e.before) →
        e.Performs Deed.op → ∃ earlier, Traced w e.after earlier ∧ Keeping w.memory.clients.made earlier e.after := by
    rintro past e ⟨earlier, htraced, hkeeping⟩ he
    obtain ⟨_, hafter, -, hkept⟩ := hkeeping.after he
    exact ⟨e.exchanges ++ earlier, htraced.trans hafter, hkept⟩
  have hclients : w.memory.clients = ⟨none, w.memory.clients.made⟩ :=
    congrArg (Clients.mk · w.memory.clients.made) (held_eq_none hw)
  obtain ⟨⟨earlier, htraced, hkeeping⟩, he⟩ := record_invariant
    (P := fun _ w' => ∃ earlier, Traced w w' earlier ∧ Keeping w.memory.clients.made earlier w') hstep
    ⟨[], Traced.refl w, trivial, hclients⟩ h
  exact ⟨earlier, htraced, hkeeping, he⟩

/-- A creation or a closing that fails changes nothing about the clients. -/
theorem Turn.unchanged {w w' : World} {failure : Option Failure} {exchanges : List Exchange}
    (h : Turn w w' failure exchanges) {x : Exchange} (hx : x ∈ exchanges) (hf : x.failure.isSome = true)
    (hc : (x.command.opens || x.command.closes) = true) :
    w'.memory.clients = w.memory.clients ∧ exchanges = [x] := by
  cases h with
  | idle => cases hx
  | call opens closes passage =>
    cases passage with
    | held =>
      rw [List.mem_singleton.1 hx, opens, closes] at hc
      cases hc
    | created =>
      rcases List.mem_cons.1 hx with rfl | hx
      · rw [opens, closes] at hc
        cases hc
      · rw [List.mem_singleton.1 hx] at hf
        cases hf
    | uncreated _ _ before after => exact ⟨after, by rw [List.mem_singleton.1 hx]⟩
  | closed =>
    rw [List.mem_singleton.1 hx] at hf
    cases hf
  | unclosed _ before after => exact ⟨after, by rw [List.mem_singleton.1 hx]⟩

theorem exchanges_of_idle {e : Event Deed Json} (he : e.Performs Deed.op)
    (h : (e.deed = .stop ∧ e.before.memory.connected = false) ∨ e.deed = .removeMany []) : e.exchanges = [] := by
  have hafter : e.after.history = e.before.history := by
    have hrun := congrArg (fun done => done.2.history) he
    rcases h with ⟨hd, hconnected⟩ | hd
    · rw [hd, Deed.op, Op.run_map, run_stop, held_eq_none hconnected] at hrun
      exact hrun.symm
    · rw [hd, Deed.op, Op.run_map, removeMany] at hrun
      exact hrun.symm
  rw [Event.exchanges, hafter, Nat.sub_self, List.take_zero]

/-- In every run of the store that starts without a client, whatever fails, at every deed: the store remembers a
client exactly if it is the one that is held; a client is created only where none is held, and every other command is
given to the one that is, the client created last; between two creations the earlier client is closed once; a creation
or a closing that fails leaves the client as it was; and a stop without a client and a removal of no keys make no
exchange. -/
theorem clients_in_turn {w : World} (hw : w.memory.connected = false) {deeds : List Deed}
    {past rest : List (Event Deed Json)} {e : Event Deed Json} (h : record Deed.op deeds w = past ++ e :: rest) :
    let start := w.memory.clients.made
    ∃ earlier, Traced w e.before earlier ∧ Traced e.before e.after e.exchanges ∧
      (∀ n, e.before.memory.clients.held = some n ↔ Holds start n earlier) ∧
      (∀ n, e.after.memory.clients.held = some n ↔ Holds start n (e.exchanges ++ earlier)) ∧
      (∀ later x older, e.exchanges ++ earlier = later ++ x :: older →
        (x.command.opens = true → x.client = none ∧ ∀ n, ¬Holds start n older) ∧
        (x.command.opens = false →
          ∃ n, x.client = some n ∧ Holds start n older ∧ made start older = n + 1)) ∧
      (∀ later x between y older, e.exchanges ++ earlier = later ++ x :: (between ++ y :: older) →
        x.creates = true → y.creates = true → ∃! before, ∃ after z, between = after ++ z :: before ∧
          z.closes = true ∧ z.client = some (made start older) ∧
          Holds start (made start older) (before ++ y :: older)) ∧
      (∀ x ∈ e.exchanges, x.failure.isSome = true → (x.command.opens || x.command.closes) = true →
        e.after.memory.clients = e.before.memory.clients ∧
          ∀ n, Holds start n (e.exchanges ++ earlier) ↔ Holds start n earlier) ∧
      ((e.deed = .stop ∧ e.before.memory.connected = false) ∨ e.deed = .removeMany [] → e.exchanges = []) := by
  intro start
  obtain ⟨earlier, hearlier, hbefore, he⟩ := keeping_of_record hw h
  obtain ⟨failure, hafter, hturn, hkeeping⟩ := hbefore.after he
  refine ⟨earlier, hearlier, hafter, hbefore.held_iff, hkeeping.held_iff, ?_, ?_, ?_, exchanges_of_idle he⟩
  · intro later x older hsplit
    have hinTurn := hkeeping.inTurn
    rw [hsplit] at hinTurn
    refine ⟨hinTurn.opening, fun hx => ?_⟩
    obtain ⟨n, hclient, hn⟩ := hinTurn.exists_holds hx
    exact ⟨n, hclient, hn, hn.made_eq⟩
  · intro later x between y older hsplit hx hy
    have hinTurn := hkeeping.inTurn
    rw [hsplit] at hinTurn
    exact hinTurn.closed_once hx hy
  · intro x hx hf hc
    obtain ⟨hclients, hexchanges⟩ := hturn.unchanged hx hf hc
    refine ⟨hclients, fun n => ?_⟩
    rw [hexchanges, List.singleton_append, ← held_eq_some_iff, ← held_eq_some_iff, held_cons_of_failed hf]

/-- The first closing fails and the client serves on; it is closed once before the last read creates another one. -/
theorem clients_in_turn_closed : ∃ past e, record Deed.op [.fetch "a", .stop, .fetch "a", .stop, .fetch "b"]
      { World.fresh [] with network := Network.calm.arm [] Command.closes (.client .connection "gone") (some 1) } =
        past ++ [e] ∧
    ∃ opening between, opening.creates = true ∧
      e.after.history = ⟨some 1, .get "b", none⟩ :: opening :: (between ++ [opening]) ∧
      between = [⟨some 0, .close, none⟩, ⟨some 0, .get "a", none⟩,
        ⟨some 0, .close, some (.client .connection "gone")⟩, ⟨some 0, .get "a", none⟩] ∧
      ∃! before, ∃ after z, between = after ++ z :: before ∧ z.closes = true ∧ z.client = some 0 ∧
        Holds 0 0 (before ++ [opening]) := by
  have h : record Deed.op [.fetch "a", .stop, .fetch "a", .stop, .fetch "b"]
      { World.fresh [] with network := Network.calm.arm [] Command.closes (.client .connection "gone") (some 1) } =
        [_, _, _, _] ++ _ :: [] := rfl
  obtain ⟨earlier, hearlier, -, -, -, -, hclosed, -⟩ := clients_in_turn rfl h
  obtain rfl := (List.append_nil earlier).symm.trans hearlier.history.symm
  exact ⟨[_, _, _, _], _, h, _, [_, _, _, _], rfl, rfl, rfl, hclosed [_] _ [_, _, _, _] _ [] rfl rfl rfl⟩

end Store
end CacheAside
