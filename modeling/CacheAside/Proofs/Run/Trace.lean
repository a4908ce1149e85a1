import Mathlib.Tactic
import CacheAside.Op

/-! # Runs and the exchanges they make

A run touches the server through its exchanges alone, so the server after a run is the server before it
with these exchanges carried out again: each one first lets its delay pass and then, unless it failed,
applies its command. `Traced` says so and composes; every task is traced. Exchanges stand latest first,
as in the history of a world. -/

namespace CacheAside
set_option autoImplicit false

/-! ## Waiting -/

namespace Entry

def wait : ℕ → Entry → Option Entry
  | 0, e => some e
  | n + 1, e => e.later (.whole (n + 1 : ℕ))

theorem text_wait {n : ℕ} {e e' : Entry} (h : e.wait n = some e') : e'.text = e.text := by
  cases n with
  | zero =>
    cases h
    rfl
  | succ n =>
    rw [wait, later] at h
    split at h
    · cases h
      rfl
    · simp only at h
      split at h
      · cases h
      · cases h
        rfl

/-- An entry after several delays, the latest first. -/
def aged (ds : List ℕ) (e : Option Entry) : Option Entry := ds.foldr (fun d e => e.bind (wait d)) e

@[simp] theorem aged_cons (d : ℕ) (ds : List ℕ) (e : Option Entry) :
    aged (d :: ds) e = (aged ds e).bind (wait d) := rfl

/-- Waiting brings nothing back. -/
@[simp] theorem aged_none (ds : List ℕ) : aged ds none = none := by
  induction ds with
  | nil => rfl
  | cons d ds ih => rw [aged_cons, ih, Option.bind_none]

theorem aged_zero {ds : List ℕ} (h : ∀ d ∈ ds, d = 0) (e : Option Entry) : aged ds e = e := by
  induction ds with
  | nil => rfl
  | cons d ds ih =>
    rw [aged_cons, ih fun d' hd' => h d' (List.mem_cons_of_mem _ hd'), h d List.mem_cons_self]
    cases e <;> rfl

theorem text_aged {ds : List ℕ} {e e' : Entry} (h : aged ds (some e) = some e') : e'.text = e.text := by
  induction ds generalizing e' with
  | nil =>
    cases h
    rfl
  | cons d ds ih =>
    obtain ⟨e₁, he₁, hwait⟩ := Option.bind_eq_some_iff.1 h
    rw [text_wait hwait, ih he₁]

/-- An entry without end stays. -/
theorem aged_endless (ds : List ℕ) (text : String) : aged ds (some ⟨text, none⟩) = some ⟨text, none⟩ := by
  induction ds with
  | nil => rfl
  | cons d ds ih =>
    rw [aged_cons, ih]
    cases d <;> rfl

end Entry

namespace Server

def wait (s : Server) : ℕ → Server
  | 0 => s
  | n + 1 => s.elapse (.whole (n + 1 : ℕ))

/-- The server after several delays, the latest first. -/
def waits (s : Server) : List ℕ → Server
  | [] => s
  | d :: ds => (s.waits ds).wait d

theorem find?_wait (s : Server) (n : ℕ) (key : String) :
    (s.wait n).find? key = (s.find? key).bind (Entry.wait n) := by
  cases n with
  | zero =>
    rw [wait]
    cases s.find? key <;> rfl
  | succ n =>
    rw [wait, find?, elapse]
    exact Table.find?_mapMaybe s.entries _ key

theorem find?_waits (s : Server) (ds : List ℕ) (key : String) :
    (s.waits ds).find? key = Entry.aged ds (s.find? key) := by
  induction ds with
  | nil => rfl
  | cons d ds ih => rw [waits, find?_wait, ih, Entry.aged_cons]

theorem waits_append (s : Server) (ds es : List ℕ) : s.waits (ds ++ es) = (s.waits es).waits ds := by
  induction ds with
  | nil => rfl
  | cons d ds ih => rw [List.cons_append, waits, ih, waits]

@[simp] theorem matcher_wait (s : Server) (n : ℕ) : (s.wait n).matcher = s.matcher := by
  cases n <;> rfl

@[simp] theorem matcher_waits (s : Server) (ds : List ℕ) : (s.waits ds).matcher = s.matcher := by
  induction ds with
  | nil => rfl
  | cons d ds ih => rw [waits, matcher_wait, ih]

theorem find?_waits_eq_none {s : Server} {key : String} (h : s.find? key = none) (ds : List ℕ) :
    (s.waits ds).find? key = none := by
  rw [find?_waits, h, Entry.aged_none]

theorem find?_waits_endless {s : Server} {key text : String} (h : s.find? key = some ⟨text, none⟩) (ds : List ℕ) :
    (s.waits ds).find? key = some ⟨text, none⟩ := by
  rw [find?_waits, h, Entry.aged_endless]

/-! ## Views after a command -/

theorem find?_put (s : Server) (key : String) (e : Entry) (key' : String) :
    (s.put key e).find? key' = if key' = key then some e else s.find? key' :=
  Table.find?_put s.entries key e key'

theorem find?_without (s : Server) (keys : List String) (key : String) :
    (s.without keys).find? key = if key ∈ keys then none else s.find? key := by
  rw [find?, without, Table.find?_keep]
  by_cases h : key ∈ keys <;> cases hs : s.entries.find? key <;> simp [h, hs, find?]

theorem mem_matching (s : Server) (pattern key : String) :
    key ∈ s.matching pattern ↔
      (∃ e, s.find? key = some e) ∧ s.matcher.accepts pattern key = true := by
  rw [matching, List.mem_mergeSort, List.mem_filter, Table.mem_keys_iff]
  rfl

/-- Commands change what the server holds, not how it reads patterns. -/
@[simp] theorem matcher_apply (s : Server) (c : Command) : (s.apply c).2.matcher = s.matcher := by
  cases c <;> rfl

end Server

/-! ## Exchanges -/

/-- Commands that leave the server as it is. -/
def Command.isSilent : Command → Bool
  | .set _ _ | .setFor _ _ _ | .remove _ => false
  | _ => true

theorem Server.apply_of_isSilent (s : Server) {c : Command} (h : c.isSilent = true) : (s.apply c).2 = s := by
  cases c <;> first | rfl | cases h

/-- Whether an exchange leaves the server as it is, but for the time that passes. -/
def Exchange.isSilent (x : Exchange) : Bool := x.failure.isSome || x.command.isSilent

def Exchange.IsOpening (x : Exchange) : Prop := ∃ endpoint, x = ⟨none, .open endpoint, none⟩

theorem Exchange.IsOpening.isSilent {x : Exchange} (h : x.IsOpening) : x.isSilent = true := by
  obtain ⟨endpoint, rfl⟩ := h
  rfl

theorem Exchange.IsOpening.failure {x : Exchange} (h : x.IsOpening) : x.failure = none := by
  obtain ⟨endpoint, rfl⟩ := h
  rfl

namespace Network

/-- Every failure is one that can be contained. -/
def Contained (n : Network) : Prop := ∀ past c f, n.failure past c = some f → f.isContained = true

/-- The server after exchanges, the latest first, that followed on others. -/
def replay (n : Network) (past : List Exchange) (s : Server) : List Exchange → Server
  | [] => s
  | x :: older =>
    let arrival := (n.replay past s older).wait (n.delay (older ++ past) x.command)
    match x.failure with
    | none => (arrival.apply x.command).2
    | some _ => arrival

theorem matcher_replay (n : Network) (past : List Exchange) (s : Server) (exchanges : List Exchange) :
    (n.replay past s exchanges).matcher = s.matcher := by
  induction exchanges with
  | nil => rfl
  | cons x older ih =>
    rw [replay]
    cases x.failure with
    | none => rw [Server.matcher_apply, Server.matcher_wait, ih]
    | some f => rw [Server.matcher_wait, ih]

/-- The delays of exchanges that followed on others. -/
def pauses (n : Network) (past : List Exchange) : List Exchange → List ℕ
  | [] => []
  | x :: older => n.delay (older ++ past) x.command :: n.pauses past older

theorem replay_append (n : Network) (past : List Exchange) (s : Server) (later earlier : List Exchange) :
    n.replay past s (later ++ earlier) = n.replay (earlier ++ past) (n.replay past s earlier) later := by
  induction later with
  | nil => rfl
  | cons x later ih => rw [List.cons_append, replay, ih, replay, List.append_assoc]

theorem pauses_append (n : Network) (past later earlier : List Exchange) :
    n.pauses past (later ++ earlier) = n.pauses (earlier ++ past) later ++ n.pauses past earlier := by
  induction later with
  | nil => rfl
  | cons x later ih => rw [List.cons_append, pauses, ih, pauses, List.append_assoc, List.cons_append]

/-- Exchanges that fail where the network says so, and nowhere else. -/
def Faithful (n : Network) (past : List Exchange) : List Exchange → Prop
  | [] => True
  | x :: older => x.failure = n.failure (older ++ past) x.command ∧ n.Faithful past older

theorem faithful_append {n : Network} {past later earlier : List Exchange} (h : n.Faithful past earlier)
    (h' : n.Faithful (earlier ++ past) later) : n.Faithful past (later ++ earlier) := by
  induction later with
  | nil => exact h
  | cons x later ih =>
    obtain ⟨hx, hlater⟩ := h'
    rw [← List.append_assoc] at hx
    exact ⟨hx, ih hlater⟩

def NeverFails (n : Network) : Prop := ∀ past c, n.failure past c = none

/-- No time passes on the way. -/
def IsPrompt (n : Network) : Prop := ∀ past c, n.delay past c = 0

theorem NeverFails.contained {n : Network} (h : n.NeverFails) : n.Contained := by
  intro past c f hf
  rw [h] at hf
  cases hf

theorem NeverFails.failure_eq_none {n : Network} (h : n.NeverFails) {past exchanges : List Exchange}
    (hf : n.Faithful past exchanges) : ∀ x ∈ exchanges, x.failure = none := by
  induction exchanges with
  | nil =>
    intro x hx
    cases hx
  | cons y older ih =>
    obtain ⟨hy, holder⟩ := hf
    intro x hx
    rcases List.mem_cons.1 hx with rfl | hx
    · rw [hy, h]
    · exact ih holder x hx

/-- Where no exchange changes the server, only time passes. -/
theorem replay_of_silent (n : Network) (past : List Exchange) (s : Server) {exchanges : List Exchange}
    (h : ∀ x ∈ exchanges, x.isSilent = true) :
    n.replay past s exchanges = s.waits (n.pauses past exchanges) := by
  induction exchanges with
  | nil => rfl
  | cons x older ih =>
    have holder := ih fun y hy => h y (List.mem_cons_of_mem _ hy)
    have hx := h x List.mem_cons_self
    rw [replay, pauses, Server.waits, holder]
    cases hf : x.failure with
    | some f => rfl
    | none =>
      rw [Exchange.isSilent, hf, Option.isSome_none, Bool.false_or] at hx
      exact Server.apply_of_isSilent _ hx

theorem replay_cons_of_silent (n : Network) (past : List Exchange) (s : Server) (client : Option ℕ) (c : Command)
    {older : List Exchange} (h : ∀ x ∈ older, x.isSilent = true) :
    n.replay past s (⟨client, c, none⟩ :: older) =
      ((s.waits (n.pauses past (⟨client, c, none⟩ :: older))).apply c).2 := by
  rw [replay, replay_of_silent n past s h, pauses, Server.waits]

end Network

/-! ## Traces -/

/-- A world that came out of another one by these exchanges. -/
structure Traced (w w' : World) (exchanges : List Exchange) : Prop where
  network : w'.network = w.network
  history : w'.history = exchanges ++ w.history
  server : w'.server = w.network.replay w.history w.server exchanges
  faithful : w.network.Faithful w.history exchanges

namespace Traced

theorem refl (w : World) : Traced w w [] := ⟨rfl, rfl, rfl, trivial⟩

theorem trans {w₁ w₂ w₃ : World} {earlier later : List Exchange} (h : Traced w₁ w₂ earlier)
    (h' : Traced w₂ w₃ later) : Traced w₁ w₃ (later ++ earlier) := by
  refine ⟨h'.network.trans h.network, ?_, ?_, ?_⟩
  · rw [h'.history, h.history, List.append_assoc]
  · rw [h'.server, h.server, h.network, h.history, Network.replay_append]
  · have hlater := h'.faithful
    rw [h.network, h.history] at hlater
    exact Network.faithful_append h.faithful hlater

theorem of_memory (w : World) (m : Memory) : Traced w { w with memory := m } [] := ⟨rfl, rfl, rfl, trivial⟩

theorem exchanges_eq {w w' : World} {exchanges : List Exchange} (h : Traced w w' exchanges) :
    w'.history.take (w'.history.length - w.history.length) = exchanges := by
  rw [h.history, List.length_append, Nat.add_sub_cancel]
  exact List.take_left' rfl

theorem matcher {w w' : World} {exchanges : List Exchange} (h : Traced w w' exchanges) :
    w'.server.matcher = w.server.matcher := by
  rw [h.server, Network.matcher_replay]

theorem contained {w w' : World} {exchanges : List Exchange} (h : Traced w w' exchanges)
    (hw : w.network.Contained) : w'.network.Contained := by
  rw [h.network]
  exact hw

theorem neverFails {w w' : World} {exchanges : List Exchange} (h : Traced w w' exchanges)
    (hw : w.network.NeverFails) : w'.network.NeverFails := by
  rw [h.network]
  exact hw

theorem server_of_silent {w w' : World} {exchanges : List Exchange} (h : Traced w w' exchanges)
    (hs : ∀ x ∈ exchanges, x.isSilent = true) :
    w'.server = w.server.waits (w.network.pauses w.history exchanges) := by
  rw [h.server, Network.replay_of_silent _ _ _ hs]

end Traced

namespace World

theorem onArrival_eq (w : World) (c : Command) :
    w.onArrival c = w.server.wait (w.network.delay w.history c) := by
  rw [onArrival]
  cases w.network.delay w.history c <;> rfl

theorem traced_answer (w : World) (client : Option ℕ) (c : Command) :
    Traced w (w.answer client c).2 [⟨client, c, w.network.failure w.history c⟩] := by
  have harrival := onArrival_eq w c
  rw [answer]
  cases h : w.network.failure w.history c with
  | some f => exact ⟨rfl, rfl, harrival, h.symm, trivial⟩
  | none =>
    refine ⟨rfl, rfl, ?_, h.symm, trivial⟩
    change ((w.onArrival c).apply c).2 = _
    rw [harrival]
    rfl

theorem answer_fst (w : World) (client : Option ℕ) (c : Command) :
    (w.answer client c).1 = match w.network.failure w.history c with
      | some f => .error f
      | none => .ok ((w.server.wait (w.network.delay w.history c)).apply c).1 := by
  have harrival := onArrival_eq w c
  rw [answer]
  cases h : w.network.failure w.history c with
  | some f => rfl
  | none =>
    change Except.ok ((w.onArrival c).apply c).1 = _
    rw [harrival]

theorem traced_run {α : Type} (t : Task Memory α) (w : World) :
    ∃ exchanges, Traced w (run t w).2 exchanges := by
  induction t generalizing w with
  | done a => exact ⟨[], Traced.refl w⟩
  | look k ih => exact ih w.memory w
  | keep m k ih =>
    obtain ⟨exchanges, h⟩ := ih { w with memory := m }
    have htrans := (Traced.of_memory w m).trans h
    rw [List.append_nil] at htrans
    exact ⟨exchanges, htrans⟩
  | call client c k ih =>
    obtain ⟨exchanges, h⟩ := ih (w.answer client c).1 (w.answer client c).2
    exact ⟨_, (traced_answer w client c).trans h⟩
  | pause k ih => exact ih w

end World

/-- A service that has done nothing yet, on a calm network, with these entries in its store. -/
def World.fresh (entries : List (String × Entry)) : World where
  memory := Memory.start Registry.builtin Registry.defaultLifetime ⟨"redis://localhost:6379/0", 5.0, 5.0⟩ none
    ⟨0, 0⟩ [] fun _ => ""
  server := ⟨Table.ofRows entries, .default, .plain⟩
  network := .calm
  history := []

theorem World.neverFails_fresh (entries : List (String × Entry)) : (World.fresh entries).network.NeverFails :=
  fun _ _ => rfl

theorem World.isPrompt_fresh (entries : List (String × Entry)) : (World.fresh entries).network.IsPrompt :=
  fun _ _ => rfl

theorem World.contained_fresh (entries : List (String × Entry)) : (World.fresh entries).network.Contained :=
  (neverFails_fresh entries).contained

theorem Op.traced_run {α : Type} (op : Op α) (w : World) : ∃ exchanges, Traced w (op.run w).2 exchanges :=
  World.traced_run (ExceptT.run op) w

end CacheAside
