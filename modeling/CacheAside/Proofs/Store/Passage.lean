import CacheAside.Proofs.Store.Sending

/-! # What the store does with its client

Everything that the store is asked for is a deed, and on every network, whatever fails, a deed goes in one of a few
ways (`Deed.Turn`): it needs no client; or it is one call, given to the client that is held, or to one that is
created for it, or to none where that fails; or it closes the client. Only the last exchange of a deed can have
failed, and this failure decides what the deed comes to (`Deed.done`). -/

namespace CacheAside
set_option autoImplicit false

namespace Command

/-- Whether a command creates a client. -/
def opens : Command → Bool
  | .open _ => true
  | _ => false

def closes : Command → Bool
  | .close => true
  | _ => false

end Command

/-- The failure that an outcome is. -/
def Failure.of? {α : Type} : Except Failure α → Option Failure
  | .ok _ => none
  | .error f => some f

theorem Failure.eq_of_of? {α : Type} {r : Except Failure α} {f : Failure} (h : of? r = some f) : r = .error f := by
  cases r with
  | ok a => cases h
  | error g =>
    cases h
    rfl

theorem Failure.exists_of_of? {α : Type} {r : Except Failure α} (h : of? r = none) : ∃ a, r = .ok a := by
  cases r with
  | ok a => exact ⟨a, rfl⟩
  | error g => cases h

theorem World.traced_outcome (w : World) (client : Option ℕ) (c : Command) :
    Traced w (w.answer client c).2 [⟨client, c, Failure.of? (w.answer client c).1⟩] := by
  have htraced := w.traced_answer client c
  have hfailure : Failure.of? (w.answer client c).1 = w.network.failure w.history c := by
    rw [w.answer_fst client c]
    cases w.network.failure w.history c <;> rfl
  rw [hfailure]
  exact htraced

theorem Op.run_map {α β : Type} (f : α → β) (op : Op α) (w : World) :
    (f <$> op).run w = ((op.run w).1.map f, (op.run w).2) := by
  rw [← bind_pure_comp, run_bind]
  rcases op.run w with ⟨r, w'⟩
  cases r <;> rfl

namespace Store

/-! ## Calls -/

/-- The way of a call, with what it fails with if it does: to the client that is held, to one that is created for
it, or to none where that fails. -/
inductive Passage (c : Command) (w w' : World) : Option Failure → List Exchange → Prop
  | held {n : ℕ} (failure : Option Failure) (before : w.memory.clients.held = some n)
      (after : w'.memory.clients = w.memory.clients) : Passage c w w' failure [⟨n, c, failure⟩]
  | created (endpoint : Endpoint) (failure : Option Failure) (before : w.memory.clients.held = none)
      (after : w'.memory.clients = w.memory.clients.make) :
      Passage c w w' failure [⟨w.memory.clients.made, c, failure⟩, ⟨none, .open endpoint, none⟩]
  | uncreated (endpoint : Endpoint) (f : Failure) (before : w.memory.clients.held = none)
      (after : w'.memory.clients = w.memory.clients) : Passage c w w' (some f) [⟨none, .open endpoint, some f⟩]

theorem passage_send (c : Command) (w : World) : ∃ exchanges, Traced w ((send c).run w).2 exchanges ∧
    Passage c w ((send c).run w).2 (Failure.of? ((send c).run w).1) exchanges := by
  rw [run_send]
  cases hheld : w.memory.clients.held with
  | some n => exact ⟨_, w.traced_outcome n c, .held _ hheld (congrArg Memory.clients (w.memory_answer n c))⟩
  | none =>
    have htraced := w.traced_outcome none (.open w.memory.endpoint)
    have hmemory := congrArg Memory.clients (w.memory_answer none (.open w.memory.endpoint))
    simp only
    rcases hanswer : w.answer none (.open w.memory.endpoint) with ⟨r, w₁⟩
    rw [hanswer] at htraced hmemory
    replace hmemory : w₁.memory.clients = w.memory.clients := hmemory
    cases r with
    | error f => exact ⟨_, htraced, .uncreated _ f hheld hmemory⟩
    | ok u =>
      simp only
      rw [hmemory]
      refine ⟨_, (htraced.trans w₁.traced_renewed).trans (w₁.renewed.traced_outcome w.memory.clients.made c),
        .created _ _ hheld ?_⟩
      refine (congrArg Memory.clients (w₁.renewed.memory_answer _ c)).trans ?_
      rw [World.renewed, hmemory]

/-- The way is the same where only other parts of memory change after the call. -/
theorem Passage.withMemory {c : Command} {w w' w'' : World} {failure : Option Failure} {exchanges : List Exchange}
    (h : Passage c w w' failure exchanges) (hsame : w''.memory.clients = w'.memory.clients) :
    Passage c w w'' failure exchanges := by
  cases h with
  | held _ before after => exact .held _ before (hsame.trans after)
  | created _ _ before after => exact .created _ _ before (hsame.trans after)
  | uncreated _ _ before after => exact .uncreated _ _ before (hsame.trans after)

/-- Whatever a call is answered is what some server answers. -/
theorem exists_server_of_send {c : Command} {w w' : World} {reply : c.Reply} (h : (send c).run w = (.ok reply, w')) :
    ∃ s : Server, reply = (s.apply c).1 := by
  have hanswered : ∀ {w₁ : World} {client : Option ℕ}, (w₁.answer client c).1 = .ok reply →
      ∃ s : Server, reply = (s.apply c).1 := by
    intro w₁ client hok
    rw [w₁.answer_fst client c] at hok
    cases hfailure : w₁.network.failure w₁.history c with
    | some f =>
      simp only [hfailure] at hok
      cases hok
    | none =>
      simp only [hfailure] at hok
      cases hok
      exact ⟨_, rfl⟩
  rw [run_send] at h
  cases hheld : w.memory.clients.held with
  | some n =>
    rw [hheld] at h
    exact hanswered (congrArg Prod.fst h)
  | none =>
    simp only [hheld] at h
    rcases hanswer : w.answer none (.open w.memory.endpoint) with ⟨r, w₁⟩
    rw [hanswer] at h
    cases r with
    | error f => cases h
    | ok u => exact hanswered (congrArg Prod.fst h)

/-! ## Life of the client -/

/-- A start is a ping, and what it writes down besides touches no other part of memory. -/
theorem run_start (w : World) : ∃ journal, start.run w =
    ((((send .ping).run w).1.mapError (asReport "start" [])),
      { ((send .ping).run w).2 with memory := { ((send .ping).run w).2.memory with journal } }) := by
  rw [start, run_reporting, Op.run_tryCatch, Op.run_bind]
  rcases (send .ping).run w with ⟨r, w₁⟩
  cases r with
  | ok u => exact ⟨_, rfl⟩
  | error f => cases f <;> exact ⟨_, rfl⟩

theorem run_isHealthy (w : World) : isHealthy.run w =
    (match ((send .ping).run w).1 with
      | .ok _ => .ok true
      | .error (.client _ _) => .ok false
      | .error f => .error f, ((send .ping).run w).2) := by
  rw [isHealthy, Op.run_tryCatch, Op.run_bind]
  rcases (send .ping).run w with ⟨r, w₁⟩
  cases r with
  | ok u => rfl
  | error f => cases f <;> rfl

theorem run_stop (w : World) : stop.run w =
    match w.memory.clients.held with
    | none => (.ok (), w)
    | some n =>
      match w.answer n .close with
      | (.ok _, w) => (.ok (), { w with memory := { w.memory with
          clients := w.memory.clients.drop
          journal := ⟨logger, .info, "Redis store stopped", [], none⟩ :: w.memory.journal } })
      | (.error f, w) => (.error f, w) := by
  rw [stop, Op.run_bind, Op.run_get]
  cases hheld : w.memory.clients.held with
  | none => simp [hheld]
  | some n =>
    simp only [hheld, Op.run_bind, Op.run_command]
    rcases w.answer n .close with ⟨r, w₁⟩
    cases r <;> rfl

/-! ## Deeds -/

/-- What the store can be asked for. -/
inductive Deed where
  | start
  | stop
  | check
  | fetch (key : String)
  | write (key text : String)
  | writeFor (key text : String) (seconds : Seconds)
  | remove (key : String)
  | removeMany (keys : List String)
  | keysMatching (pattern : String)
  | describe

namespace Deed

/-- The deed, its answer told as a value. -/
def op : Deed → Op Json
  | .start => (fun _ => .null) <$> Store.start
  | .stop => (fun _ => .null) <$> Store.stop
  | .check => .bool <$> isHealthy
  | .fetch key => Json.ofOption .str <$> Store.fetch key
  | .write key text => (fun _ => .null) <$> Store.write key text
  | .writeFor key text seconds => (fun _ => .null) <$> Store.writeFor key text seconds
  | .remove key => Json.nat <$> Store.remove key
  | .removeMany keys => Json.nat <$> Store.removeMany keys
  | .keysMatching pattern => Json.strings <$> Store.keysMatching pattern
  | .describe => .str <$> serverInfo

/-- What the deed is called in reports. -/
def name : Deed → String
  | .start => "start"
  | .stop => "stop"
  | .check => "health_check"
  | .fetch _ => "get"
  | .write _ _ => "set"
  | .writeFor _ _ _ => "set_with_expiry"
  | .remove _ => "delete"
  | .removeMany _ => "delete_many"
  | .keysMatching _ => "keys_matching"
  | .describe => "server_info"

/-- What reports tell of the arguments of the deed. -/
def details : Deed → List (String × Json)
  | .fetch key => [("key", .str key)]
  | .write key _ => [("key", .str key)]
  | .writeFor key _ seconds => [("key", .str key), ("ttl", seconds.json)]
  | .remove key => [("key", .str key)]
  | .removeMany keys => [("count", .nat keys.length)]
  | .keysMatching pattern => [("pattern", .str pattern)]
  | .start | .stop | .check | .describe => []

/-- What the deed comes to where a call fails: most deeds report what the client reports, a check takes it for an
answer, and a stop lets it pass. -/
def comesTo : Deed → Failure → Except Failure Json
  | .check, .client _ _ => .ok (.bool false)
  | .stop, f => .error f
  | d, f => .error (asReport d.name d.details f)

end Deed

/-- The way of a deed, with what a call on it fails with if one does. -/
inductive Turn (w w' : World) : Option Failure → List Exchange → Prop
  | idle (same : w'.memory.clients = w.memory.clients) : Turn w w' none []
  | call {c : Command} {failure : Option Failure} {exchanges : List Exchange} (opens : c.opens = false)
      (closes : c.closes = false) (passage : Passage c w w' failure exchanges) : Turn w w' failure exchanges
  | closed {n : ℕ} (before : w.memory.clients.held = some n) (after : w'.memory.clients = w.memory.clients.drop) :
      Turn w w' none [⟨n, .close, none⟩]
  | unclosed {n : ℕ} (f : Failure) (before : w.memory.clients.held = some n)
      (after : w'.memory.clients = w.memory.clients) : Turn w w' (some f) [⟨n, .close, some f⟩]

/-- Only the last exchange of a deed can have failed. -/
theorem Turn.failure_eq {w w' : World} {failure : Option Failure} {exchanges : List Exchange}
    (h : Turn w w' failure exchanges) {x : Exchange} (hx : x ∈ exchanges) {f : Failure} (hf : x.failure = some f) :
    failure = some f := by
  cases h with
  | idle => cases hx
  | call _ _ passage =>
    cases passage with
    | created =>
      rcases List.mem_cons.1 hx with rfl | hx
      · exact hf
      · rw [List.mem_singleton.1 hx] at hf
        cases hf
    | _ =>
      rw [List.mem_singleton.1 hx] at hf
      exact hf
  | closed =>
    rw [List.mem_singleton.1 hx] at hf
    exact hf
  | unclosed =>
    rw [List.mem_singleton.1 hx] at hf
    exact hf

/-- What a deed made of a world: the way that it went, and the outcome that this way decides. -/
structure Done (d : Deed) (w : World) (r : Except Failure Json) (w' : World) (failure : Option Failure)
    (exchanges : List Exchange) : Prop where
  traced : Traced w w' exchanges
  turn : Turn w w' failure exchanges
  failed : ∀ f, failure = some f → r = d.comesTo f
  succeeded : failure = none → ∃ a, r = .ok a

/-- A deed that has nothing to do. -/
theorem done_idle (d : Deed) (w : World) (a : Json) : Done d w (.ok a) w none [] where
  traced := Traced.refl w
  turn := .idle rfl
  failed f hf := by cases hf
  succeeded _ := ⟨a, rfl⟩

/-- A deed that is one call, whatever its answer is told as. -/
theorem done_call (d : Deed) (c : Command) (hopens : c.opens = false) (hcloses : c.closes = false)
    (answer : c.Reply → Json) (w : World) (hd : ∀ f, d.comesTo f = .error (asReport d.name d.details f)) :
    ∃ failure exchanges, Done d w ((answer <$> reporting d.name d.details (send c)).run w).1
      ((answer <$> reporting d.name d.details (send c)).run w).2 failure exchanges := by
  obtain ⟨exchanges, htraced, hpassage⟩ := passage_send c w
  rw [Op.run_map, run_reporting]
  refine ⟨_, exchanges, htraced, .call hopens hcloses hpassage, fun f hf => ?_, fun hf => ?_⟩
  · rw [hd, Failure.eq_of_of? hf]
    rfl
  · obtain ⟨reply, hreply⟩ := Failure.exists_of_of? hf
    exact ⟨answer reply, by rw [hreply]; rfl⟩

theorem done_start (w : World) : ∃ failure exchanges,
    Done .start w (Deed.start.op.run w).1 (Deed.start.op.run w).2 failure exchanges := by
  obtain ⟨exchanges, htraced, hpassage⟩ := passage_send .ping w
  obtain ⟨journal, hrun⟩ := run_start w
  rw [Deed.op, Op.run_map, hrun]
  refine ⟨_, exchanges, ?_, .call rfl rfl (hpassage.withMemory rfl), fun f hf => ?_, fun hf => ?_⟩
  · exact htraced.trans (Traced.of_memory _ _)
  · rw [Failure.eq_of_of? hf]
    rfl
  · obtain ⟨reply, hreply⟩ := Failure.exists_of_of? hf
    exact ⟨.null, by rw [hreply]; rfl⟩

theorem done_check (w : World) : ∃ failure exchanges,
    Done .check w (Deed.check.op.run w).1 (Deed.check.op.run w).2 failure exchanges := by
  obtain ⟨exchanges, htraced, hpassage⟩ := passage_send .ping w
  rw [Deed.op, Op.run_map, run_isHealthy]
  refine ⟨_, exchanges, htraced, .call rfl rfl hpassage, fun f hf => ?_, fun hf => ?_⟩
  · rw [Failure.eq_of_of? hf]
    cases f <;> rfl
  · obtain ⟨reply, hreply⟩ := Failure.exists_of_of? hf
    exact ⟨.bool true, by rw [hreply]; rfl⟩

theorem done_stop (w : World) : ∃ failure exchanges,
    Done .stop w (Deed.stop.op.run w).1 (Deed.stop.op.run w).2 failure exchanges := by
  rw [Deed.op, Op.run_map, run_stop]
  cases hheld : w.memory.clients.held with
  | none => exact ⟨none, [], done_idle .stop w .null⟩
  | some n =>
    have htraced := w.traced_outcome n .close
    have hmemory := congrArg Memory.clients (w.memory_answer n .close)
    simp only
    rcases hanswer : w.answer n .close with ⟨r, w₁⟩
    rw [hanswer] at htraced hmemory
    cases r with
    | ok u =>
      refine ⟨none, _, htraced.trans (Traced.of_memory w₁ _), .closed hheld ?_, nofun, fun _ => ⟨_, rfl⟩⟩
      exact congrArg Clients.drop hmemory
    | error f =>
      refine ⟨some f, _, htraced, .unclosed f hheld hmemory, fun g hg => ?_, nofun⟩
      cases hg
      rfl

theorem done (d : Deed) (w : World) :
    ∃ failure exchanges, Done d w (d.op.run w).1 (d.op.run w).2 failure exchanges := by
  cases d with
  | start => exact done_start w
  | stop => exact done_stop w
  | check => exact done_check w
  | fetch key => exact done_call (.fetch key) (.get key) rfl rfl _ w fun _ => rfl
  | write key text => exact done_call (.write key text) (.set key text) rfl rfl _ w fun _ => rfl
  | writeFor key text seconds =>
    exact done_call (.writeFor key text seconds) (.setFor key seconds text) rfl rfl _ w fun _ => rfl
  | remove key => exact done_call (.remove key) (.remove [key]) rfl rfl _ w fun _ => rfl
  | removeMany keys =>
    rw [Deed.op, removeMany]
    cases hkeys : keys.isEmpty with
    | true => exact ⟨none, [], done_idle (.removeMany keys) w (.nat 0)⟩
    | false => exact done_call (.removeMany keys) (.remove keys) rfl rfl _ w fun _ => rfl
  | keysMatching pattern => exact done_call (.keysMatching pattern) (.list pattern) rfl rfl _ w fun _ => rfl
  | describe =>
    have hop : Deed.describe.op = (fun info : ServerInfo => Json.str info.render) <$>
        reporting "server_info" [] (send .describe) := by
      rw [Deed.op, serverInfo, bind_pure_comp, Functor.map_map]
    rw [hop]
    exact done_call .describe .describe rfl rfl _ w fun _ => rfl

end Store
end CacheAside
