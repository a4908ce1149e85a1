import CacheAside.Store
import CacheAside.Proofs.Run.Trace

/-! # One call to the client

A command is preceded by the opening of a client where there is none, and either of the two may fail.
`Sent` tells the two outcomes apart: a call that fails leaves the server to time alone, and a call that
is answered has its command carried out last. -/

namespace CacheAside
set_option autoImplicit false

/-- Two worlds whose memories differ at most in the client. -/
def World.SameService (w w' : World) : Prop := ∃ clients, w'.memory = { w.memory with clients }

namespace World.SameService

theorem trans {w₁ w₂ w₃ : World} (h : w₁.SameService w₂) (h' : w₂.SameService w₃) : w₁.SameService w₃ := by
  obtain ⟨clients, hmemory⟩ := h
  obtain ⟨clients', hmemory'⟩ := h'
  exact ⟨clients', by rw [hmemory', hmemory]⟩

end World.SameService

/-- The world with a new client in use. -/
def World.renewed (w : World) : World := { w with memory := { w.memory with clients := w.memory.clients.make } }

theorem World.sameService_renewed (w : World) : w.SameService w.renewed := ⟨_, rfl⟩

theorem World.traced_renewed (w : World) : Traced w w.renewed [] := Traced.of_memory w _

theorem World.memory_answer (w : World) (client : Option ℕ) (c : Command) :
    (w.answer client c).2.memory = w.memory := by
  rw [answer]
  cases w.network.failure w.history c <;> rfl

theorem World.sameService_answer (w : World) (client : Option ℕ) (c : Command) :
    w.SameService (w.answer client c).2 :=
  ⟨w.memory.clients, w.memory_answer client c⟩

theorem World.traced_of_answered {w w' : World} {client : Option ℕ} {c : Command} {reply : c.Reply}
    (h : w.answer client c = (.ok reply, w')) : Traced w w' [⟨client, c, none⟩] := by
  have htraced := w.traced_answer client c
  have hreply := w.answer_fst client c
  rw [h] at htraced hreply
  cases hfailure : w.network.failure w.history c with
  | none => rwa [hfailure] at htraced
  | some f =>
    rw [hfailure] at hreply
    cases hreply

/-- What a call to the client comes to. -/
inductive Sent (c : Command) (w : World) : Except Failure c.Reply → World → Prop
  | failed {f f' : Failure} {client : Option ℕ} {c' : Command} {older : List Exchange} {w' : World}
      (contained : f.isContained = true) (opening : ∀ x ∈ older, x.IsOpening)
      (traced : Traced w w' (⟨client, c', some f'⟩ :: older)) (same : w.SameService w') : Sent c w (.error f) w'
  | answered {client : Option ℕ} {older : List Exchange} {w' : World} (opening : ∀ x ∈ older, x.IsOpening)
      (traced : Traced w w' (⟨client, c, none⟩ :: older)) (same : w.SameService w') :
      Sent c w (.ok ((w.server.waits (w.network.pauses w.history (⟨client, c, none⟩ :: older))).apply c).1) w'

namespace Sent
variable {c : Command} {w w' : World} {r : Except Failure c.Reply}

theorem same (h : Sent c w r w') : w.SameService w' := by
  cases h with
  | failed _ _ _ same => exact same
  | answered _ _ same => exact same

theorem contained (h : Sent c w r w') (f : Failure) (hf : r = .error f) : f.isContained = true := by
  cases h with
  | failed contained _ _ _ => cases hf; exact contained
  | answered _ _ _ => cases hf

theorem mapError (h : Sent c w r w') {g : Failure → Failure}
    (hg : ∀ f, f.isContained = true → (g f).isContained = true) : Sent c w (r.mapError g) w' := by
  cases h with
  | failed contained opening traced same => exact .failed (hg _ contained) opening traced same
  | answered opening traced same => exact .answered opening traced same

theorem after_opening {w₁ : World} {opened : List Exchange} (hopened : ∀ x ∈ opened, x.IsOpening)
    (ht : Traced w w₁ opened) (hs : w.SameService w₁) (h : Sent c w₁ r w') : Sent c w r w' := by
  have hall : ∀ older : List Exchange, (∀ x ∈ older, x.IsOpening) → ∀ x ∈ older ++ opened, x.IsOpening := by
    intro older holder x hx
    rcases List.mem_append.1 hx with hx | hx
    · exact holder x hx
    · exact hopened x hx
  have hserver := ht.server_of_silent fun x hx => (hopened x hx).isSilent
  cases h with
  | failed contained opening traced same =>
    exact .failed contained (hall _ opening) (ht.trans traced) (hs.trans same)
  | @answered client older _ opening traced same =>
    have hwaits : w₁.server.waits (w₁.network.pauses w₁.history (⟨client, c, none⟩ :: older)) =
        w.server.waits (w.network.pauses w.history (⟨client, c, none⟩ :: (older ++ opened))) := by
      rw [hserver, ht.network, ht.history, ← Server.waits_append, ← List.cons_append, Network.pauses_append]
    rw [hwaits]
    exact .answered (hall _ opening) (ht.trans traced) (hs.trans same)

end Sent

theorem World.sent_answer (client : Option ℕ) (c : Command) {w : World} (hw : w.network.Contained) :
    Sent c w (w.answer client c).1 (w.answer client c).2 := by
  have htraced := w.traced_answer client c
  have hsame := w.sameService_answer client c
  have hnone : ∀ x ∈ ([] : List Exchange), x.IsOpening := fun x hx => by cases hx
  rw [w.answer_fst client c]
  cases h : w.network.failure w.history c with
  | some f =>
    rw [h] at htraced
    exact .failed (hw _ _ f h) hnone htraced hsame
  | none =>
    rw [h] at htraced
    exact .answered hnone htraced hsame

namespace Store

theorem run_client (w : World) :
    client.run w = match w.memory.clients.held with
      | some n => (.ok n, w)
      | none => match w.answer none (.open w.memory.endpoint) with
        | (.ok _, w₁) => (.ok w₁.memory.clients.made, w₁.renewed)
        | (.error f, w₁) => (.error f, w₁) := by
  rw [client, Op.run_bind, Op.run_get]
  cases hheld : w.memory.clients.held with
  | some n => simp [hheld]
  | none =>
    simp only [hheld, Op.run_bind, Op.run_command]
    rcases w.answer none (.open w.memory.endpoint) with ⟨r, w₁⟩
    cases r <;> rfl

/-- A command is given to the client in use, or to a new one. -/
theorem run_send (c : Command) (w : World) :
    (send c).run w = match w.memory.clients.held with
      | some n => w.answer n c
      | none => match w.answer none (.open w.memory.endpoint) with
        | (.ok _, w₁) => w₁.renewed.answer w₁.memory.clients.made c
        | (.error f, w₁) => (.error f, w₁) := by
  rw [send, Op.run_bind, run_client]
  cases w.memory.clients.held with
  | some n => rfl
  | none =>
    simp only
    rcases w.answer none (.open w.memory.endpoint) with ⟨r, w₁⟩
    cases r <;> rfl

theorem sameService_send (c : Command) (w : World) : w.SameService ((send c).run w).2 := by
  rw [run_send]
  cases w.memory.clients.held with
  | some n => exact w.sameService_answer n c
  | none =>
    have hopen := w.sameService_answer none (.open w.memory.endpoint)
    simp only
    rcases hanswer : w.answer none (.open w.memory.endpoint) with ⟨r, w₁⟩
    rw [hanswer] at hopen
    cases r with
    | error f => exact hopen
    | ok u => exact (hopen.trans w₁.sameService_renewed).trans (World.sameService_answer _ _ c)

theorem sent_send (c : Command) {w : World} (hw : w.network.Contained) :
    Sent c w ((send c).run w).1 ((send c).run w).2 := by
  rw [run_send]
  cases w.memory.clients.held with
  | some n => exact w.sent_answer n c hw
  | none =>
    have hopen := w.sent_answer none (.open w.memory.endpoint) hw
    simp only
    rcases hanswer : w.answer none (.open w.memory.endpoint) with ⟨r, w₁⟩
    rw [hanswer] at hopen
    cases r with
    | error f =>
      cases hopen with
      | failed contained opening traced same => exact .failed contained opening traced same
    | ok u =>
      have htraced := World.traced_of_answered hanswer
      refine Sent.after_opening ?_ (htraced.trans w₁.traced_renewed) (hopen.same.trans w₁.sameService_renewed)
        (World.sent_answer _ c (htraced.contained hw))
      intro x hx
      obtain rfl := List.mem_singleton.1 hx
      exact ⟨_, rfl⟩

def asReport (operation : String) (details : List (String × Json)) : Failure → Failure
  | .client _ text => .reported (.ofStore operation text details)
  | f => f

theorem run_reporting {α : Type} (operation : String) (details : List (String × Json)) (body : Op α)
    (w : World) :
    (reporting operation details body).run w =
      ((body.run w).1.mapError (asReport operation details), (body.run w).2) := by
  rw [reporting, Op.run_tryCatch]
  rcases body.run w with ⟨r, w'⟩
  cases r with
  | ok a => rfl
  | error f => cases f <;> rfl

theorem sameService_reporting (operation : String) (details : List (String × Json)) (c : Command) (w : World) :
    w.SameService ((reporting operation details (send c)).run w).2 := by
  rw [run_reporting]
  exact sameService_send c w

theorem isContained_asReport (operation : String) (details : List (String × Json)) {f : Failure}
    (h : f.isContained = true) : (asReport operation details f).isContained = true := by
  cases f <;> first | rfl | exact h

theorem sent_reporting (operation : String) (details : List (String × Json)) (c : Command) {w : World}
    (hw : w.network.Contained) :
    Sent c w ((reporting operation details (send c)).run w).1
      ((reporting operation details (send c)).run w).2 := by
  rw [run_reporting]
  exact (sent_send c hw).mapError fun f => isContained_asReport operation details

theorem sent_fetch (key : String) {w : World} (hw : w.network.Contained) :
    Sent (.get key) w ((fetch key).run w).1 ((fetch key).run w).2 := sent_reporting _ _ _ hw

theorem sent_write (key text : String) {w : World} (hw : w.network.Contained) :
    Sent (.set key text) w ((write key text).run w).1 ((write key text).run w).2 := sent_reporting _ _ _ hw

theorem sent_writeFor (key text : String) (seconds : Seconds) {w : World} (hw : w.network.Contained) :
    Sent (.setFor key seconds text) w ((writeFor key text seconds).run w).1
      ((writeFor key text seconds).run w).2 := sent_reporting _ _ _ hw

theorem sent_remove (key : String) {w : World} (hw : w.network.Contained) :
    Sent (.remove [key]) w ((remove key).run w).1 ((remove key).run w).2 := sent_reporting _ _ _ hw

theorem sent_removeMany {keys : List String} (hkeys : keys ≠ []) {w : World} (hw : w.network.Contained) :
    Sent (.remove keys) w ((removeMany keys).run w).1 ((removeMany keys).run w).2 := by
  rw [removeMany, if_neg (by simpa using hkeys)]
  exact sent_reporting _ _ _ hw

theorem sent_keysMatching (pattern : String) {w : World} (hw : w.network.Contained) :
    Sent (.list pattern) w ((keysMatching pattern).run w).1 ((keysMatching pattern).run w).2 :=
  sent_reporting _ _ _ hw

end Store
end CacheAside
