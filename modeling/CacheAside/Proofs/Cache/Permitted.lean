import CacheAside.Proofs.Cache.Effect
import CacheAside.Proofs.Invalidation.Announcing
import CacheAside.Proofs.Run.Policy

/-! # Policies about writes

A lenient policy has nothing against commands that write no text. Under such a policy reading, removing, updating
and clearing are free; an operation that writes keeps to it if the write that it comes to is allowed, and what it
reads is what the policy admits. -/

namespace CacheAside
set_option autoImplicit false

def Command.isWrite : Command → Bool
  | .set _ _ | .setFor _ _ _ => true
  | _ => false

/-- Allows every command that writes no text. -/
def Policy.Lenient (P : Policy) : Prop := ∀ c : Command, c.isWrite = false → P.allows c

/-- Allows to write a value under a key for these seconds, or without end where they are not positive. -/
def Policy.Writes (P : Policy) (key : String) (value : Payload) (s : Seconds) : Prop :=
  ∀ limits text, value.text limits = .ok text → (s.isPositive? = some true → P.allows (.setFor key s text)) ∧
    (s.isPositive? = some false → P.allows (.set key text))

variable {P : Policy}

/-! ## Calls to the store -/

namespace Store

theorem within_client (hP : P.Lenient) : client.Within P fun _ => True := by
  refine Op.Within.get.bind fun m _ => ?_
  have hopen : (Op.command none (.open m.endpoint)).Within P fun _ => True :=
    (Op.Within.command (hP _ rfl)).mono fun _ _ => trivial
  split
  · exact Op.Within.pure trivial
  · refine hopen.bind fun _ _ => Op.Within.get.bind fun m _ => ?_
    exact (Op.Within.set _).bind fun _ _ => Op.Within.pure trivial

theorem within_reporting {α : Type} {Q : α → Prop} (operation : String)
    (details : List (String × Json)) {body : Op α} (h : body.Within P Q) :
    (reporting operation details body).Within P Q := by
  refine h.tryCatch fun f => ?_
  cases f <;> exact Op.Within.throw _

theorem within_send (hP : P.Lenient) {c : Command} (hc : P.allows c) : (send c).Within P (P.admits c) :=
  (within_client hP).bind fun _ _ => Op.Within.command hc

theorem within_fetch (hP : P.Lenient) (key : String) : (fetch key).Within P (P.admits (.get key)) :=
  within_reporting _ _ (within_send hP (hP (.get key) rfl))

theorem within_write (hP : P.Lenient) {key text : String} (h : P.allows (.set key text)) :
    (write key text).Within P fun _ => True :=
  within_reporting _ _ ((within_send hP h).mono fun _ _ => trivial)

theorem within_writeFor (hP : P.Lenient) {key text : String} {seconds : Seconds}
    (h : P.allows (.setFor key seconds text)) : (writeFor key text seconds).Within P fun _ => True :=
  within_reporting _ _ ((within_send hP h).mono fun _ _ => trivial)

theorem within_remove (hP : P.Lenient) (key : String) : (remove key).Within P fun _ => True :=
  within_reporting _ _ ((within_send hP (hP (.remove [key]) rfl)).mono fun _ _ => trivial)

theorem within_keysMatching (hP : P.Lenient) (pattern : String) : (keysMatching pattern).Within P fun _ => True :=
  within_reporting _ _ ((within_send hP (hP (.list pattern) rfl)).mono fun _ _ => trivial)

theorem within_removeMany (hP : P.Lenient) (keys : List String) : (removeMany keys).Within P fun _ => True := by
  rw [removeMany]
  split
  · exact Op.Within.pure trivial
  · exact within_reporting _ _ ((within_send hP (hP (.remove keys) rfl)).mono fun _ _ => trivial)

theorem within_serverInfo (hP : P.Lenient) : serverInfo.Within P fun _ => True :=
  (within_reporting _ _ (within_send hP (hP .describe rfl))).bind fun _ _ => Op.Within.pure trivial

theorem within_isHealthy (hP : P.Lenient) : isHealthy.Within P fun _ => True := by
  refine Op.Within.tryCatch ((within_send hP (hP .ping rfl)).bind fun _ _ => Op.Within.pure trivial) fun f => ?_
  cases f with
  | client fault text => exact Op.Within.pure trivial
  | _ => exact Op.Within.throw _

end Store

/-! ## The cache -/

namespace Cache

theorem within_swallow (event : String) (fields : List (String × Json)) (f : Failure) :
    (swallow event fields f).Within P fun _ => True := Op.Within.note _

theorem within_debug (event : String) (fields : List (String × Json)) :
    (debug event fields).Within P fun _ => True := Op.Within.note _

theorem within_bucketFor (key : String) : (bucketFor key).Within P fun _ => True :=
  Op.Within.get.bind fun _ _ => Op.Within.pure trivial

theorem within_recordHit (key : String) : (recordHit key).Within P fun _ => True := by
  refine (within_bucketFor key).bind fun bucket _ => (Op.Within.modify _).bind fun _ _ => ?_
  exact (Op.Within.collect _).bind fun _ _ => Op.Within.pure trivial

theorem within_recordMiss (key : String) : (recordMiss key).Within P fun _ => True := by
  refine (within_bucketFor key).bind fun bucket _ => (Op.Within.modify _).bind fun _ _ => ?_
  exact (Op.Within.collect _).bind fun _ _ => Op.Within.pure trivial

/-- A read gives null or what an admitted text is read as, within whatever limits are in memory by then. -/
theorem within_get (hP : P.Lenient) (key : String) : (get key).Within P fun v =>
    v = .null ∨ ∃ limits text, P.admits (.get key) (some text) ∧ Json.read limits text = .ok v := by
  refine Op.Within.contain ?_ fun f => ?_
  · refine (Store.within_fetch hP key).bind fun found hfound => ?_
    cases found with
    | none => exact (within_recordMiss key).discard.bind fun _ _ => Op.Within.pure (.inl rfl)
    | some text =>
      refine Op.Within.get.bind fun m _ => ?_
      cases hread : Json.read m.limits text with
      | error e => exact Op.Within.throw _
      | ok v =>
        refine (within_recordHit key).discard.bind fun _ _ => Op.Within.pure (.inr ?_)
        exact ⟨m.limits, text, hfound, hread⟩
  · refine (within_swallow _ _ f).bind fun _ _ => ?_
    exact (within_recordMiss key).discard.bind fun _ _ => Op.Within.pure (.inl rfl)

theorem within_lifetime (key : String) : (lifetime key).Within P fun _ => True := by
  refine Op.Within.get.bind fun m _ => ?_
  split
  · exact Op.Within.throw _
  · exact Op.Within.pure trivial

theorem within_place (hP : P.Lenient) {key : String} {value : Payload} {s : Seconds} (h : P.Writes key value s) :
    (place key value s).Within P fun _ => True := by
  refine Op.Within.get.bind fun m _ => ?_
  cases htext : value.text m.limits with
  | error e => exact Op.Within.throw _
  | ok text =>
    obtain ⟨hfor, hever⟩ := h m.limits text htext
    simp only
    cases hpositive : s.isPositive? with
    | none => exact Op.Within.throw _
    | some positive =>
      cases positive with
      | true => exact (Store.within_writeFor hP (hfor hpositive)).bind fun _ _ => within_debug _ _
      | false => exact (Store.within_write hP (hever hpositive)).bind fun _ _ => within_debug _ _

theorem within_set (hP : P.Lenient) {key : String} {value : Payload} {seconds : Option Seconds}
    (h : ∀ s, (∀ given, seconds = some given → s = given) → P.Writes key value s) :
    (set key value seconds).Within P fun _ => True := by
  rw [set_eq]
  refine Op.Within.contain ?_ fun f => within_swallow _ _ f
  cases seconds with
  | some s =>
    refine (Op.Within.pure (Q := fun given => given = s) rfl).bind fun given hgiven => within_place hP (h given ?_)
    rintro s' ⟨⟩
    exact hgiven
  | none =>
    refine (within_lifetime key).bind fun s _ => within_place hP (h s ?_)
    rintro s' ⟨⟩

theorem within_callProvider {Q : Payload → Prop} (key : String) {provider : Op Payload}
    (h : provider.Within P Q) : (callProvider key provider).Within P Q := by
  refine (Op.Within.modify _).bind fun _ _ => h.outcome.bind fun outcome houtcome => ?_
  have hrest : (bucketFor key >>= fun bucket =>
      Op.collect (·.observe "provider_duration_seconds" [bucket] Memory.lapse) >>= fun _ =>
        Op.conclude outcome).Within P Q :=
    (within_bucketFor key).bind fun _ _ => (Op.Within.collect _).bind fun _ _ => Op.Within.conclude houtcome
  cases outcome with
  | ok value => exact (Op.Within.modify _).bind fun _ _ => hrest
  | error f =>
    simp only
    split
    · exact (within_swallow _ _ f).bind fun _ _ => hrest
    · exact hrest

/-- A read that may fill the cache keeps to the policy if the write of what its provider delivers does. -/
theorem within_getOrSet (hP : P.Lenient) {key : String} {Q : Payload → Prop} {provider : Op Payload}
    {seconds : Option Seconds}
    (hread : ∀ limits text v, P.admits (.get key) (some text) → Json.read limits text = .ok v → Q (.json v))
    (hprovider : provider.Within P Q)
    (hwrite : ∀ value, Q value → ∀ s, (∀ given, seconds = some given → s = given) → P.Writes key value s) :
    (getOrSet key provider seconds).Within P Q := by
  refine (within_get hP key).bind fun found hfound => ?_
  have hfetch : (do
      let value ← callProvider key provider
      set key value seconds
      return value : Op Payload).Within P Q := by
    refine (within_callProvider key hprovider).bind fun value hvalue => ?_
    exact (within_set hP (hwrite value hvalue)).bind fun _ _ => Op.Within.pure hvalue
  have hhit : ∀ v, v ≠ .null → found = v → (return .json v : Op Payload).Within P Q := by
    rintro v hne rfl
    obtain ⟨limits, text, hadmitted, htext⟩ := hfound.resolve_left hne
    exact Op.Within.pure (hread limits text found hadmitted htext)
  cases found with
  | null => exact hfetch
  | _ => exact hhit _ Json.noConfusion rfl

theorem within_delete (hP : P.Lenient) (key : String) : (delete key).Within P fun _ => True := by
  refine Op.Within.contain ?_ fun f => within_swallow _ _ f
  exact (Store.within_remove hP key).discard.bind fun _ _ => within_debug _ _

theorem within_deleteByPattern (hP : P.Lenient) (pattern : String) :
    (deleteByPattern pattern).Within P fun _ => True := by
  refine Op.Within.contain ?_ fun f => (within_swallow _ _ f).bind fun _ _ => Op.Within.pure trivial
  refine (Store.within_keysMatching hP pattern).bind fun keys _ => ?_
  split
  · exact Op.Within.pure trivial
  · refine (Store.within_removeMany hP keys).bind fun count _ => ?_
    exact (within_debug _ _).bind fun _ _ => Op.Within.pure trivial

theorem within_serverInfo (hP : P.Lenient) : serverInfo.Within P fun _ => True :=
  Op.Within.contain (Store.within_serverInfo hP) fun f =>
    (within_swallow _ _ f).bind fun _ _ => Op.Within.pure trivial

theorem within_metrics : metrics.Within P fun _ => True :=
  Op.Within.get.bind fun _ _ => Op.Within.pure trivial

theorem within_summary : summary.Within P fun _ => True := by
  refine Op.Within.get.bind fun m _ => ?_
  split
  · exact Op.Within.conclude fun _ _ => trivial
  · exact Op.Within.pure trivial

end Cache

/-! ## Updates and clearing -/

namespace Invalidation

theorem closed_within (hP : P.Lenient) : Op.Closed fun _ op => op.Within P fun _ => True where
  pure _ := Op.Within.pure trivial
  throw := Op.Within.throw
  bind hop hf := hop.bind fun a _ => hf a
  tryCatch := Op.Within.tryCatch
  get := Op.Within.get
  modify f _ := Op.Within.modify f
  delete := Cache.within_delete hP
  deleteByPattern := Cache.within_deleteByPattern hP

/-- Whatever handlers an update reaches, and whatever updates they announce in turn, nothing is written. -/
theorem within_announce (hP : P.Lenient) (a : Announcement) : (announce a).Within P fun _ => True :=
  closed_announceWithin (closed_within hP) nesting a

theorem within_clearAll (hP : P.Lenient) : clearAll.Within P fun _ => True := by
  refine (Op.Within.note _).bind fun _ _ => (Op.Within.gather (Q := fun _ => True) ?_).bind fun counts _ =>
    Op.Within.pure trivial
  intro op hop
  obtain ⟨pattern, -, rfl⟩ := List.mem_map.1 hop
  exact Cache.within_deleteByPattern hP pattern

end Invalidation
end CacheAside
