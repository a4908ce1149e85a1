import CacheAside.Site
import CacheAside.Proofs.Resource.Traffic

/-! # Requests under a policy

A request comes to a read of the service or to diagnostics, and around it to notes, counts and an id. So it keeps
to a lenient policy that lets the reads of accepted resources through the cache, whatever is asked for. -/

namespace CacheAside.Site
set_option autoImplicit false

open Http (Request Response Target Route)

variable {P : Policy} {Q : Resource → Payload → Prop} (s : Site)

/-! ## Routes -/

theorem within_asking (provider : String) {R : Payload → Prop} {read : Op Payload} (h : read.Within P R) :
    (s.asking provider read).Within P R := by
  refine h.contain fun f => ?_
  split
  · exact Op.Within.throw _
  · exact (Op.Within.note _).bind fun _ _ => Op.Within.throw _

theorem within_delivering (shape : Http.Shape) {R : Payload → Prop} {read : Op Payload} (h : read.Within P R) :
    (delivering shape read).Within P fun _ => True := by
  refine h.bind fun p _ => ?_
  simp only
  split
  · exact Op.Within.throw _
  · split
    · exact Op.Within.throw _
    · exact Op.Within.pure trivial

theorem within_health (hP : P.Lenient) : s.health.Within P fun _ => True := by
  have hneeds : s.dependencies.Within P fun _ => True := by
    rw [dependencies]
    split
    · exact (Store.within_isHealthy hP).bind fun _ _ => Op.Within.pure trivial
    · exact Op.Within.pure trivial
  exact hneeds.bind fun needs _ => (Op.Within.collect _).bind fun _ _ => Op.Within.get.bind fun m _ =>
    Op.Within.pure trivial

theorem within_cacheInfo (hP : P.Lenient) : cacheInfo.Within P fun _ => True := by
  refine (Cache.within_serverInfo hP).bind fun server _ => Cache.within_metrics.bind fun metrics _ => ?_
  exact Cache.within_summary.bind fun config _ => Op.Within.get.bind fun m _ => Op.Within.pure trivial

theorem within_respond (hP : P.Lenient) (h : P.Caches Q) (t : Target) (route : Route) :
    (s.respond t route).Within P fun _ => True := by
  cases route with
  | health => exact s.within_health hP
  | metrics => exact Op.Within.get.bind fun m _ => Op.Within.pure trivial
  | docs => exact Op.Within.pure trivial
  | description => exact Op.Within.pure trivial
  | root => exact Op.Within.pure trivial
  | snapshot asset => exact within_delivering _ (s.within_asking _ (Api.within_snapshot h _))
  | extended asset => exact within_delivering _ (s.within_asking _ (Api.within_extended h _))
  | news => exact within_delivering _ (s.within_asking _ (Api.within_news h _))
  | trending => exact within_delivering _ (s.within_asking _ (Api.within_trending h))
  | cacheMetrics => exact Cache.within_metrics.bind fun m _ => Op.Within.pure trivial
  | cacheInfo => exact within_cacheInfo hP

/-! ## Requests -/

theorem within_serve (hP : P.Lenient) (h : P.Caches Q) (r : Request) : (s.serve r).Within P fun _ => True := by
  rw [serve]
  split
  · split
    · exact s.within_respond hP h _ _
    · exact Op.Within.pure trivial
  · exact Op.Within.pure trivial
  · exact Op.Within.pure trivial

theorem within_answerReport (r : Report) : (s.answerReport r).Within P fun _ => True := by
  refine (Op.Within.note _).bind fun _ _ => (Op.Within.collect _).bind fun _ _ => Op.Within.get.bind fun m _ => ?_
  have hbody : (if Http.isFinite (r.body (Json.ofOption .str m.requestId)) then
      (return .json r.status (r.body (Json.ofOption .str m.requestId))) else throw .notFinite :
      Op Response).Within P fun _ => True := by
    split
    · exact Op.Within.pure trivial
    · exact Op.Within.throw _
  simp only
  split
  · exact hbody
  · exact (Op.Within.throw (Q := fun _ => True) _).bind fun _ _ => hbody

theorem within_answerInside (hP : P.Lenient) (h : P.Caches Q) (r : Request) :
    (s.answerInside r).Within P fun _ => True := by
  refine (s.within_serve hP h r).tryCatch fun f => ?_
  split
  · exact Op.Within.throw _
  · split
    · exact s.within_answerReport _
    · exact Op.Within.throw _

theorem within_idOf (r : Request) : (idOf r).Within P fun _ => True := by
  rw [idOf]
  split
  · exact Op.Within.pure trivial
  · exact Op.Within.get.bind fun m _ => (Op.Within.set _).bind fun _ _ => Op.Within.pure trivial

theorem within_under {α : Type} (id : String) {R : α → Prop} {body : Op α} (h : body.Within P R) :
    (under id body).Within P R :=
  (Op.Within.modify _).bind fun _ _ => h.outcome.bind fun _ houtcome =>
    (Op.Within.modify _).bind fun _ _ => Op.Within.conclude houtcome

theorem within_answer (hP : P.Lenient) (h : P.Caches Q) (r : Request) : (s.answer r).Within P fun _ => True := by
  have hcounted : (s.answerCounted r).Within P fun _ => True := by
    refine (within_idOf r).bind fun id _ => ?_
    refine (within_under id (s.within_answerInside hP h r)).bind fun response _ => ?_
    exact (Op.Within.collect _).bind fun _ _ => (Op.Within.note _).bind fun _ _ => Op.Within.pure trivial
  refine hcounted.contain fun f => ?_
  exact (Op.Within.note _).bind fun _ _ => (Op.Within.collect _).bind fun _ _ => Op.Within.pure trivial

end CacheAside.Site
