import CacheAside.Proofs.Site.Accounting

/-! # The service while the store is out of order

What a check of the store fails with decides what becomes of a start and of a request for health. What the client
reports is contained: the service starts, and health is answered as degraded. Every other failure passes through the
store as it is, ends the start, and leaves health unanswered but for an internal error (`Site.outage_contained`). -/

namespace CacheAside
set_option autoImplicit false

open Http (Request Response)

/-- Whether the client reports this failure, as one of the server or the connection to it. -/
def Failure.IsOfClient (f : Failure) : Prop := ∃ fault text, f = .client fault text

def Http.Request.AsksForHealth (req : Request) : Prop := req.method = "GET" ∧ req.target.path = "/health".toList

/-! ## Checks of the store -/

namespace Store

/-- What a call to the client fails with, be it when the client is opened or in the command itself. -/
def callFailure? (c : Command) (w : World) : Option Failure :=
  if w.memory.connected then w.network.failure w.history c
  else (w.network.failure w.history (.open w.memory.endpoint)).or
    (w.network.failure (⟨none, .open w.memory.endpoint, none⟩ :: w.history) c)

theorem fst_answer_of_failure {c : Command} {w : World} {f : Failure} (client : Option ℕ)
    (h : w.network.failure w.history c = some f) : (w.answer client c).1 = .error f := by
  rw [World.answer_fst, h]

theorem fst_send_of_failure {c : Command} {w : World} {f : Failure} (h : callFailure? c w = some f) :
    ((send c).run w).1 = .error f := by
  rw [callFailure?, Memory.connected] at h
  rw [run_send]
  cases hheld : w.memory.clients.held with
  | some n =>
    rw [hheld, Option.isSome_some, if_pos rfl] at h
    exact fst_answer_of_failure n h
  | none =>
    rw [hheld, Option.isSome_none, if_neg Bool.false_ne_true] at h
    -- Without a client the call is sent only after one has been opened, and either step may be the one that fails.
    cases hopening : w.network.failure w.history (.open w.memory.endpoint) with
    | some f' =>
      rw [hopening] at h
      cases h
      rw [World.answer, hopening]
    | none =>
      rw [hopening] at h
      rw [World.answer, hopening]
      exact fst_answer_of_failure _ h

theorem fst_isHealthy_of_failure {w : World} {f : Failure} (h : callFailure? .ping w = some f) :
    (f.IsOfClient → (isHealthy.run w).1 = .ok false) ∧ (¬ f.IsOfClient → (isHealthy.run w).1 = .error f) := by
  have hsend := fst_send_of_failure h
  rw [isHealthy, Op.run_tryCatch, Op.run_bind]
  rcases hrun : (send .ping).run w with ⟨r, w₁⟩
  rw [hrun] at hsend
  cases hsend
  constructor
  · rintro ⟨fault, text, rfl⟩
    rfl
  · intro hother
    cases f with
    | client fault text => exact absurd ⟨fault, text, rfl⟩ hother
    | _ => rfl

theorem fst_start_of_failure {w : World} {f : Failure} (h : callFailure? .ping w = some f) :
    (start.run w).1 = .error (asReport "start" [] f) := by
  have hsend := fst_send_of_failure h
  rw [start, run_reporting, Op.run_tryCatch, Op.run_bind]
  rcases hrun : (send .ping).run w with ⟨r, w₁⟩
  rw [hrun] at hsend
  cases hsend
  cases f <;> rfl

end Store

namespace Site
variable {s : Site} {w : World} {past rest : History} {e : Event Act (Option Response)} {f : Failure} {req : Request}

/-! ## Starts -/

theorem fst_start_of_failure (h : Store.callFailure? .ping w = some f) :
    (f.IsOfClient → (s.start.run w).1 = .ok ()) ∧
      (¬ f.IsOfClient → f.report? = none → (s.start.run w).1 = .error f) := by
  have hstore := Store.fst_start_of_failure h
  rw [start, Op.run_bind, Op.run_tryCatch]
  rcases hrun : Store.start.run w with ⟨r, w₁⟩
  rw [hrun] at hstore
  replace hstore : r = .error (Store.asReport "start" [] f) := hstore
  subst hstore
  constructor
  · rintro ⟨fault, text, rfl⟩
    rfl
  · intro hother hreport
    cases f with
    | client fault text => exact absurd ⟨fault, text, rfl⟩ hother
    | reported report => cases hreport
    | _ => rfl

/-! ## Requests for health -/

theorem serve_of_asksForHealth (h : req.AsksForHealth) : s.serve req = s.health := by
  have hplace : Http.destination s.features "/health".toList = .route .health := rfl
  rw [serve, h.2, hplace, h.1]
  rfl

/-- What is answered about the health of a site whose store is out of order, so many seconds after it was made. -/
def degraded (s : Site) (uptime : Float) : Json :=
  .obj [("service", .str s.name), ("status", .str "degraded"), ("uptime_seconds", .float uptime),
    ("dependencies", .obj [("redis", .str "error")]), ("version", .str version),
    ("commit", .str (s.commit.getD "unknown"))]

theorem body_healthAnswer (uptime : Float) :
    (s.healthAnswer uptime [("redis", false)]).body = .json (s.degraded uptime) := rfl

theorem run_dependencies (hcache : s.features.cache = true) (w : World) :
    s.dependencies.run w =
      ((Store.isHealthy.run w).1.map fun there => [("redis", there)], (Store.isHealthy.run w).2) := by
  rw [dependencies, hcache, if_pos rfl, Op.run_bind]
  rcases Store.isHealthy.run w with ⟨r, w₁⟩
  cases r <;> rfl

/-- What the client reports about the store is answered, and is counted as degraded health along with the request. -/
theorem answer_degraded (hcache : s.features.cache = true) (hasks : req.AsksForHealth)
    (hfails : Store.callFailure? .ping w = some f) (hf : f.IsOfClient) :
    ∃ response w', (s.answer req).run w = (.ok response, w') ∧ response.status = 200 ∧
      response.body = .json (s.degraded w'.memory.uptime) ∧ w'.memory.ledger = ((w.memory.ledger.begun req).post
        [⟨.health, ["degraded"]⟩, ⟨.requests, [req.method, req.target.writtenPath, toString 200]⟩]).ended := by
  have hneeds := run_dependencies hcache (w.withMemory (begunIn req))
  have hleaves := s.leaves_dependencies (w.withMemory (begunIn req))
  rw [(Store.fst_isHealthy_of_failure (w := w.withMemory (begunIn req)) hfails).1 hf] at hneeds
  rw [hneeds] at hleaves
  generalize (Store.isHealthy.run (w.withMemory (begunIn req))).2 = w₁ at hneeds hleaves
  have hinside : (s.answerInside req).run (w.withMemory (begunIn req)) =
      (.ok (s.healthAnswer w₁.memory.uptime [("redis", false)]), w₁.withMemory (checkedIn "degraded")) := by
    rw [run_answerInside, serve_of_asksForHealth hasks, run_health, hneeds]
    rfl
  have hanswer : (s.answer req).run w =
      (.ok { s.healthAnswer w₁.memory.uptime [("redis", false)] with id := some (idFor req w.memory) },
        (w₁.withMemory (checkedIn "degraded")).withMemory (s.answeredIn req (idFor req w.memory) 200)) := by
    rw [run_answer, hinside]
    rfl
  refine ⟨_, _, hanswer, rfl, ?_, ?_⟩
  · change (s.healthAnswer w₁.memory.uptime [("redis", false)]).body =
      .json (s.degraded (s.answeredIn req _ _ (checkedIn _ w₁.memory)).uptime)
    rw [uptime_answeredIn, uptime_checkedIn, body_healthAnswer]
  refine (s.ledger_answeredIn req _ _ _).trans ?_
  rw [show (w₁.withMemory (checkedIn "degraded")).memory.ledger = _ from
    (ledger_checkedIn "degraded" _).trans (congrArg (Ledger.enter · _) hleaves)]
  rfl

/-- A failure while a request is served that is no report is answered as an internal error and counted as one. -/
theorem answer_of_unreported {w₁ : World} (hserve : (s.serve req).run (w.withMemory (begunIn req)) = (.error f, w₁))
    (hledger : w₁.memory.ledger = w.memory.ledger.begun req) (hcontained : f.isContained = true)
    (hreport : f.report? = none) :
    ∃ w', (s.answer req).run w = (.ok (internalError f), w') ∧ w'.memory.ledger =
      ((w.memory.ledger.begun req).post [⟨.errors, ["INTERNAL_ERROR", w.memory.ledger.service]⟩]).ended := by
  have hinside : (s.answerInside req).run (w.withMemory (begunIn req)) = (.error f, w₁) := by
    obtain ⟨response, w₂, hserve', -⟩ | ⟨f', report, w₂, hserve', hreport', -⟩ | ⟨f', w₂, hserve', -, hrun⟩ :=
      s.answerInside_cases req (w.withMemory (begunIn req))
    · cases hserve.symm.trans hserve'
    · cases hserve.symm.trans hserve'
      cases hreport.symm.trans hreport'
    · cases hserve.symm.trans hserve'
      rw [hrun, if_pos hcontained]
  have hanswer : (s.answer req).run w = (.ok (internalError f), w₁.withMemory (s.brokenIn f)) := by
    rw [run_answer, hinside]
    simp only [hcontained, if_true]
  refine ⟨_, hanswer, (s.ledger_brokenIn f w₁.memory).trans ?_⟩
  rw [hledger]
  rfl

theorem answer_unhealthy (hcache : s.features.cache = true) (hasks : req.AsksForHealth)
    (hfails : Store.callFailure? .ping w = some f) (hf : ¬ f.IsOfClient) (hcontained : f.isContained = true)
    (hreport : f.report? = none) :
    ∃ w', (s.answer req).run w = (.ok (internalError f), w') ∧ w'.memory.ledger =
      ((w.memory.ledger.begun req).post [⟨.errors, ["INTERNAL_ERROR", w.memory.ledger.service]⟩]).ended := by
  have hneeds := run_dependencies hcache (w.withMemory (begunIn req))
  have hleaves := s.leaves_dependencies (w.withMemory (begunIn req))
  rw [(Store.fst_isHealthy_of_failure (w := w.withMemory (begunIn req)) hfails).2 hf] at hneeds
  rw [hneeds] at hleaves
  have hserve : (s.serve req).run (w.withMemory (begunIn req)) =
      (.error f, (Store.isHealthy.run (w.withMemory (begunIn req))).2) := by
    rw [serve_of_asksForHealth hasks, run_health, hneeds]
    rfl
  exact answer_of_unreported hserve hleaves hcontained hreport

/-! ## Runs -/

/-- While the client reports that the store cannot be reached, wherever in its life the client stands, the service
starts, and a request for health is answered as degraded and counted so once. While a check of the store fails in
another way, this failure ends a start, and a request for health is answered as an internal error and counted as no
health at all. -/
theorem outage_contained {acts : List Act} (hcache : s.features.cache = true) (hopen : w.memory.ledger.IsOpen)
    (hrun : record (Act.op s) acts w = past ++ e :: rest) (hfails : Store.callFailure? .ping e.before = some f) :
    (f.IsOfClient →
      (e.deed = .start → e.outcome = .ok none) ∧
      ∀ req, e.deed = .request req → req.AsksForHealth →
        ∃ response, e.outcome = .ok (some response) ∧ response.status = 200 ∧
          response.body = .json (s.degraded e.after.memory.uptime) ∧
          ∀ labels, e.after.memory.counted .health labels =
            e.before.memory.counted .health labels + if labels = ["degraded"] then 1 else 0) ∧
    (¬ f.IsOfClient → f.isContained = true → f.report? = none →
      (e.deed = .start → e.outcome = .error f) ∧
      ∀ req, e.deed = .request req → req.AsksForHealth →
        e.outcome = .ok (some (internalError f)) ∧
          ∀ labels, e.after.memory.counted .health labels = e.before.memory.counted .health labels) := by
  obtain ⟨hpast, hperforms⟩ := continues_of_record hopen hrun
  obtain ⟨hstarts, hbreaks⟩ := fst_start_of_failure (s := s) hfails
  have hstart : e.deed = .start → ∀ r, (s.start.run e.before).1 = r → e.outcome = r.map fun _ => none := by
    rintro hdeed r rfl
    have hafter : (((Act.start).op s).run e.before) = (e.outcome, e.after) := hdeed ▸ hperforms
    rw [Act.op, Op.run_bind] at hafter
    rw [← (Prod.mk.inj hafter).1]
    rcases s.start.run e.before with ⟨r, w₁⟩
    cases r <;> rfl
  refine ⟨fun hf => ⟨fun hdeed => hstart hdeed _ (hstarts hf), fun req hdeed hasks => ?_⟩,
    fun hf hcontained hreport => ⟨fun hdeed => hstart hdeed _ (hbreaks hf hreport), fun req hdeed hasks => ?_⟩⟩
  · obtain ⟨response, w', hanswer, hstatus, hbody, hledger⟩ := answer_degraded hcache hasks hfails hf
    obtain ⟨houtcome, rfl⟩ := answered_of_performs hperforms hdeed hanswer
    exact ⟨response, houtcome, hstatus, hbody, counted_beside_request hpast.isOpen Account.noConfusion hledger⟩
  · obtain ⟨w', hanswer, hledger⟩ := answer_unhealthy hcache hasks hfails hf hcontained hreport
    obtain ⟨houtcome, rfl⟩ := answered_of_performs hperforms hdeed hanswer
    refine ⟨houtcome, fun labels => ?_⟩
    rw [counted_of_posted hpast.isOpen hledger, Posting.count_singleton_of_ne Account.noConfusion, Nat.add_zero]

/-- A service whose checks of the store fail. -/
def servingUnchecked (f : Failure) : World :=
  { serving [] with network := ⟨fun _ c => match c with | .ping => some f | _ => none, fun _ _ => 0⟩ }

def healthRequest : Request := ⟨"GET", "localhost", .parse "/health", none⟩

/-- Health stays degraded over a stop that closes the client. -/
theorem outage_contained_reset : ∃ past e response,
    record (Act.op plain) [.start, .request healthRequest, .stop, .request healthRequest]
      (servingUnchecked (.client .connection "reset")) = past ++ e :: [] ∧
      (past.map Event.outcome).head? = some (.ok none) ∧
      e.outcome = .ok (some response) ∧ response.status = 200 ∧
      response.body = .json (plain.degraded e.after.memory.uptime) ∧
      e.after.memory.counted .health ["degraded"] = 2 := by
  have hrun : record (Act.op plain) [.start, .request healthRequest, .stop, .request healthRequest]
    (servingUnchecked (.client .connection "reset")) = [_, _, _] ++ _ :: [] := rfl
  have hopen : (servingUnchecked (.client .connection "reset")).memory.ledger.IsOpen := isOpen_serving []
  obtain ⟨hcontained, -⟩ := outage_contained rfl hopen hrun rfl
  obtain ⟨-, hhealth⟩ := hcontained ⟨_, _, rfl⟩
  obtain ⟨response, houtcome, hstatus, hbody, hcount⟩ := hhealth healthRequest rfl ⟨rfl, by decide⟩
  refine ⟨_, _, response, hrun, rfl, houtcome, hstatus, hbody, ?_⟩
  rw [hcount]
  rfl

/-- A failure of the system below the client ends the start, and leaves health unanswered and uncounted. -/
theorem outage_uncontained : ∃ e e' response,
    record (Act.op plain) [.start, .request healthRequest] (servingUnchecked (.fault .system "boom")) = [e, e'] ∧
      Store.callFailure? .ping e.before = some (.fault .system "boom") ∧
      Store.callFailure? .ping e'.before = some (.fault .system "boom") ∧
      e.outcome = .error (.fault .system "boom") ∧ e'.outcome = .ok (some response) ∧ response.status = 500 ∧
      ∀ labels, e'.after.memory.counted .health labels = 0 :=
  ⟨_, _, _, rfl, rfl, rfl, rfl, rfl, rfl, fun _ => rfl⟩

end Site
end CacheAside
