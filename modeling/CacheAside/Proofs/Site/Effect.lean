import CacheAside.Site
import CacheAside.Proofs.Cache.Effect

/-! # What the answering of a request does

One equation for each part of it: its outcome and the world after it, from the outcome of the part inside. A request
is answered inside with its id in memory; around that the memory is only counted and written in. -/

namespace CacheAside.Site
set_option autoImplicit false

open Http (Request Response)

variable (s : Site)

/-! ## Memory -/

/-- The id of a request. -/
def idFor (r : Request) (m : Memory) : String := r.id.getD (m.spareId m.spareIdsUsed)

/-- The memory with the id of a request, a spare one used up if the request brought none. -/
def begunIn (r : Request) (m : Memory) : Memory :=
  { m with
    requestId := some (idFor r m)
    spareIdsUsed := if r.id.isNone then m.spareIdsUsed + 1 else m.spareIdsUsed }

def endedIn (m : Memory) : Memory := { m with requestId := none }

/-- The memory after a response: it is counted and written down. -/
def answeredIn (r : Request) (id : String) (status : ℕ) (m : Memory) : Memory :=
  let path := r.target.writtenPath
  Memory.noted ⟨s.name, .info, "HTTP request", [("method", .str r.method), ("path", .str path),
      ("status_code", .nat status), ("request_id", .str id)], none⟩
    { endedIn m with
      collector := m.collector.map (·.recordRequest r.method path (toString status) Memory.lapse) }

/-- The memory after a failure that was not handled. -/
def brokenIn (f : Failure) (m : Memory) : Memory :=
  { (endedIn m).noted ⟨s.name, .error, "Unhandled exception", [], some f⟩ with
    collector := m.collector.map (·.recordError "INTERNAL_ERROR" "") }

/-- The memory after a report: it is written down and counted. -/
def reportedIn (report : Report) (m : Memory) : Memory :=
  { m.noted ⟨s.name, .error, "Cache layer error",
      [("code", report.code), ("message", report.message), ("details", report.details)], none⟩ with
    collector := m.collector.map (·.recordError report.code.plain "") }

/-- The memory after health was asked for: it is counted by what was found. -/
def checkedIn (status : String) (m : Memory) : Memory :=
  { m with collector := m.collector.map (·.recordHealth status) }

@[simp] theorem uptime_checkedIn (status : String) (m : Memory) : (checkedIn status m).uptime = m.uptime := rfl

@[simp] theorem uptime_answeredIn (r : Request) (id : String) (status : ℕ) (m : Memory) :
    (s.answeredIn r id status m).uptime = m.uptime := rfl

/-! ## Health -/

def healthStatus (needs : List (String × Bool)) : String := if needs.all Prod.snd then "ok" else "degraded"

def healthAnswer (uptime : Float) (needs : List (String × Bool)) : Response :=
  .json 200 (.obj [("service", .str s.name), ("status", .str (healthStatus needs)), ("uptime_seconds", .float uptime),
    ("dependencies", .obj (needs.map fun need => (need.1, .str (if need.2 then "ok" else "error")))),
    ("version", .str version), ("commit", .str (s.commit.getD "unknown"))])

theorem run_health (w : World) :
    s.health.run w = match s.dependencies.run w with
      | (.ok needs, w) =>
        (.ok (s.healthAnswer w.memory.uptime needs), w.withMemory (checkedIn (healthStatus needs)))
      | (.error f, w) => (.error f, w) := by
  rw [health, Op.run_bind]
  rcases s.dependencies.run w with ⟨r, w₁⟩
  cases r <;> rfl

/-! ## Data -/

theorem run_asking (provider : String) (read : Op Payload) (w : World) :
    (s.asking provider read).run w = match read.run w with
      | (.ok p, w) => (.ok p, w)
      | (.error f, w) =>
        if f.isContained then
          match f.report? with
          | some _ => (.error f, w)
          | none => (.error (.reported (.ofProvider provider f.text)), w.withMemory (Memory.noted
              ⟨s.name, .error, "Provider call failed", [("provider", .str provider)], some f⟩))
        else (.error f, w) := by
  rw [asking, Op.run_contain]
  rcases read.run w with ⟨r, w₁⟩
  cases r with
  | ok p => rfl
  | error f =>
    simp only
    cases f.isContained with
    | false => rfl
    | true => cases f.report? <;> rfl

theorem run_delivering (shape : Http.Shape) (read : Op Payload) (w : World) :
    (delivering shape read).run w = match read.run w with
      | (.ok p, w) =>
        (if shape.describes p.toJson = false then .error .misshapen
          else if shape.holds p.toJson = false then .error .answerTooDeep
          else .ok (.json 200 (Http.finite p.toJson)), w)
      | (.error f, w) => (.error f, w) := by
  rw [delivering, Op.run_bind]
  rcases read.run w with ⟨r, w₁⟩
  cases r with
  | error f => rfl
  | ok p =>
    simp only
    cases shape.describes p.toJson with
    | false => rfl
    | true => cases shape.holds p.toJson <;> rfl

/-! ## Requests -/

/-- The answer that tells a report under the id of the request, or why it cannot be told. -/
def told (report : Report) (id : Option String) : Except Failure Response :=
  if (report.faults (Json.ofOption .str id)).isEmpty = false then
    .error (.illFitting (report.faults (Json.ofOption .str id)))
  else if Http.isFinite (report.body (Json.ofOption .str id)) = false then .error .notFinite
  else .ok (.json report.status (report.body (Json.ofOption .str id)))

theorem run_answerReport (report : Report) (w : World) :
    (s.answerReport report).run w = (told report w.memory.requestId, w.withMemory (s.reportedIn report)) := by
  have hnoted : (s.answerReport report).run w =
      (do
        unless (report.faults (Json.ofOption .str w.memory.requestId)).isEmpty do
          throw (.illFitting (report.faults (Json.ofOption .str w.memory.requestId)))
        if Http.isFinite (report.body (Json.ofOption .str w.memory.requestId)) then
          return .json report.status (report.body (Json.ofOption .str w.memory.requestId))
        else throw .notFinite : Op Response).run (w.withMemory (s.reportedIn report)) := rfl
  rw [hnoted, told]
  cases (report.faults (Json.ofOption .str w.memory.requestId)).isEmpty with
  | false => rfl
  | true => cases Http.isFinite (report.body (Json.ofOption .str w.memory.requestId)) <;> rfl

theorem run_answerInside (r : Request) (w : World) :
    (s.answerInside r).run w = match (s.serve r).run w with
      | (.ok response, w) => (.ok response, w)
      | (.error (.cancelled _), w) => (.error .noResponse, w)
      | (.error f, w) =>
        match f.report? with
        | some report => (s.answerReport report).run w
        | none => (.error f, w) := by
  rw [answerInside, Op.run_tryCatch]
  rcases (s.serve r).run w with ⟨outcome, w₁⟩
  cases outcome with
  | ok response => rfl
  | error f => cases f <;> rfl

theorem run_idOf (r : Request) (w : World) :
    (idOf r).run w = (.ok (idFor r w.memory), w.withMemory fun m =>
      { m with spareIdsUsed := if r.id.isNone then m.spareIdsUsed + 1 else m.spareIdsUsed }) := by
  rw [idOf, idFor]
  cases r.id <;> rfl

theorem run_under {α : Type} (id : String) (body : Op α) (w : World) :
    (under id body).run w =
      let p := body.run (w.withMemory fun m => { m with requestId := some id })
      (p.1, p.2.withMemory endedIn) := by
  rw [under, Op.run_bind, Op.run_modify]
  change (Op.outcome body >>= _).run (w.withMemory fun m => { m with requestId := some id }) = _
  rw [Op.run_bind, Op.run_outcome]
  exact Op.run_conclude _ _

theorem run_answerCounted (r : Request) (w : World) :
    (s.answerCounted r).run w = match (s.answerInside r).run (w.withMemory (begunIn r)) with
      | (.ok response, w₁) => (.ok { response with id := some (idFor r w.memory) },
          w₁.withMemory (s.answeredIn r (idFor r w.memory) response.status))
      | (.error f, w₁) => (.error f, w₁.withMemory endedIn) := by
  have hbegun : (w.withMemory fun m => { m with
        spareIdsUsed := if r.id.isNone then m.spareIdsUsed + 1 else m.spareIdsUsed }).withMemory
      (fun m => { m with requestId := some (idFor r w.memory) }) = w.withMemory (begunIn r) := rfl
  rw [answerCounted, Op.run_bind, run_idOf]
  simp only
  rw [Op.run_bind, run_under, hbegun]
  rcases (s.answerInside r).run (w.withMemory (begunIn r)) with ⟨outcome, w₁⟩
  cases outcome <;> rfl

theorem run_answer (r : Request) (w : World) :
    (s.answer r).run w = match (s.answerInside r).run (w.withMemory (begunIn r)) with
      | (.ok response, w₁) => (.ok { response with id := some (idFor r w.memory) },
          w₁.withMemory (s.answeredIn r (idFor r w.memory) response.status))
      | (.error f, w₁) =>
        if f.isContained then (.ok (internalError f), w₁.withMemory (s.brokenIn f))
        else (.error f, w₁.withMemory endedIn) := by
  rw [answer, Op.run_contain, run_answerCounted]
  rcases (s.answerInside r).run (w.withMemory (begunIn r)) with ⟨outcome, w₁⟩
  cases outcome <;> rfl

/-- Inside, a request is answered with what was served or with a report, or fails; a cancellation fails too. -/
theorem answerInside_cases (r : Request) (w : World) :
    (∃ response w₁, (s.serve r).run w = (.ok response, w₁) ∧ (s.answerInside r).run w = (.ok response, w₁)) ∨
    (∃ f report w₁, (s.serve r).run w = (.error f, w₁) ∧ f.report? = some report ∧
      (s.answerInside r).run w = (told report w₁.memory.requestId, w₁.withMemory (s.reportedIn report))) ∨
    ∃ f w₁, (s.serve r).run w = (.error f, w₁) ∧ f.report? = none ∧
      (s.answerInside r).run w = (.error (if f.isContained then f else .noResponse), w₁) := by
  rw [run_answerInside]
  rcases (s.serve r).run w with ⟨outcome, w₁⟩
  cases outcome with
  | ok response => exact .inl ⟨response, w₁, rfl, rfl⟩
  | error f =>
    refine .inr ?_
    cases f with
    | reported report => exact .inl ⟨_, report, w₁, rfl, rfl, s.run_answerReport report w₁⟩
    | refused refusal => exact .inl ⟨_, refusal.report, w₁, rfl, rfl, s.run_answerReport refusal.report w₁⟩
    | _ => exact .inr ⟨_, w₁, rfl, rfl, rfl⟩

theorem isContained_of_told {report : Report} {id : Option String} {f : Failure} (h : told report id = .error f) :
    f.isContained = true := by
  rw [told] at h
  split at h
  · cases h
    rfl
  · split at h <;> cases h
    rfl

theorem isContained_of_answerInside {r : Request} {w w₁ : World} {f : Failure}
    (h : (s.answerInside r).run w = (.error f, w₁)) : f.isContained = true := by
  obtain ⟨response, w₂, -, hrun⟩ | ⟨f', report, w₂, -, -, hrun⟩ | ⟨f', w₂, -, -, hrun⟩ := s.answerInside_cases r w
  · cases hrun.symm.trans h
  · exact isContained_of_told (Prod.mk.inj (hrun.symm.trans h)).1
  · cases hrun.symm.trans h
    split
    · assumption
    · rfl

/-- A request is answered with what was found inside, or with an internal error where that failed. -/
theorem answer_cases (r : Request) (w : World) :
    (∃ response w₁, (s.answerInside r).run (w.withMemory (begunIn r)) = (.ok response, w₁) ∧
      (s.answer r).run w = (.ok { response with id := some (idFor r w.memory) },
        w₁.withMemory (s.answeredIn r (idFor r w.memory) response.status))) ∨
    ∃ f w₁, (s.answerInside r).run (w.withMemory (begunIn r)) = (.error f, w₁) ∧
      (s.answer r).run w = (.ok (internalError f), w₁.withMemory (s.brokenIn f)) := by
  rcases hrun : (s.answerInside r).run (w.withMemory (begunIn r)) with ⟨outcome, w₁⟩
  cases outcome with
  | ok response =>
    refine .inl ⟨response, w₁, rfl, ?_⟩
    rw [run_answer, hrun]
  | error f =>
    refine .inr ⟨f, w₁, rfl, ?_⟩
    rw [run_answer, hrun]
    simp only [s.isContained_of_answerInside hrun, if_true]

end CacheAside.Site
