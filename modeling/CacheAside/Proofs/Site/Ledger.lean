import CacheAside.Proofs.Cache.Counting
import CacheAside.Proofs.Resource.Aside
import CacheAside.Proofs.Site.Effect

/-! # The ledger

The counters of requests, of checks of health and of errors, and the ids of requests. Answering a request makes
entries in the ledger and does nothing else to it (`Site.ledger_answer`): what happens inside enters checks of health
and reports of errors, and at the end one request is entered, or else one error of the service itself. -/

namespace CacheAside
set_option autoImplicit false

open Http (Request Response Target Route)

/-! ## Accounts -/

/-- The counters that every service has. -/
inductive Account where
  | requests
  | health
  | errors
deriving DecidableEq, Repr

namespace Account

def family : Account → String
  | .requests => "http_requests_total"
  | .health => "health_check_total"
  | .errors => "errors_total"

theorem family_injective {a b : Account} (h : a.family = b.family) : a = b := by
  revert h
  cases a <;> cases b <;> decide

theorem family_ne_of_mem_cacheFamilies (a : Account) {name : String} (h : name ∈ Rows.keys Collector.cacheFamilies) :
    a.family ≠ name := by
  revert name
  cases a <;> decide

end Account

/-- One count of an account, under the values of its labels. -/
structure Posting where
  account : Account
  values : List String
deriving DecidableEq

theorem Posting.count_eq_zero {a : Account} {ps : List Posting} (h : ∀ p ∈ ps, p.account ≠ a) (labels : List String) :
    ps.count ⟨a, labels⟩ = 0 :=
  List.count_eq_zero.2 fun hmem => h _ hmem rfl

theorem Posting.count_singleton_of_ne {a : Account} {p : Posting} (h : p.account ≠ a) (labels : List String) :
    [p].count ⟨a, labels⟩ = 0 :=
  Posting.count_eq_zero (fun q hq => by rwa [List.mem_singleton.1 hq]) labels

theorem Posting.count_singleton (a : Account) (values labels : List String) :
    [(⟨a, values⟩ : Posting)].count ⟨a, labels⟩ = if labels = values then 1 else 0 := by
  by_cases h : labels = values
  · rw [h, List.count_singleton_self, if_pos rfl]
  · have hne : (⟨a, labels⟩ : Posting) ∉ [⟨a, values⟩] := fun hmem => h (Posting.mk.inj (List.mem_singleton.1 hmem)).2
    rw [List.count_eq_zero.2 hne, if_neg h]

structure Ledger where
  /-- The service whose errors are counted. -/
  service : String
  family : Account → Option Family
  requestId : Option String
  spareId : ℕ → String
  spareIdsUsed : ℕ

namespace Ledger

def count (l : Ledger) (a : Account) (values : List String) : ℕ := ((l.family a).map (·.count values)).getD 0

/-- Whether there is a counter for every account. -/
def IsOpen (l : Ledger) : Prop := ∀ a, ∃ f, l.family a = some f ∧ f.IsCounter

def enter (l : Ledger) (p : Posting) : Ledger :=
  { l with family := fun a => if a = p.account then (l.family a).map (·.bump p.values) else l.family a }

def post (l : Ledger) (ps : List Posting) : Ledger := ps.foldl enter l

theorem post_concat (l : Ledger) (ps : List Posting) (p : Posting) : l.post (ps ++ [p]) = (l.post ps).enter p :=
  List.foldl_append

/-- Entries change nothing but the counters. -/
theorem exists_post (l : Ledger) (ps : List Posting) : ∃ family, l.post ps = { l with family } := by
  induction ps generalizing l with
  | nil => exact ⟨_, rfl⟩
  | cons p ps ih => exact ih (l.enter p)

theorem isOpen_enter {l : Ledger} (h : l.IsOpen) (p : Posting) : (l.enter p).IsOpen := by
  intro a
  obtain ⟨f, hf, hcounter⟩ := h a
  by_cases ha : a = p.account
  · exact ⟨f.bump p.values, by simp [enter, ha ▸ hf, ha], hcounter.bump p.values⟩
  · exact ⟨f, by simp [enter, ha, hf], hcounter⟩

theorem isOpen_post {l : Ledger} (h : l.IsOpen) (ps : List Posting) : (l.post ps).IsOpen := by
  induction ps generalizing l with
  | nil => exact h
  | cons p ps ih => exact ih (isOpen_enter h p)

theorem count_enter {l : Ledger} (h : l.IsOpen) (p : Posting) (a : Account) (values : List String) :
    (l.enter p).count a values = l.count a values + if p = ⟨a, values⟩ then 1 else 0 := by
  obtain ⟨f, hf, hcounter⟩ := h a
  obtain ⟨account, values'⟩ := p
  by_cases ha : a = account
  · subst ha
    have hbump := Family.count_bump hcounter values' values
    simpa [count, enter, hf, eq_comm] using hbump
  · have hne : account ≠ a := fun h => ha h.symm
    simp [count, enter, ha, hne]

theorem count_post {l : Ledger} (h : l.IsOpen) (ps : List Posting) (a : Account) (values : List String) :
    (l.post ps).count a values = l.count a values + ps.count ⟨a, values⟩ := by
  induction ps generalizing l with
  | nil => rfl
  | cons p ps ih =>
    have hps := ih (isOpen_enter h p)
    rw [count_enter h] at hps
    rw [List.count_cons, beq_eq_decide]
    simp only [decide_eq_true_eq]
    rw [post, List.foldl_cons, ← post, hps]
    omega

/-- The ledger while a request is answered. -/
def begun (r : Request) (l : Ledger) : Ledger :=
  { l with
    requestId := some (r.id.getD (l.spareId l.spareIdsUsed))
    spareIdsUsed := if r.id.isNone then l.spareIdsUsed + 1 else l.spareIdsUsed }

def ended (l : Ledger) : Ledger := { l with requestId := none }

end Ledger

/-! ## The ledger of a memory -/

namespace Memory

def ledger (m : Memory) : Ledger where
  service := (m.collector.map (·.service.plain)).getD ""
  family a := m.collector.bind (·.families.find? a.family)
  requestId := m.requestId
  spareId := m.spareId
  spareIdsUsed := m.spareIdsUsed

/-- How often an account was counted under these labels. -/
def counted (m : Memory) (a : Account) (values : List String) : ℕ :=
  (m.collector.map (·.count a.family values)).getD 0

theorem counted_eq (m : Memory) (a : Account) (values : List String) :
    m.counted a values = m.ledger.count a values := by
  rw [counted, Ledger.count, ledger]
  cases m.collector with
  | none => rfl
  | some c =>
    change ((c.families.find? a.family).bind fun f => f.series.count? values).getD 0 =
      ((c.families.find? a.family).map (·.count values)).getD 0
    cases c.families.find? a.family <;> rfl

theorem service_change (c : Option Collector) (name : String) (f : Series → Series) :
    (c.map (·.change name f)).map (·.service.plain) = c.map (·.service.plain) := by
  cases c with
  | none => rfl
  | some c => exact congrArg (some ·.plain) (c.service_change name f)

/-- What is counted in other families is not in the ledger. -/
theorem ledger_change {name : String} (hname : ∀ a : Account, a.family ≠ name) (m : Memory) (f : Series → Series) :
    Memory.ledger { m with collector := m.collector.map (·.change name f) } = m.ledger := by
  have hfamily : (fun a : Account => (m.collector.map (·.change name f)).bind (·.families.find? a.family)) =
      fun a => m.collector.bind (·.families.find? a.family) := by
    funext a
    rw [Collector.bind_find?_change, if_neg (hname a)]
  rw [ledger, ledger, service_change, hfamily]

theorem ledger_bump (m : Memory) (a : Account) (values : List String) :
    Memory.ledger { m with collector := m.collector.map (·.bump a.family values) } = m.ledger.enter ⟨a, values⟩ := by
  have hfamily : (fun b : Account => (m.collector.map (·.bump a.family values)).bind (·.families.find? b.family)) =
      (m.ledger.enter ⟨a, values⟩).family := by
    funext b
    refine (Collector.bind_find?_change m.collector a.family (Series.bump values) b.family).trans ?_
    by_cases hb : b = a
    · subst hb
      rw [if_pos rfl, Ledger.enter]
      simp only [if_true]
      rfl
    · rw [if_neg fun h => hb (Account.family_injective h), Ledger.enter]
      simp only [hb, if_false]
      rfl
  rw [ledger, hfamily]
  exact congrArg (fun service => { m.ledger.enter ⟨a, values⟩ with service }) (congrArg (Option.getD · "")
    (service_change m.collector a.family (Series.bump values)))

theorem ledger_recordError (m : Memory) (code : String) :
    Memory.ledger { m with collector := m.collector.map (·.recordError code "") } =
      m.ledger.enter ⟨.errors, [code, m.ledger.service]⟩ := by
  have hbump : m.collector.map (·.recordError code "") =
      m.collector.map (·.bump Account.errors.family [code, m.ledger.service]) := by
    rw [ledger]
    cases m.collector <;> rfl
  rw [hbump]
  exact ledger_bump m .errors [code, m.ledger.service]

theorem ledger_recordRequest (m : Memory) (method path status : String) :
    Memory.ledger { m with collector := m.collector.map (·.recordRequest method path status Memory.lapse) } =
      m.ledger.enter ⟨.requests, [method, path, status]⟩ := by
  have hother : ∀ a : Account, a.family ≠ Collector.durationFamily := by
    intro a
    cases a <;> decide
  have hmap : m.collector.map (·.recordRequest method path status Memory.lapse) =
      (m.collector.map (·.bump Account.requests.family [method, path, status])).map
        (·.change Collector.durationFamily (Series.observe [method, path] Memory.lapse)) := by
    rw [Option.map_map]
    rfl
  rw [hmap]
  exact (ledger_change hother { m with collector := m.collector.map (·.bump Account.requests.family
    [method, path, status]) } _).trans (ledger_bump m .requests [method, path, status])

/-- No read makes an entry. -/
theorem aside_ledger : Memory.Aside Memory.ledger where
  clients _ _ := rfl
  journal _ _ := rfl
  tally _ _ := rfl
  fetches _ _ := rfl
  fetched _ _ := rfl
  draws _ _ := rfl
  counts m change _ hname := ledger_change (fun a => a.family_ne_of_mem_cacheFamilies hname) m change

/-- The ledger of a service that has counted nothing yet. -/
theorem isOpen_start {m : Memory} {service : String} (h : m.collector = some (Collector.start service)) :
    m.ledger.IsOpen ∧ m.ledger.service = service := by
  have hfind : ∀ a : Account, ∃ f, (Collector.start service).families.find? a.family = some f ∧ f.IsCounter := by
    intro a
    rw [Collector.start]
    by_cases hcache : service = "cache"
    · simp only [hcache, if_true]
      cases a <;> exact ⟨_, rfl, [], rfl⟩
    · simp only [hcache, if_false]
      cases a <;> exact ⟨_, rfl, [], rfl⟩
  rw [ledger, h]
  exact ⟨hfind, rfl⟩

end Memory

/-! ## Operations that make entries -/

/-- Makes entries in accounts of this kind, and does nothing else to the ledger. -/
def Op.Enters {α : Type} (kind : Account → Prop) (op : Op α) : Prop :=
  ∀ w : World, ∃ ps : List Posting, (∀ p ∈ ps, kind p.account) ∧
    (op.run w).2.memory.ledger = w.memory.ledger.post ps

theorem Op.Leaves.enters {α : Type} {kind : Account → Prop} {op : Op α} (h : op.Leaves Memory.ledger) :
    op.Enters kind := fun w => ⟨[], fun _ hp => (List.not_mem_nil hp).elim, h w⟩

/-! ## Responses found inside -/

/-- Ends in nothing but values like these, wherever it ends in a value. -/
def Op.Yields {α : Type} (R : α → Prop) (op : Op α) : Prop := ∀ w a w', op.run w = (.ok a, w') → R a

namespace Op.Yields
variable {α β : Type} {R : α → Prop}

theorem pure {a : α} (h : R a) : (Pure.pure a : Op α).Yields R := by
  intro w a' w' hrun
  cases hrun
  exact h

theorem throw (f : Failure) : (MonadExcept.throw f : Op α).Yields R := by
  intro w a w' hrun
  cases hrun

theorem bind {op : Op β} {f : β → Op α} (h : ∀ b, (f b).Yields R) : (op >>= f).Yields R := by
  intro w a w' hrun
  rw [Op.run_bind] at hrun
  rcases hop : op.run w with ⟨r, w₁⟩
  rw [hop] at hrun
  cases r with
  | ok b => exact h b w₁ a w' hrun
  | error e => cases hrun

end Op.Yields

namespace Site
variable (s : Site)

/-- No failure goes on after a response that a route answers. -/
def Unbroken (response : Response) : Prop := response.raised = none

theorem yields_delivering (shape : Http.Shape) (read : Op Payload) : (delivering shape read).Yields Unbroken := by
  refine Op.Yields.bind fun p => ?_
  simp only
  split
  · exact Op.Yields.throw _
  · split
    · exact Op.Yields.throw _
    · exact Op.Yields.pure rfl

theorem yields_respond (t : Target) (route : Route) : (s.respond t route).Yields Unbroken := by
  cases route with
  | health => exact Op.Yields.bind fun needs => Op.Yields.bind fun _ => Op.Yields.bind fun m => Op.Yields.pure rfl
  | metrics => exact Op.Yields.bind fun m => Op.Yields.pure rfl
  | docs => exact Op.Yields.pure rfl
  | description => exact Op.Yields.pure rfl
  | root => exact Op.Yields.pure rfl
  | snapshot asset => exact yields_delivering _ _
  | extended asset => exact yields_delivering _ _
  | news => exact yields_delivering _ _
  | trending => exact yields_delivering _ _
  | cacheMetrics => exact Op.Yields.bind fun metrics => Op.Yields.pure rfl
  | cacheInfo =>
    refine Op.Yields.bind fun server => Op.Yields.bind fun metrics => Op.Yields.bind fun config => ?_
    exact Op.Yields.bind fun m => Op.Yields.pure rfl

theorem yields_serve (r : Request) : (s.serve r).Yields Unbroken := by
  rw [serve]
  split
  · split
    · exact s.yields_respond _ _
    · exact Op.Yields.pure rfl
  · exact Op.Yields.pure rfl
  · exact Op.Yields.pure rfl

theorem unbroken_of_told {report : Report} {id : Option String} {response : Response}
    (h : told report id = .ok response) : Unbroken response := by
  rw [told] at h
  split at h
  · cases h
  · split at h <;> cases h
    rfl

theorem yields_answerInside (r : Request) : (s.answerInside r).Yields Unbroken := by
  intro w response w' h
  obtain ⟨found, w₁, hserve, hrun⟩ | ⟨f, report, w₁, -, -, hrun⟩ | ⟨f, w₁, -, -, hrun⟩ := s.answerInside_cases r w
  · cases hrun.symm.trans h
    exact s.yields_serve r w _ _ hserve
  · exact unbroken_of_told (Prod.mk.inj (hrun.symm.trans h)).1
  · cases hrun.symm.trans h

/-! ## Entries of a request -/

theorem ledger_checkedIn (status : String) (m : Memory) :
    (checkedIn status m).ledger = m.ledger.enter ⟨.health, [status]⟩ := Memory.ledger_bump m .health [status]

theorem ledger_reportedIn (report : Report) (m : Memory) :
    (s.reportedIn report m).ledger = m.ledger.enter ⟨.errors, [report.code.plain, m.ledger.service]⟩ :=
  Memory.ledger_recordError _ report.code.plain

theorem ledger_answeredIn (r : Request) (id : String) (status : ℕ) (m : Memory) :
    (s.answeredIn r id status m).ledger =
      (m.ledger.enter ⟨.requests, [r.method, r.target.writtenPath, toString status]⟩).ended :=
  Memory.ledger_recordRequest (endedIn m) r.method r.target.writtenPath (toString status)

theorem ledger_brokenIn (f : Failure) (m : Memory) :
    (s.brokenIn f m).ledger = (m.ledger.enter ⟨.errors, ["INTERNAL_ERROR", m.ledger.service]⟩).ended :=
  Memory.ledger_recordError (endedIn m) "INTERNAL_ERROR"

theorem leaves_asking (provider : String) {read : Op Payload} (h : read.Leaves Memory.ledger) :
    (s.asking provider read).Leaves Memory.ledger := by
  refine h.contain fun f => ?_
  cases f.report? with
  | some report => exact Op.Leaves.throw f
  | none => exact (Op.leaves_note Memory.aside_ledger _).bind fun _ => Op.Leaves.throw _

theorem leaves_delivering (shape : Http.Shape) {read : Op Payload} (h : read.Leaves Memory.ledger) :
    (delivering shape read).Leaves Memory.ledger := by
  intro w
  rw [run_delivering]
  have hread := h w
  rcases hrun : read.run w with ⟨r, w₁⟩
  rw [hrun] at hread
  cases r <;> exact hread

theorem leaves_dependencies : s.dependencies.Leaves Memory.ledger := by
  rw [dependencies]
  split
  · exact (Store.leaves_isHealthy Memory.aside_ledger).bind fun _ => Op.Leaves.pure _
  · exact Op.Leaves.pure _

theorem leaves_cacheInfo : cacheInfo.Leaves Memory.ledger := by
  refine (Cache.leaves_serverInfo Memory.aside_ledger).bind fun server => ?_
  refine (Op.Leaves.get.bind fun m => Op.Leaves.pure _).bind fun metrics => ?_
  have hsummary : Cache.summary.Leaves Memory.ledger := by
    refine Op.Leaves.get.bind fun m => ?_
    cases m.misfiled with
    | some filed => exact Op.Leaves.conclude _
    | none => exact Op.Leaves.pure _
  exact hsummary.bind fun config => Op.Leaves.get.bind fun m => Op.Leaves.pure _

theorem enters_health : s.health.Enters (· = .health) := by
  intro w
  have hneeds := s.leaves_dependencies w
  rw [run_health]
  rcases hrun : s.dependencies.run w with ⟨r, w₁⟩
  rw [hrun] at hneeds
  cases r with
  | error f => exact ⟨[], fun p hp => (List.not_mem_nil hp).elim, hneeds⟩
  | ok needs =>
    refine ⟨[⟨.health, [healthStatus needs]⟩], fun p hp => by rw [List.mem_singleton.1 hp], ?_⟩
    exact (ledger_checkedIn _ _).trans (congrArg (Ledger.enter · _) hneeds)

theorem enters_respond (t : Target) (route : Route) : (s.respond t route).Enters (· = .health) := by
  have hread : ∀ (shape : Http.Shape) (provider : String) (r : Resource),
      (delivering shape (s.asking provider r.read)).Leaves Memory.ledger :=
    fun shape provider r => leaves_delivering shape (s.leaves_asking provider (r.leaves_read Memory.aside_ledger))
  cases route with
  | health => exact s.enters_health
  | metrics => exact (Op.Leaves.get.bind fun m => Op.Leaves.pure _).enters
  | docs => exact (Op.Leaves.pure _).enters
  | description => exact (Op.Leaves.pure _).enters
  | root => exact (Op.Leaves.pure _).enters
  | snapshot asset => exact (hread _ _ (.snapshot asset)).enters
  | extended asset => exact (hread _ _ (.extended asset)).enters
  | news => exact (hread _ _ (.news (category t))).enters
  | trending => exact (hread _ _ .trending).enters
  | cacheMetrics => exact ((Op.Leaves.get.bind fun m => Op.Leaves.pure _).bind fun m => Op.Leaves.pure _).enters
  | cacheInfo => exact leaves_cacheInfo.enters

theorem enters_serve (r : Request) : (s.serve r).Enters (· = .health) := by
  rw [serve]
  split
  · split
    · exact s.enters_respond _ _
    · exact (Op.Leaves.pure _).enters
  · exact (Op.Leaves.pure _).enters
  · exact (Op.Leaves.pure _).enters

/-- Inside, a request is not entered yet. -/
theorem enters_answerInside (r : Request) : (s.answerInside r).Enters (· ≠ .requests) := by
  intro w
  obtain ⟨ps, hps, hledger⟩ := s.enters_serve r w
  have hother : ∀ p ∈ ps, p.account ≠ .requests := by
    intro p hp
    rw [hps p hp]
    decide
  obtain ⟨response, w₁, hserve, hrun⟩ | ⟨f, report, w₁, hserve, -, hrun⟩ | ⟨f, w₁, hserve, -, hrun⟩ :=
    s.answerInside_cases r w
  · rw [hserve] at hledger
    rw [hrun]
    exact ⟨ps, hother, hledger⟩
  · rw [hserve] at hledger
    rw [hrun]
    refine ⟨ps ++ [⟨.errors, [report.code.plain, w₁.memory.ledger.service]⟩], fun p hp => ?_, ?_⟩
    · rcases List.mem_append.1 hp with hp | hp
      · exact hother p hp
      · rw [List.mem_singleton.1 hp]
        exact Account.noConfusion
    · rw [Ledger.post_concat, ← hledger]
      exact s.ledger_reportedIn report w₁.memory
  · rw [hserve] at hledger
    rw [hrun]
    exact ⟨ps, hother, hledger⟩

/-- A request is answered with its id and entered, or else answered without it and entered as an error of the
service. -/
theorem ledger_answer (r : Request) (w : World) :
    ∃ response w' ps p, (s.answer r).run w = (.ok response, w') ∧ (∀ q ∈ ps, q.account ≠ .requests) ∧
      w'.memory.ledger = ((w.memory.ledger.begun r).post (ps ++ [p])).ended ∧
      ((response.raised = none ∧ response.id = some (idFor r w.memory) ∧
          p = ⟨.requests, [r.method, r.target.writtenPath, toString response.status]⟩) ∨
        ∃ f, response = internalError f ∧ p = ⟨.errors, ["INTERNAL_ERROR", w.memory.ledger.service]⟩) := by
  obtain ⟨ps, hps, hledger⟩ := s.enters_answerInside r (w.withMemory (begunIn r))
  replace hledger : ((s.answerInside r).run (w.withMemory (begunIn r))).2.memory.ledger =
    (w.memory.ledger.begun r).post ps := hledger
  obtain ⟨response, w₁, hinside, hrun⟩ | ⟨f, w₁, hinside, hrun⟩ := s.answer_cases r w
  · rw [hinside] at hledger
    have hraised : response.raised = none := s.yields_answerInside r _ _ _ hinside
    refine ⟨_, _, ps, _, hrun, hps, ?_, .inl ⟨hraised, rfl, rfl⟩⟩
    rw [Ledger.post_concat, ← hledger]
    exact s.ledger_answeredIn r _ _ w₁.memory
  · rw [hinside] at hledger
    refine ⟨_, _, ps, _, hrun, hps, ?_, .inr ⟨f, rfl, rfl⟩⟩
    -- No entry made inside has changed the name under which errors are counted.
    have hservice : w₁.memory.ledger.service = w.memory.ledger.service := by
      obtain ⟨family, hpost⟩ := Ledger.exists_post (w.memory.ledger.begun r) ps
      rw [show w₁.memory.ledger = _ from hledger, hpost]
      rfl
    rw [Ledger.post_concat, ← hledger, ← hservice]
    exact s.ledger_brokenIn f w₁.memory

end Site
end CacheAside
