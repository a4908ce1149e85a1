import CacheAside.Proofs.Run.Record
import CacheAside.Proofs.Site.Answering
import CacheAside.Proofs.Site.Ledger

/-! # Every request is accounted for

Over a run of a service the ledger goes on as it began: its counters stay open, and spare ids are used up one by one
(`Site.Continues`). Every request of the run is answered, and the id that stood for it is forgotten. Unless a failure
goes on after the response, the response brings the id of the request and one request is counted, under the status
that is sent (`Site.requests_accounted`). -/

namespace CacheAside
set_option autoImplicit false

open Http (Request Response)

/-- What a service does, one thing after the other. -/
inductive Act where
  | start
  | stop
  | request (r : Request)
  /-- Anything else that makes no entry, such as reads and writes past the requests. -/
  | meanwhile (op : Op Unit) (h : op.Leaves Memory.ledger)

namespace Act

def op (s : Site) : Act → Op (Option Response)
  | .start => do
    s.start
    return none
  | .stop => do
    s.stop
    return none
  | .request r => do return some (← s.answer r)
  | .meanwhile op _ => do
    op
    return none

/-- Whether a request comes without an id of its own. -/
def takesSpareId : Act → Bool
  | .request r => r.id.isNone
  | _ => false

end Act

/-- What has been done by a service. -/
abbrev History := List (Event Act (Option Response))

/-- How many spare ids were used. -/
def History.spareIds (past : History) : ℕ := past.countP (·.deed.takesSpareId)

theorem History.spareIds_concat (past : History) (e : Event Act (Option Response)) :
    History.spareIds (past ++ [e]) = past.spareIds + if e.deed.takesSpareId then 1 else 0 := by
  rw [spareIds, List.countP_append, List.countP_singleton]
  rfl

namespace Site
variable {s : Site} {w : World} {past rest : History} {e : Event Act (Option Response)}

theorem leaves_start : s.start.Leaves Memory.ledger := by
  have hstore : (Store.start).Leaves Memory.ledger := Store.leaves_start Memory.aside_ledger
  have hnote : ∀ n : Note, (Op.note n).Leaves Memory.ledger := Op.leaves_note Memory.aside_ledger
  refine (hstore.tryCatch fun f => ?_).bind fun _ => hnote _
  cases f with
  | reported r =>
    simp only
    split
    · exact hnote _
    · exact Op.Leaves.throw _
  | _ => exact Op.Leaves.throw _

theorem leaves_stop : s.stop.Leaves Memory.ledger :=
  (Store.leaves_stop Memory.aside_ledger).bind fun _ => Op.leaves_note Memory.aside_ledger _

/-- What a service does besides answering requests makes no entry. -/
theorem leaves_op {act : Act} (h : ∀ r, act ≠ .request r) : (act.op s).Leaves Memory.ledger := by
  cases act with
  | start => exact leaves_start.bind fun _ => Op.Leaves.pure none
  | stop => exact leaves_stop.bind fun _ => Op.Leaves.pure none
  | request r => exact absurd rfl (h r)
  | meanwhile op hop => exact hop.bind fun _ => Op.Leaves.pure none

/-- What a request comes to is what it is answered. -/
theorem answered_of_performs {r : Request} {response : Response} {w' : World} (he : e.Performs (Act.op s))
    (hdeed : e.deed = .request r) (hanswer : (s.answer r).run e.before = (.ok response, w')) :
    e.outcome = .ok (some response) ∧ e.after = w' := by
  have hrun : (e.deed.op s).run e.before = (.ok (some response), w') := by
    rw [hdeed, Act.op, Op.run_bind, hanswer]
    rfl
  have heq := he.symm.trans hrun
  exact ⟨(Prod.mk.inj heq).1, (Prod.mk.inj heq).2⟩

/-! ## Runs -/

/-- How the ledger goes on. -/
structure Continues (w : World) (past : History) (w' : World) : Prop where
  isOpen : w'.memory.ledger.IsOpen
  service : w'.memory.ledger.service = w.memory.ledger.service
  spareId : w'.memory.spareId = w.memory.spareId
  spareIdsUsed : w'.memory.spareIdsUsed = w.memory.spareIdsUsed + past.spareIds

theorem continues_start (h : w.memory.ledger.IsOpen) : Continues w [] w := ⟨h, rfl, rfl, rfl⟩

/-- The ledger goes on where an act keeps its counters open and uses up a spare id only if it takes one. -/
theorem Continues.extend (h : Continues w past e.before) (hopen : e.after.memory.ledger.IsOpen)
    (hservice : e.after.memory.ledger.service = e.before.memory.ledger.service)
    (hspareId : e.after.memory.spareId = e.before.memory.spareId)
    (hused : e.after.memory.spareIdsUsed =
      if e.deed.takesSpareId then e.before.memory.spareIdsUsed + 1 else e.before.memory.spareIdsUsed) :
    Continues w (past ++ [e]) e.after := by
  refine ⟨hopen, hservice.trans h.service, hspareId.trans h.spareId, ?_⟩
  rw [hused, History.spareIds_concat, h.spareIdsUsed]
  split <;> rfl

theorem Continues.step (h : Continues w past e.before) (he : e.Performs (Act.op s)) :
    Continues w (past ++ [e]) e.after := by
  by_cases hrequest : ∃ r, e.deed = .request r
  · obtain ⟨r, hr⟩ := hrequest
    obtain ⟨response, w', ps, p, hrun, -, hledger, -⟩ := s.ledger_answer r e.before
    have hafter : e.after = w' := (answered_of_performs he hr hrun).2
    obtain ⟨family, hpost⟩ := Ledger.exists_post (e.before.memory.ledger.begun r) (ps ++ [p])
    have hopen : w'.memory.ledger.IsOpen := by
      rw [hledger]
      exact Ledger.isOpen_post (l := e.before.memory.ledger.begun r) h.isOpen (ps ++ [p])
    rw [hpost] at hledger
    refine h.extend (hafter ▸ hopen) ?_ ?_ ?_
    · rw [hafter, hledger]
      rfl
    · rw [hafter]
      exact congrArg Ledger.spareId hledger
    · rw [hafter, hr]
      exact congrArg Ledger.spareIdsUsed hledger
  -- Whatever is no request makes no entry and takes no id.
  · have hleft : e.after.memory.ledger = e.before.memory.ledger := by
      have hleaves := leaves_op (s := s) (fun r hr => hrequest ⟨r, hr⟩) e.before
      rwa [he] at hleaves
    have hnone : e.deed.takesSpareId = false := by
      cases hdeed : e.deed with
      | request r => exact absurd ⟨r, hdeed⟩ hrequest
      | _ => rfl
    refine h.extend (hleft ▸ h.isOpen) (congrArg Ledger.service hleft) (congrArg Ledger.spareId hleft) ?_
    rw [hnone]
    exact congrArg Ledger.spareIdsUsed hleft

/-- A run up to one of its acts. -/
theorem continues_of_record {acts : List Act} (hopen : w.memory.ledger.IsOpen)
    (h : record (Act.op s) acts w = past ++ e :: rest) : Continues w past e.before ∧ e.Performs (Act.op s) :=
  record_invariant (fun _ _ hpast he => hpast.step he) (continues_start hopen) h

/-! ## Requests -/

/-- The id of a request that comes after these acts: its own, or else the next spare one. -/
def nextId (w : World) (past : History) (r : Request) : String :=
  r.id.getD (w.memory.spareId (w.memory.spareIdsUsed + past.spareIds))

theorem Continues.idFor_eq (h : Continues w past e.before) (r : Request) :
    idFor r e.before.memory = nextId w past r := by
  rw [idFor, nextId, h.spareId, h.spareIdsUsed]

/-- What a request enters under one account. -/
theorem counted_of_posted {w w' : World} {r : Request} {ps : List Posting} (hopen : w.memory.ledger.IsOpen)
    (h : w'.memory.ledger = ((w.memory.ledger.begun r).post ps).ended) (a : Account) (values : List String) :
    w'.memory.counted a values = w.memory.counted a values + ps.count ⟨a, values⟩ := by
  rw [Memory.counted_eq, Memory.counted_eq, h]
  exact Ledger.count_post (l := w.memory.ledger.begun r) hopen ps a values

/-- What is entered on the way to a request is counted once, whatever the request itself is entered under. -/
theorem counted_beside_request {w w' : World} {r : Request} {a : Account} {values entered : List String}
    (hopen : w.memory.ledger.IsOpen) (ha : Account.requests ≠ a)
    (h : w'.memory.ledger = ((w.memory.ledger.begun r).post [⟨a, values⟩, ⟨.requests, entered⟩]).ended)
    (labels : List String) :
    w'.memory.counted a labels = w.memory.counted a labels + if labels = values then 1 else 0 := by
  rw [counted_of_posted hopen h, ← List.singleton_append, List.count_append, Posting.count_singleton,
    Posting.count_singleton_of_ne ha, Nat.add_zero]

/-- Every request of a run is answered, and its id is forgotten. Unless a failure goes on after the response, the
response brings the id of the request, and one request is counted, by its method, its path and the status that is sent.
Where a failure goes on, no id is sent back and no request is counted. -/
theorem requests_accounted {acts : List Act} (hopen : w.memory.ledger.IsOpen)
    (hrun : record (Act.op s) acts w = past ++ e :: rest) {r : Request} (hrequest : e.deed = .request r) :
    ∃ response, e.outcome = .ok (some response) ∧ e.after.memory.requestId = none ∧
      (response.raised = none → response.id = some (nextId w past r) ∧ ∀ labels,
        e.after.memory.counted .requests labels = e.before.memory.counted .requests labels +
          if labels = [r.method, r.target.writtenPath, toString response.status] then 1 else 0) ∧
      (∀ f, response.raised = some f → response.status = 500 ∧ response.id = none ∧ ∀ labels,
        e.after.memory.counted .requests labels = e.before.memory.counted .requests labels) := by
  obtain ⟨hpast, hperforms⟩ := continues_of_record hopen hrun
  obtain ⟨response, w', ps, p, hanswer, hps, hledger, hcases⟩ := s.ledger_answer r e.before
  obtain ⟨houtcome, rfl⟩ := answered_of_performs hperforms hrequest hanswer
  have hcount : ∀ labels, e.after.memory.counted .requests labels =
      e.before.memory.counted .requests labels + [p].count ⟨.requests, labels⟩ := by
    intro labels
    rw [counted_of_posted hpast.isOpen hledger, List.count_append, Posting.count_eq_zero hps, Nat.zero_add]
  refine ⟨response, houtcome, congrArg Ledger.requestId hledger, fun hraised => ?_, fun f hraised => ?_⟩
  · obtain ⟨-, hid, rfl⟩ | ⟨f, rfl, -⟩ := hcases
    · refine ⟨hid.trans (congrArg some (hpast.idFor_eq r)), fun labels => ?_⟩
      rw [hcount, Posting.count_singleton]
    · cases hraised
  · obtain ⟨hnone, -⟩ | ⟨f, rfl, rfl⟩ := hcases
    · cases hnone.symm.trans hraised
    · refine ⟨rfl, rfl, fun labels => ?_⟩
      rw [hcount, Posting.count_singleton_of_ne Account.noConfusion, Nat.add_zero]

/-- A service of the cache that has not been asked anything. -/
def serving (entries : List (String × Entry)) : World :=
  (World.fresh entries).withMemory fun m =>
    { m with collector := some (Collector.start "cache"), spareId := fun n => "spare-" ++ toString n }

theorem isOpen_serving (entries : List (String × Entry)) : (serving entries).memory.ledger.IsOpen :=
  (Memory.isOpen_start rfl).1

/-- A request for a path that there is none of. -/
def lostRequest (id : Option String) : Request := ⟨"GET", "localhost", .parse "/nowhere", id⟩

/-- After a request with an id of its own, another one gets the first spare id and is counted beside it. -/
theorem requests_accounted_lost : ∃ past e,
    record (Act.op plain) [.start, .request (lostRequest (some "mine")), .request (lostRequest none)] (serving []) =
      past ++ e :: [] ∧ e.before.memory.counted .requests ["GET", "/nowhere", "404"] = 1 ∧
      ∃ response, e.outcome = .ok (some response) ∧ response.id = some "spare-0" ∧ e.after.memory.requestId = none ∧
        e.after.memory.counted .requests ["GET", "/nowhere", "404"] = 2 := by
  have hrun : record (Act.op plain)
      [.start, .request (lostRequest (some "mine")), .request (lostRequest none)] (serving []) =
        [_, _] ++ _ :: [] := rfl
  obtain ⟨response, houtcome, hended, hcounted, -⟩ := requests_accounted (isOpen_serving []) hrun rfl
  have hstatus : response.status = 404 ∧ response.raised = none := by
    cases houtcome
    exact ⟨rfl, rfl⟩
  obtain ⟨hid, hcount⟩ := hcounted hstatus.2
  refine ⟨_, _, hrun, rfl, response, houtcome, hid, hended, ?_⟩
  rw [hcount, hstatus.1]
  rfl

/-- A request for data that the route cannot answer is not counted, and brings no id. -/
theorem uncounted_of_unfit {res : Resource} {r : Request} {w₁ : World} {v : Json} (hcache : s.features.cache = true)
    (hres : res.IsAccepted) (hasks : r.AsksFor res) (hopen : w.memory.ledger.IsOpen)
    (hread : res.read.run (w.withMemory (begunIn r)) = (.ok (.json v), w₁)) (hunfit : ¬ res.Suits v) :
    ∃ f w', (s.answer r).run w = (.ok (internalError f), w') ∧
      ∀ labels, w'.memory.counted .requests labels = w.memory.counted .requests labels := by
  obtain ⟨response, w', hanswer, -, hinternal⟩ := run_answer_of_read hcache hres hasks hread
  obtain ⟨f, rfl⟩ := hinternal hunfit
  obtain ⟨response, w'', ps, p, hposted, hps, hledger, hcases⟩ := s.ledger_answer r w
  obtain ⟨hresponse, rfl⟩ := Prod.mk.inj (hanswer.symm.trans hposted)
  obtain rfl := Except.ok.inj hresponse
  refine ⟨f, w', hanswer, fun labels => ?_⟩
  obtain ⟨hraised, -⟩ | ⟨-, -, rfl⟩ := hcases
  · cases hraised
  · rw [counted_of_posted hopen hledger, List.count_append, Posting.count_eq_zero hps,
      Posting.count_singleton_of_ne Account.noConfusion, Nat.add_zero]

/-- A list under the key of a snapshot is no answer that the route declares. The failure goes on after the response:
that brings no id, although the request came with one, and the request is not counted. -/
theorem requests_unaccounted : ∃ e response,
    record (Act.op plain) [.request { snapshotRequest with id := some "mine" }]
      (serving [("cache:market:snapshot:XLM", ⟨"[1]", none⟩)]) = [e] ∧
      e.outcome = .ok (some response) ∧ response.status = 500 ∧ response.id = none ∧
      ∀ labels, e.after.memory.counted .requests labels = 0 := by
  have hread : ((Resource.snapshot "XLM").read.run ((serving [("cache:market:snapshot:XLM", ⟨"[1]", none⟩)]).withMemory
      (begunIn { snapshotRequest with id := some "mine" }))).1 = .ok (.json (.arr [.int 1])) := rfl
  have hunfit : ¬ (Resource.snapshot "XLM").Suits (.arr [.int 1]) := fun h => Bool.false_ne_true h.1
  obtain ⟨f, w', hanswer, hcounted⟩ := uncounted_of_unfit (s := plain) rfl (by decide) ⟨rfl, by decide⟩
    (isOpen_serving _) (Prod.ext hread rfl) hunfit
  have hrun : record (Act.op plain) [.request { snapshotRequest with id := some "mine" }]
      (serving [("cache:market:snapshot:XLM", ⟨"[1]", none⟩)]) = [] ++ _ :: [] := rfl
  obtain ⟨-, hperforms⟩ := continues_of_record (isOpen_serving _) hrun
  obtain ⟨houtcome, hafter⟩ := answered_of_performs hperforms rfl hanswer
  refine ⟨_, internalError f, hrun, houtcome, rfl, rfl, fun labels => ?_⟩
  rw [hafter, hcounted]
  rfl

end Site
end CacheAside
