import CacheAside.Proofs.Store.Passage

/-! # What becomes of a failing call

A failure of the client reaches whoever asked for a deed in one form: as a report of the store under the name of the
deed, with the text of the failure and what is told of the arguments. A check answers no instead, every other failure
passes through unchanged, and a deed on whose way nothing fails has an answer. Closing the client is the exception:
its failure passes through, whoever reports it. -/

namespace CacheAside.Store
set_option autoImplicit false

/-- Whether a report tells that a deed ended with a text of the client. -/
structure Deed.Reports (d : Deed) (text : String) (report : Report) : Prop where
  kind : report.kind = .store
  origin : report.origin = .str d.name
  message : report.message = .str (d.name ++ ": " ++ text)
  details : report.details = .obj d.details

theorem Deed.comesTo_client {d : Deed} (hcheck : d ≠ .check) (hstop : d ≠ .stop) (fault : ClientFault)
    (text : String) : ∃ report, d.comesTo (.client fault text) = .error (.reported report) ∧ d.Reports text report := by
  have hreport : d.comesTo (.client fault text) = .error (.reported (.ofStore d.name text d.details)) := by
    cases d with
    | check => exact absurd rfl hcheck
    | stop => exact absurd rfl hstop
    | _ => rfl
  exact ⟨_, hreport, rfl, rfl, rfl, Report.details_ofStore _ _ _⟩

theorem Deed.comesTo_other (d : Deed) {f : Failure} (hf : ∀ fault text, f ≠ .client fault text) :
    d.comesTo f = .error f := by
  cases f with
  | client fault text => exact absurd rfl (hf fault text)
  | _ => cases d <;> rfl

/-- Where no exchange of a deed fails, nothing fails on its way. -/
theorem Turn.eq_none {w w' : World} {failure : Option Failure} {exchanges : List Exchange}
    (h : Turn w w' failure exchanges) (hnone : ∀ x ∈ exchanges, x.failure = none) : failure = none := by
  cases h with
  | idle => rfl
  | call _ _ passage => cases passage <;> exact hnone _ List.mem_cons_self
  | closed => rfl
  | unclosed => exact hnone _ List.mem_cons_self

/-- Whatever the store is asked for, with a client or without one, and whichever call fails: a failure that the client
reports becomes a report of the store that names the deed, tells the text and the arguments; a check answers no, and
a stop lets it pass. Every other failure passes unchanged, and where no call fails there is an answer. -/
theorem client_faults_reported (d : Deed) (w : World) : ∃ exchanges, Traced w (d.op.run w).2 exchanges ∧
    (∀ x ∈ exchanges, ∀ fault text, x.failure = some (.client fault text) →
      (d ≠ .check → d ≠ .stop →
        ∃ report, (d.op.run w).1 = .error (.reported report) ∧ d.Reports text report) ∧
      (d = .check → (d.op.run w).1 = .ok (.bool false)) ∧
      (d = .stop → (d.op.run w).1 = .error (.client fault text))) ∧
    (∀ x ∈ exchanges, ∀ f, x.failure = some f → (∀ fault text, f ≠ .client fault text) →
      (d.op.run w).1 = .error f) ∧
    ((∀ x ∈ exchanges, x.failure = none) → ∃ a, (d.op.run w).1 = .ok a) := by
  obtain ⟨failure, exchanges, hdone⟩ := done d w
  have hdecides : ∀ x ∈ exchanges, ∀ f, x.failure = some f → (d.op.run w).1 = d.comesTo f :=
    fun x hx f hf => hdone.failed f (hdone.turn.failure_eq hx hf)
  refine ⟨exchanges, hdone.traced, fun x hx fault text hf => ⟨fun hcheck hstop => ?_, ?_, ?_⟩,
    fun x hx f hf hother => ?_, fun hnone => hdone.succeeded (hdone.turn.eq_none hnone)⟩
  · rw [hdecides x hx _ hf]
    exact Deed.comesTo_client hcheck hstop fault text
  · rintro rfl
    exact hdecides x hx _ hf
  · rintro rfl
    exact hdecides x hx _ hf
  · rw [hdecides x hx f hf]
    exact d.comesTo_other hother

/-- A world in which the client of the store reports this fault of one kind of command. -/
def faulty (kind : Command → Bool) (fault : ClientFault) (text : String) : World :=
  { World.fresh [] with network := Network.calm.arm [] kind (.client fault text) none }

def isSetFor : Command → Bool
  | .setFor _ _ _ => true
  | _ => false

/-- A write that is turned down after a client was created for it tells its key and its seconds, not its text. -/
theorem client_faults_reported_write : ∃ report,
    ((Deed.writeFor "k" "[1]" (.whole 60)).op.run (faulty isSetFor .response "READONLY")).1 =
        .error (.reported report) ∧
      report.message = .str "set_with_expiry: READONLY" ∧
      report.details = .obj [("key", .str "k"), ("ttl", .int 60)] := by
  obtain ⟨exchanges, htraced, hclient, -⟩ :=
    client_faults_reported (.writeFor "k" "[1]" (.whole 60)) (faulty isSetFor .response "READONLY")
  have hexchanges : exchanges =
      [⟨some 0, .setFor "k" (.whole 60) "[1]", some (.client .response "READONLY")⟩, ⟨none, .open _, none⟩] :=
    (List.append_nil exchanges).symm.trans htraced.history.symm
  obtain ⟨hreport, -⟩ := hclient _ (hexchanges ▸ List.mem_cons_self) .response "READONLY" rfl
  obtain ⟨report, hrun, hreports⟩ := hreport nofun nofun
  exact ⟨report, hrun, hreports.message, hreports.details⟩

/-- A fault of the client when it is closed reaches the caller as it is. -/
theorem stop_unreported : ∃ w x, w.memory.connected = true ∧ Traced w (Deed.stop.op.run w).2 [x] ∧
    x.failure = some (.client .connection "gone") ∧
    ∀ report, (Deed.stop.op.run w).1 ≠ .error (.reported report) := by
  let held : World := { faulty Command.closes .connection "gone" with
    memory := { (faulty Command.closes .connection "gone").memory with clients := Clients.none.make } }
  exact ⟨held, ⟨some 0, .close, some (.client .connection "gone")⟩, rfl, ⟨rfl, rfl, rfl, rfl, trivial⟩, rfl, nofun⟩

end CacheAside.Store
