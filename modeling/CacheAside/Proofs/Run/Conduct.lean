import CacheAside.Store
import CacheAside.Proofs.Run.Schedule

/-! # Tasks that share a world

Where several tasks run at once, the memory that a task finds after a command or a pause is what the others made
of it. A conduct says what a task promises and what it counts on: which commands it gives at which stage, what
the part of memory that decides and counts may have become by the end of a stretch without interruption, at which
stage such a stretch may end, and what others may do to the core meanwhile. `Task.Keeps` is kept together by the
rules for operations and says nothing about the server; `Conducted` carries it over from one step of the pool to
the next, and ties the stages of the tasks to what the server does. -/

namespace CacheAside
set_option autoImplicit false

/-! ## Conduct -/

/-- The part of memory that operations of the cache decide by and count in. -/
structure Core where
  registry : Registry
  misfiled : Option FiledRegistry
  otherwise : Seconds
  limits : Json.Limits
  tallyRegistry : Registry
  tally : Tally
  assetSubscribers : List Subscriber
  fetches : List String
  fetched : List (String × Payload)
  outages : List (Duty × Failure)

def Memory.core (m : Memory) : Core :=
  ⟨m.registry, m.misfiled, m.otherwise, m.limits, m.tallyRegistry, m.tally, m.assetSubscribers, m.fetches, m.fetched,
    m.outages⟩

/-- How a task behaves among others, told by its stages. -/
structure Conduct (σ : Type) where
  /-- The commands that are given at a stage. -/
  allows : σ → Command → Prop
  /-- What is counted on in a reply. -/
  admits : (c : Command) → c.Reply → Prop
  next : σ → (c : Command) → c.Reply → σ
  /-- What a stretch that begins at a stage may make of the core, and the stage that it may end at. -/
  moves : σ → Core → Core → σ → Prop
  /-- What others may make of the core. -/
  rely : Core → Core → Prop
  stays : ∀ s x, moves s x x s
  refl : ∀ x, rely x x
  trans : ∀ x y z, rely x y → rely y z → rely x z
  allows_open : ∀ s endpoint, allows s (.open endpoint)
  next_open : ∀ s endpoint, next s (.open endpoint) () = s

/-- In the end nothing is left but to come to a last stage that goes with the result. -/
def Conduct.EndsIn {σ α : Type} (C : Conduct σ) (Q : α → σ → Prop) (a : α) (s : σ) (b : Core) (m : Memory) : Prop :=
  ∃ s', C.moves s b m.core s' ∧ Q a s'

variable {σ α β : Type} {C : Conduct σ}

/-! ## Tasks -/

/-- Keeps to the conduct from a stage on, in a stretch that began with the core `b`, and ends in `Q`. No call
fails. -/
def Task.Keeps (C : Conduct σ) (Q : α → σ → Core → Memory → Prop) : Task Memory α → σ → Core → Memory → Prop
  | .done a, s, b, m => Q a s b m
  | .look k, s, b, m => Keeps C Q (k m) s b m
  | .keep m k, s, b, _ => Keeps C Q k s b m
  | .call _ c k, s, b, m => ∃ s', C.moves s b m.core s' ∧ C.allows s' c ∧ ∀ reply, C.admits c reply →
      ∀ m', C.rely m.core m'.core → Keeps C Q (k (.ok reply)) (C.next s' c reply) m'.core m'
  | .pause k, s, b, m => ∃ s', C.moves s b m.core s' ∧
      ∀ m', C.rely m.core m'.core → Keeps C Q k s' m'.core m'

namespace Task
variable {Q : α → σ → Core → Memory → Prop} {s : σ} {b : Core} {m : Memory}

theorem Keeps.mono {R : α → σ → Core → Memory → Prop} (h : ∀ a s b m, Q a s b m → R a s b m) {t : Task Memory α}
    (ht : t.Keeps C Q s b m) : t.Keeps C R s b m := by
  induction t generalizing s b m with
  | done a => exact h a s b m ht
  | look k ih => exact ih m ht
  | keep m' k ih => exact ih ht
  | call client c k ih =>
    obtain ⟨s', hmoved, hallowed, hlater⟩ := ht
    exact ⟨s', hmoved, hallowed, fun reply hr m' hm => ih _ (hlater reply hr m' hm)⟩
  | pause k ih =>
    obtain ⟨s', hmoved, hlater⟩ := ht
    exact ⟨s', hmoved, fun m' hm => ih (hlater m' hm)⟩

theorem Keeps.bind {R : β → σ → Core → Memory → Prop} {t : Task Memory α} {f : α → Task Memory β}
    (ht : t.Keeps C (fun a s b m => (f a).Keeps C R s b m) s b m) : (t.bind f).Keeps C R s b m := by
  induction t generalizing s b m with
  | done a => exact ht
  | look k ih => exact ih m ht
  | keep m' k ih => exact ih ht
  | call client c k ih =>
    obtain ⟨s', hmoved, hallowed, hlater⟩ := ht
    exact ⟨s', hmoved, hallowed, fun reply hr m' hm => ih _ (hlater reply hr m' hm)⟩
  | pause k ih =>
    obtain ⟨s', hmoved, hlater⟩ := ht
    exact ⟨s', hmoved, fun m' hm => ih (hlater m' hm)⟩

/-- Ends in a value of this kind without giving a command or changing the core, however often others go on
meanwhile. -/
def Aloof (D : α → Prop) : Task Memory α → Memory → Prop
  | .done a, _ => D a
  | .look k, m => Aloof D (k m) m
  | .keep m' k, m => m'.core = m.core ∧ Aloof D k m'
  | .call _ _ _, _ => False
  | .pause k, _ => ∀ m, Aloof D k m

theorem Aloof.bind {D : α → Prop} {D' : β → Prop} {t : Task Memory α} {f : α → Task Memory β} (ht : t.Aloof D m)
    (hf : ∀ a, D a → ∀ m, (f a).Aloof D' m) : (t.bind f).Aloof D' m := by
  induction t generalizing m with
  | done a => exact hf a ht m
  | look k ih => exact ih m ht
  | keep m' k ih => exact ⟨ht.1, ih ht.2⟩
  | call client c k _ => exact ht.elim
  | pause k ih => exact fun m' => ih (ht m')

/-- Such a task keeps to every conduct under which a pause harms nothing. -/
theorem Keeps.of_aloof {D : α → Prop} {J : Core → Core → Prop}
    (hpause : ∀ b x, J b x → C.moves s b x s ∧ ∀ y, C.rely x y → J y y)
    (hdone : ∀ a, D a → ∀ b m, J b m.core → Q a s b m) {t : Task Memory α} (ht : t.Aloof D m) (hJ : J b m.core) :
    t.Keeps C Q s b m := by
  induction t generalizing b m with
  | done a => exact hdone a ht b m hJ
  | look k ih => exact ih m ht hJ
  | keep m' k ih =>
    obtain ⟨hcore, hk⟩ := ht
    rw [← hcore] at hJ
    exact ih hk hJ
  | call client c k ih => exact ht.elim
  | pause k ih =>
    obtain ⟨hmoved, hlater⟩ := hpause b m.core hJ
    exact ⟨s, hmoved, fun m' hm' => ih (ht m') (hlater m'.core hm')⟩

end Task

/-! ## Operations -/

def Op.Keeps (C : Conduct σ) (Q : Except Failure α → σ → Core → Memory → Prop) (op : Op α) (s : σ) (b : Core)
    (m : Memory) : Prop :=
  Task.Keeps C Q (ExceptT.run op) s b m

namespace Op
variable {Q : Except Failure α → σ → Core → Memory → Prop} {R : Except Failure β → σ → Core → Memory → Prop} {s : σ}
  {b : Core} {m : Memory}

/-- What remains to be shown after the first part of an operation. -/
def After (C : Conduct σ) (R : Except Failure β → σ → Core → Memory → Prop) (f : α → Op β) :
    Except Failure α → σ → Core → Memory → Prop
  | .ok a, s, b, m => (f a).Keeps C R s b m
  | .error e, s, b, m => R (.error e) s b m

/-- What remains to be shown after an operation whose failures are handled. -/
def Handled (C : Conduct σ) (Q : Except Failure α → σ → Core → Memory → Prop) (handle : Failure → Op α) :
    Except Failure α → σ → Core → Memory → Prop
  | .ok a, s, b, m => Q (.ok a) s b m
  | .error e, s, b, m => (handle e).Keeps C Q s b m

/-- The same where every failure has to be one that can be contained. -/
def Contained (C : Conduct σ) (Q : Except Failure α → σ → Core → Memory → Prop) (handle : Failure → Op α) :
    Except Failure α → σ → Core → Memory → Prop
  | .ok a, s, b, m => Q (.ok a) s b m
  | .error e, s, b, m => e.isContained = true ∧ (handle e).Keeps C Q s b m

namespace Keeps

theorem mono {Q' : Except Failure α → σ → Core → Memory → Prop} (h : ∀ r s b m, Q r s b m → Q' r s b m)
    {op : Op α} (hop : op.Keeps C Q s b m) : op.Keeps C Q' s b m :=
  Task.Keeps.mono h hop

theorem pure {a : α} (h : Q (.ok a) s b m) : Op.Keeps C Q (Pure.pure a) s b m := h

theorem throw {f : Failure} (h : Q (.error f) s b m) : Op.Keeps C Q (MonadExcept.throw f) s b m := h

theorem bind {op : Op α} {f : α → Op β} (hop : op.Keeps C (After C R f) s b m) : (op >>= f).Keeps C R s b m := by
  refine Task.Keeps.bind (Task.Keeps.mono (fun r s b m hr => ?_) hop)
  cases r with
  | ok a => exact hr
  | error e => exact hr

theorem tryCatch {body : Op α} {handle : Failure → Op α} (hbody : body.Keeps C (Handled C Q handle) s b m) :
    (MonadExcept.tryCatch body handle).Keeps C Q s b m := by
  refine Task.Keeps.bind (Task.Keeps.mono (fun r s b m hr => ?_) hbody)
  cases r with
  | ok a => exact hr
  | error e => exact hr

theorem map {f : α → β} {op : Op α} (hop : op.Keeps C (fun r s b m => R (r.map f) s b m) s b m) :
    (f <$> op).Keeps C R s b m := by
  rw [← bind_pure_comp]
  refine bind (mono (fun r s b m hr => ?_) hop)
  cases r with
  | ok a => exact hr
  | error e => exact hr

theorem discard {op : Op α} {R : Except Failure Unit → σ → Core → Memory → Prop}
    (hop : op.Keeps C (fun r s b m => R (r.map fun _ => ()) s b m) s b m) :
    (Functor.discard op).Keeps C R s b m :=
  map hop

theorem get {Q : Except Failure Memory → σ → Core → Memory → Prop} (h : Q (.ok m) s b m) :
    Op.Keeps C Q (MonadState.get : Op Memory) s b m := h

theorem set {Q : Except Failure Unit → σ → Core → Memory → Prop} {m' : Memory} (h : Q (.ok ()) s b m') :
    Op.Keeps C Q (MonadStateOf.set m' : Op Unit) s b m := h

theorem modify {Q : Except Failure Unit → σ → Core → Memory → Prop} {f : Memory → Memory}
    (h : Q (.ok ()) s b (f m)) : Op.Keeps C Q (modify f : Op Unit) s b m := h

theorem contain {body : Op α} {handle : Failure → Op α} (hbody : body.Keeps C (Contained C Q handle) s b m) :
    (Op.contain body handle).Keeps C Q s b m := by
  refine tryCatch (mono (fun r s b m hr => ?_) hbody)
  cases r with
  | ok a => exact hr
  | error e =>
    obtain ⟨hcontained, hhandled⟩ := hr
    simp only [Handled, hcontained, if_true]
    exact hhandled

theorem outcome {body : Op α} {R : Except Failure (Except Failure α) → σ → Core → Memory → Prop}
    (hbody : body.Keeps C (fun r s b m => R (.ok r) s b m) s b m) : (Op.outcome body).Keeps C R s b m := by
  refine tryCatch (map (mono (fun r s b m hr => ?_) hbody))
  cases r with
  | ok a => exact hr
  | error e => exact hr

theorem duty {d : Duty} {body : Op α} (houtages : m.core.outages = []) (hbody : body.Keeps C Q s b m) :
    (Op.duty d body).Keeps C Q s b m := by
  have hnone : m.outage? d = none := by
    change Rows.find? d m.core.outages = none
    rw [houtages]
    rfl
  refine bind (get ?_)
  simp only [After, hnone]
  exact hbody

theorem command {client : Option ℕ} {c : Command} {Q : Except Failure c.Reply → σ → Core → Memory → Prop} {s' : σ}
    (hmoved : C.moves s b m.core s') (hc : C.allows s' c) (h : ∀ reply, C.admits c reply →
      ∀ m', C.rely m.core m'.core → Q (.ok reply) (C.next s' c reply) m'.core m') :
    (Op.command client c).Keeps C Q s b m :=
  ⟨s', hmoved, hc, h⟩

end Keeps
end Op

/-- Ends in such a value without giving a command or changing the core. -/
def Op.Aloof (D : α → Prop) (op : Op α) (m : Memory) : Prop :=
  Task.Aloof (fun r => ∃ a, r = .ok a ∧ D a) (ExceptT.run op) m

theorem Op.Aloof.bind {D : α → Prop} {D' : β → Prop} {op : Op α} {f : α → Op β} {m : Memory} (hop : op.Aloof D m)
    (hf : ∀ a, D a → ∀ m, (f a).Aloof D' m) : (op >>= f).Aloof D' m := by
  refine Task.Aloof.bind hop ?_
  rintro _ ⟨a, rfl, ha⟩ m'
  exact hf a ha m'

theorem Op.Aloof.get_bind {D : β → Prop} {f : Memory → Op β} {m : Memory} (hf : (f m).Aloof D m) :
    (get >>= f).Aloof D m :=
  hf

/-! ## Calls to the store -/

/-- What has to be shown of a call to the store in a stretch that made `x` of the core `b` and comes to the stage
`s'` with it. A client may have to be opened before, and others may come between. -/
structure Conduct.Sends (C : Conduct σ) (s s' : σ) (b x : Core) (c : Command) (Q : c.Reply → σ → Memory → Prop) :
    Prop where
  moved : C.moves s b x s'
  allowed : C.allows s' c
  answered : ∀ reply, C.admits c reply → ∀ m', C.rely x m'.core → Q reply (C.next s' c reply) m'

namespace Store
variable {s s' : σ} {b : Core} {m : Memory}

theorem keeps_send {c : Command} {Q : Except Failure c.Reply → σ → Core → Memory → Prop}
    (h : C.Sends s s' b m.core c fun reply s m' => Q (.ok reply) s m'.core m') : (send c).Keeps C Q s b m := by
  refine Op.Keeps.bind (Op.Keeps.bind (Op.Keeps.get ?_))
  simp only [Op.After]
  split
  · exact Op.Keeps.pure (Op.Keeps.command h.moved h.allowed h.answered)
  · refine Op.Keeps.bind (Op.Keeps.command h.moved (C.allows_open s' _) fun reply _ m₁ hm₁ => ?_)
    rw [C.next_open]
    refine Op.Keeps.bind (Op.Keeps.get (Op.Keeps.bind (Op.Keeps.set (Op.Keeps.pure ?_))))
    -- taking the new client into use leaves the core as it is
    refine Op.Keeps.command (C.stays s' _) h.allowed fun reply hr m₂ hm₂ => ?_
    exact h.answered reply hr m₂ (C.trans _ _ _ hm₁ hm₂)

theorem keeps_reporting {c : Command} {Q : Except Failure c.Reply → σ → Core → Memory → Prop} (operation : String)
    (details : List (String × Json)) (h : C.Sends s s' b m.core c fun reply s m' => Q (.ok reply) s m'.core m') :
    (reporting operation details (send c)).Keeps C Q s b m :=
  Op.Keeps.tryCatch (keeps_send h)

end Store

/-! ## One step -/

/-- The reply to a command where no call fails. -/
def World.reply (w : World) (c : Command) : c.Reply :=
  ((w.server.wait (w.network.delay w.history c)).apply c).1

/-- The world after a command to a client where no call fails. -/
def World.answered (w : World) (client : Option ℕ) (c : Command) : World :=
  { w with
    server := ((w.server.wait (w.network.delay w.history c)).apply c).2
    history := ⟨client, c, none⟩ :: w.history }

theorem World.answer_of_neverFails {w : World} (hw : w.network.NeverFails) (client : Option ℕ) (c : Command) :
    w.answer client c = (.ok (w.reply c), w.answered client c) := by
  have harrival := onArrival_eq w c
  rw [answer, hw]
  simp only [harrival]
  rfl

/-- What is left of a task at a stage keeps to the conduct in a stretch that begins now. -/
def Task.Rests (C : Conduct σ) (Q : α → σ → Prop) (t : Task Memory α) (s : σ) (m : Memory) : Prop :=
  t.Keeps C (C.EndsIn Q) s m.core m

/-- What one step of a task comes to: its stage and the world afterwards. A stretch comes up to a command, or a
command is carried out. -/
inductive Stride (C : Conduct σ) (s : σ) (w : World) : σ → World → Prop
  | settled {s' : σ} (m : Memory) (moved : C.moves s w.memory.core m.core s') : Stride C s w s' { w with memory := m }
  | called {s' : σ} (client : Option ℕ) (c : Command) (moved : C.moves s w.memory.core w.memory.core s')
      (allowed : C.allows s' c) : Stride C s w (C.next s' c (w.reply c)) (w.answered client c)

namespace Task
variable {Q : α → σ → Prop} {s : σ}

/-- A stretch up to its end, where what is left rests at the stage that it has come to. -/
theorem Keeps.settle {t : Task Memory α} {b : Core} {m : Memory} (w : World)
    (h : t.Keeps C (C.EndsIn Q) s b m) :
    ∃ s' m', (World.settle t { w with memory := m }).2 = { w with memory := m' } ∧ C.moves s b m'.core s' ∧
      ∀ m'', C.rely m'.core m''.core → (World.settle t { w with memory := m }).1.Rests C Q s' m'' := by
  induction t generalizing m with
  | done a =>
    obtain ⟨s', hmoved, hresult⟩ := h
    exact ⟨s', m, rfl, hmoved, fun m'' _ => ⟨s', C.stays s' _, hresult⟩⟩
  | look k ih => exact ih m h
  | keep m' k ih => exact ih h
  | call client c k _ =>
    obtain ⟨s', hmoved, hallowed, hlater⟩ := h
    exact ⟨s', m, rfl, hmoved, fun m'' hm => ⟨s', C.stays s' _, hallowed, fun reply hr m₃ hm₃ =>
      hlater reply hr m₃ (C.trans _ _ _ hm hm₃)⟩⟩
  | pause k _ =>
    obtain ⟨s', hmoved, hlater⟩ := h
    exact ⟨s', m, rfl, hmoved, fun m'' hm => ⟨s', C.stays s' _, fun m₃ hm₃ =>
      hlater m₃ (C.trans _ _ _ hm hm₃)⟩⟩

theorem Rests.stride {t : Task Memory α} {w : World} (hw : w.network.NeverFails)
    (hadmits : ∀ s' c, C.moves s w.memory.core w.memory.core s' → C.allows s' c → C.admits c (w.reply c))
    (h : t.Rests C Q s w.memory) (hlater : ∀ m', C.rely w.memory.core m'.core → t.Rests C Q s m') :
    ∃ s', Stride C s w s' (World.step t w).2 ∧
      ∀ m', C.rely (World.step t w).2.memory.core m'.core → (World.step t w).1.Rests C Q s' m' := by
  cases t with
  | done a => exact ⟨s, .settled w.memory (C.stays s _), hlater⟩
  | look k =>
    obtain ⟨s', m', hworld, hmoved, hrests⟩ := Keeps.settle (t := k w.memory) w h
    rw [World.step, hworld]
    exact ⟨s', .settled m' hmoved, hrests⟩
  | keep m k =>
    obtain ⟨s', m', hworld, hmoved, hrests⟩ := Keeps.settle (t := k) (m := m) w h
    rw [World.step, hworld]
    exact ⟨s', .settled m' hmoved, hrests⟩
  | call client c k =>
    obtain ⟨s', hmoved, hallowed, hrests⟩ := h
    rw [World.step, World.answer_of_neverFails hw]
    exact ⟨_, .called client c hmoved hallowed, hrests _ (hadmits s' c hmoved hallowed)⟩
  | pause k =>
    obtain ⟨s', hmoved, hrests⟩ := h
    exact ⟨s', .settled w.memory hmoved, hrests⟩

end Task

/-! ## Pools -/

/-- Every task of a pool keeps to its conduct from the stage that it has reached, whatever the others make of
the core meanwhile. -/
def Conducted (C : ℕ → Conduct σ) (Q : ℕ → α → σ → Prop) (p : Pool α) (s : ℕ → σ) (m : Memory) : Prop :=
  ∀ (i : ℕ) (t : Task Memory α), p[i]? = some t → ∀ m', (C i).rely m.core m'.core → t.Rests (C i) (Q i) (s i) m'

/-- No task does to the core what another one does not count on. -/
def Compatible (C : ℕ → Conduct σ) : Prop :=
  ∀ i j, i ≠ j → ∀ s x y s', (C i).moves s x y s' → (C j).rely x y

namespace Stride
variable {s s' : σ} {w w' : World}

theorem moved (h : Stride C s w s' w') : ∃ s₁, C.moves s w.memory.core w'.memory.core s₁ := by
  cases h with
  | settled m moved => exact ⟨_, moved⟩
  | called client c moved allowed => exact ⟨_, moved⟩

theorem network (h : Stride C s w s' w') : w'.network = w.network := by
  cases h <;> rfl

end Stride

/-- One step of one task: the others rest at their stages. -/
theorem Conducted.advance {C : ℕ → Conduct σ} {Q : ℕ → α → σ → Prop} {p : Pool α} {s : ℕ → σ} {w : World}
    (h : Conducted C Q p s w.memory) (hC : Compatible C) (hw : w.network.NeverFails) {i : ℕ}
    (hadmits : ∀ s' c, (C i).moves (s i) w.memory.core w.memory.core s' → (C i).allows s' c →
      (C i).admits c (w.reply c)) :
    ∃ s', Stride (C i) (s i) w s' (p.advance i w).2 ∧
      Conducted C Q (p.advance i w).1 (Function.update s i s') (p.advance i w).2.memory := by
  rw [Pool.advance]
  cases hi : p[i]? with
  | none =>
    refine ⟨s i, .settled w.memory ((C i).stays _ _), ?_⟩
    rw [Function.update_eq_self]
    exact h
  | some t =>
    obtain ⟨s', hstride, hrest⟩ := Task.Rests.stride hw hadmits (h i t hi w.memory ((C i).refl _)) (h i t hi)
    refine ⟨s', hstride, fun j t' hj m' hm' => ?_⟩
    rcases eq_or_ne i j with rfl | hne
    · obtain ⟨hlength, -⟩ := List.getElem?_eq_some_iff.1 hi
      rw [List.getElem?_set_self hlength] at hj
      cases hj
      rw [Function.update_self]
      exact hrest m' hm'
    · rw [List.getElem?_set_ne hne] at hj
      rw [Function.update_of_ne hne.symm]
      obtain ⟨_, hmoved⟩ := hstride.moved
      exact h j t' hj m' ((C j).trans _ _ _ (hC i j hne _ _ _ _ hmoved) hm')

/-- What is kept by every step of every task is kept by every schedule. -/
theorem Conducted.runSchedule {C : ℕ → Conduct σ} {Q : ℕ → α → σ → Prop} (hC : Compatible C) {n : ℕ}
    {P : (ℕ → σ) → World → Prop}
    (hadmits : ∀ s w i s' c, P s w → (C i).moves (s i) w.memory.core w.memory.core s' → (C i).allows s' c →
      (C i).admits c (w.reply c))
    (hstep : ∀ s w i s' w', i < n → P s w → Stride (C i) (s i) w s' w' → P (Function.update s i s') w')
    (schedule : List ℕ) {p : Pool α} (hn : p.length = n) {s : ℕ → σ} {w : World} (hw : w.network.NeverFails)
    (hstart : P s w) (h : Conducted C Q p s w.memory) :
    ∃ s', P s' (Pool.runSchedule schedule p w).2 ∧
      Conducted C Q (Pool.runSchedule schedule p w).1 s' (Pool.runSchedule schedule p w).2.memory := by
  induction schedule generalizing p s w with
  | nil => exact ⟨s, hstart, h⟩
  | cons i rest ih =>
    rw [Pool.runSchedule]
    rcases lt_or_ge i n with hi | hi
    · obtain ⟨s', hstride, hnext⟩ := h.advance hC hw (hadmits s w i · · hstart)
      have hw' : (p.advance i w).2.network.NeverFails := by
        rw [hstride.network]
        exact hw
      exact ih ((Pool.length_advance i p w).trans hn) hw' (hstep s w i s' _ hi hstart hstride) hnext
    · have hnone : p.advance i w = (p, w) := by
        rw [Pool.advance, List.getElem?_eq_none (hn ▸ hi)]
      rw [hnone]
      exact ih hn hw hstart h

theorem Conducted.ended {C : ℕ → Conduct σ} {Q : ℕ → α → σ → Prop} {vs : List α} {s : ℕ → σ} {m : Memory}
    (h : Conducted C Q (vs.map .done) s m) {i : ℕ} {v : α} (hv : vs[i]? = some v) :
    ∃ s', (C i).moves (s i) m.core m.core s' ∧ Q i v s' :=
  h i (.done v) (by rw [List.getElem?_map, hv]; rfl) m ((C i).refl _)

end CacheAside
