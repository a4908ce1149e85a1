import CacheAside.World

/-! # Operations

An operation is a task that ends in a value or a failure. `Op.run` carries one out in a world; what each
way of putting operations together means for the world is said by the lemmas on `run`, so that nothing
else has to look inside a task. -/

namespace CacheAside
set_option autoImplicit false

/-- A task that ends in a value or a failure. -/
abbrev Op := ExceptT Failure (Task Memory)

namespace Op
variable {α β : Type}

/-! ## Single steps -/

/-- Gives a command to a client; what that reports instead of a reply is thrown. -/
def command (client : Option Nat) (c : Command) : Op c.Reply := ExceptT.mk (Task.send client c)

/-- Lets other tasks go on. -/
def pause : Op Unit := ExceptT.lift Task.rest

def note (n : Note) : Op Unit := modify fun m => { m with journal := n :: m.journal }

/-- Changes the collector, if there is one. -/
def collect (f : Collector → Collector) : Op Unit :=
  modify fun m => { m with collector := m.collector.map f }

/-! ## Failures on the way -/

/-- Does `body`; a failure that can be contained is handled instead. -/
def contain (body : Op α) (handle : Failure → Op α) : Op α :=
  tryCatch body fun f => if f.isContained then handle f else throw f

/-- Does `body` and gives its outcome, a failure too. -/
def outcome (body : Op α) : Op (Except Failure α) :=
  tryCatch (.ok <$> body) fun f => pure (.error f)

/-- Ends in an outcome. -/
def conclude : Except Failure α → Op α
  | .ok a => pure a
  | .error f => throw f

/-- Fails where the duty is out of order, and does `body` elsewhere. -/
def duty (d : Duty) (body : Op α) : Op α := do
  match (← get).outage? d with
  | some f => throw f
  | none => body

/-- The values of all outcomes, or the first failure among them. -/
def allOf : List (Except Failure α) → Except Failure (List α)
  | [] => .ok []
  | .error f :: _ => .error f
  | .ok a :: rest => (allOf rest).map (a :: ·)

/-- Starts all operations at once and waits for all of them; in which order their steps follow on each other is
told by a list as in `Task.interleave`. Where the server keeps none of them waiting the list is empty: each one ends
before the next begins. A failure is thrown after the last one has ended. -/
def gather (order : List Nat) (ops : List (Op α)) : Op (List α) := do
  let outcomes ← ExceptT.lift (Task.interleave order (ops.map ExceptT.run))
  conclude (allOf outcomes)

theorem outcome_task (body : Op α) : ExceptT.run (outcome body) = Except.ok <$> ExceptT.run body := by
  refine (Task.bind_assoc (ExceptT.run body) _ _).trans ?_
  refine congrArg (Task.bind (ExceptT.run body)) (funext fun r => ?_)
  cases r <;> rfl

theorem gather_task (order : List Nat) (ops : List (Op α)) :
    ExceptT.run (gather order ops) = allOf <$> Task.interleave order (ops.map ExceptT.run) := by
  have hconclude : ∀ r : Except Failure (List α), ExceptT.run (conclude r) = pure r := by
    intro r
    cases r <;> rfl
  simp only [gather, ExceptT.run_bind, ExceptT.run_lift, bind_map_left, hconclude, bind_pure_comp]

/-- One operation after the other, where nobody waits. -/
theorem gather_cons (op : Op α) (ops : List (Op α)) :
    gather [] (op :: ops) = (do
      let first ← outcome op
      let others ← outcome (gather [] ops)
      match first, others with
      | .error f, _ => throw f
      | .ok _, .error f => throw f
      | .ok a, .ok as => pure (a :: as)) := by
  refine ExceptT.ext ?_
  simp only [ExceptT.run_bind, outcome_task, gather_task, List.map_cons, Task.interleave, Task.inTurn, bind_map_left]
  rw [← bind_pure_comp]
  refine (Task.bind_assoc _ _ _).trans ?_
  refine congrArg (Task.bind (ExceptT.run op)) (funext fun r => ?_)
  refine (Task.bind_assoc _ _ _).trans ?_
  refine congrArg (Task.bind (Task.inTurn _)) (funext fun rs => ?_)
  cases r with
  | error f => rfl
  | ok a =>
    change Task.done (allOf (.ok a :: rs)) = _
    rw [allOf]
    cases allOf rs <;> rfl

/-! ## Running -/

/-- The outcome of an operation, and the world after it. -/
def run (op : Op α) (w : World) : Except Failure α × World := World.run (ExceptT.run op) w

@[simp] theorem run_pure (a : α) (w : World) : (pure a : Op α).run w = (.ok a, w) := rfl

@[simp] theorem run_throw (f : Failure) (w : World) : (throw f : Op α).run w = (.error f, w) := rfl

theorem run_bind (op : Op α) (f : α → Op β) (w : World) :
    (op >>= f).run w =
      match op.run w with
      | (.ok a, w) => (f a).run w
      | (.error e, w) => (.error e, w) := by
  refine (World.run_bind (ExceptT.run op) _ w).trans ?_
  simp only [run]
  cases World.run (ExceptT.run op) w with
  | mk r w => cases r <;> rfl

theorem run_tryCatch (op : Op α) (handle : Failure → Op α) (w : World) :
    (tryCatch op handle).run w =
      match op.run w with
      | (.ok a, w) => (.ok a, w)
      | (.error e, w) => (handle e).run w := by
  refine (World.run_bind (ExceptT.run op) _ w).trans ?_
  simp only [run]
  cases World.run (ExceptT.run op) w with
  | mk r w => cases r <;> rfl

@[simp] theorem run_get (w : World) : (get : Op Memory).run w = (.ok w.memory, w) := rfl

@[simp] theorem run_set (m : Memory) (w : World) :
    (set m : Op Unit).run w = (.ok (), { w with memory := m }) := rfl

@[simp] theorem run_modify (f : Memory → Memory) (w : World) :
    (modify f : Op Unit).run w = (.ok (), { w with memory := f w.memory }) := rfl

@[simp] theorem run_command (client : Option Nat) (c : Command) (w : World) :
    @run (no_index c.Reply) (command client c) w = w.answer client c := rfl

@[simp] theorem run_pause (w : World) : pause.run w = (.ok (), w) := rfl

@[simp] theorem run_note (n : Note) (w : World) :
    (note n).run w = (.ok (), { w with memory := { w.memory with journal := n :: w.memory.journal } }) :=
  rfl

@[simp] theorem run_collect (f : Collector → Collector) (w : World) :
    (collect f).run w =
      (.ok (), { w with memory := { w.memory with collector := w.memory.collector.map f } }) := rfl

theorem run_contain (body : Op α) (handle : Failure → Op α) (w : World) :
    (contain body handle).run w =
      match body.run w with
      | (.ok a, w) => (.ok a, w)
      | (.error f, w) => if f.isContained then (handle f).run w else (.error f, w) := by
  rw [contain, run_tryCatch]
  cases body.run w with
  | mk r w =>
    cases r with
    | ok a => rfl
    | error f => cases h : f.isContained <;> simp [h]

theorem run_outcome (body : Op α) (w : World) :
    (outcome body).run w = (.ok (body.run w).1, (body.run w).2) := by
  rw [outcome, run_tryCatch, ← bind_pure_comp, run_bind]
  cases body.run w with
  | mk r w => cases r <;> rfl

@[simp] theorem run_conclude (r : Except Failure α) (w : World) : (conclude r).run w = (r, w) := by
  cases r <;> rfl

theorem run_duty (d : Duty) (body : Op α) (w : World) :
    (duty d body).run w =
      match w.memory.outage? d with
      | some f => (.error f, w)
      | none => body.run w := by
  rw [duty, run_bind, run_get]
  cases h : w.memory.outage? d <;> simp [h]

end Op
end CacheAside
