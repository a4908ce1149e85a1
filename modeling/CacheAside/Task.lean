import CacheAside.Server

/-! # Tasks

A task is a computation that looks at and replaces the state `σ` it keeps in memory, gives commands to
the server, and may pause to let others go on. Between two commands or pauses it cannot be interrupted.
A command is given to a client, which is named by its number, and opening a client to none. An answer is
what the server replies or the failure that the client reports instead. -/

namespace CacheAside
set_option autoImplicit false

inductive Task (σ α : Type) where
  | done (a : α)
  | look (k : σ → Task σ α)
  | keep (s : σ) (k : Task σ α)
  | call (client : Option Nat) (c : Command) (k : Except Failure c.Reply → Task σ α)
  | pause (k : Task σ α)

namespace Task
variable {σ α β γ : Type}

/-- One task after the other. -/
def bind : Task σ α → (α → Task σ β) → Task σ β
  | .done a, f => f a
  | .look k, f => .look fun s => (k s).bind f
  | .keep s k, f => .keep s (k.bind f)
  | .call client c k, f => .call client c fun r => (k r).bind f
  | .pause k, f => .pause (k.bind f)

instance : Monad (Task σ) where
  pure := .done
  bind := bind

instance : MonadStateOf σ (Task σ) where
  get := .look .done
  set s := .keep s (.done ())
  modifyGet f := .look fun s => .keep (f s).2 (.done (f s).1)

/-- Gives a command to a client and waits for the answer. -/
def send (client : Option Nat) (c : Command) : Task σ (Except Failure c.Reply) := .call client c .done

/-- Lets other tasks go on. -/
def rest : Task σ Unit := .pause (.done ())

/-! ## Several tasks as one -/

/-- Carries a task on as far as it goes on its own, and goes on with what is left of it. -/
def settleThen (k : Task σ α → Task σ β) : Task σ α → Task σ β
  | .done a => k (.done a)
  | .look f => .look fun s => settleThen k (f s)
  | .keep s t => .keep s (settleThen k t)
  | .call client c f => k (.call client c f)
  | .pause t => k (.pause t)

/-- Carries out the command or ends the pause that a task has come to; any other task is carried on up to its next
one. Tasks from outside may come between the end of such a step and the next one. -/
def stepThen (k : Task σ α → Task σ β) : Task σ α → Task σ β
  | .done a => k (.done a)
  | .look f => .look fun s => settleThen (fun t => .pause (k t)) (f s)
  | .keep s t => .keep s (settleThen (fun t => .pause (k t)) t)
  | .call client c f => .call client c fun r => k (f r)
  | .pause t => .pause (k t)

/-- Each task in order to its end. -/
def inTurn : List (Task σ α) → Task σ (List α)
  | [] => .done []
  | t :: rest => t.bind fun a => (inTurn rest).bind fun as => .done (a :: as)

/-- Tasks that run at once, each step by the one that the order names. When the order is used up, each task that is
left goes on to its end in turn, so every way in which they can follow on each other has its order. -/
def interleave : List Nat → List (Task σ α) → Task σ (List α)
  | [], ts => inTurn ts
  | i :: order, ts =>
    match ts[i]? with
    | none => interleave order ts
    | some t => stepThen (fun t => interleave order (ts.set i t)) t

theorem bind_done (t : Task σ α) : t.bind .done = t := by
  induction t with
  | done a => rfl
  | look k ih => exact congrArg look (funext ih)
  | keep s k ih => exact congrArg (keep s) ih
  | call client c k ih => exact congrArg (call client c) (funext ih)
  | pause k ih => exact congrArg pause ih

theorem bind_assoc (t : Task σ α) (f : α → Task σ β) (g : β → Task σ γ) :
    (t.bind f).bind g = t.bind fun a => (f a).bind g := by
  induction t with
  | done a => rfl
  | look k ih => exact congrArg look (funext ih)
  | keep s k ih => exact congrArg (keep s) ih
  | call client c k ih => exact congrArg (call client c) (funext ih)
  | pause k ih => exact congrArg pause ih

instance : LawfulMonad (Task σ) :=
  LawfulMonad.mk' (Task σ) bind_done (fun _ _ => rfl) bind_assoc

end Task
end CacheAside
