import CacheAside.World

/-! # Several tasks at once

A pool is a list of tasks that share a world. `advance` lets one of them take one step; a schedule is a list
of such choices, so every interleaving of the commands of the tasks, and of what they do between them, is a
schedule. `turns` lets each task in order run up to its next pause and then finishes them in order, which is
what happens when the server keeps nobody waiting. -/

namespace CacheAside
set_option autoImplicit false

abbrev Pool (α : Type) := List (Task Memory α)

namespace Pool
variable {α : Type}

/-- The chosen task takes one step; nothing happens where there is none. -/
def advance (i : Nat) (p : Pool α) (w : World) : Pool α × World :=
  match p[i]? with
  | none => (p, w)
  | some t =>
    let (t, w) := w.step t
    (p.set i t, w)

@[simp] theorem length_advance (i : Nat) (p : Pool α) (w : World) : (advance i p w).1.length = p.length := by
  rw [advance]
  cases p[i]? with
  | none => rfl
  | some t => exact List.length_set

/-- The pool after a schedule. -/
def runSchedule : List Nat → Pool α → World → Pool α × World
  | [], p, w => (p, w)
  | i :: rest, p, w => runSchedule rest (advance i p w).1 (advance i p w).2

/-- Each task in order runs up to its next pause. -/
def turn : Pool α → World → Pool α × World
  | [], w => ([], w)
  | t :: rest, w =>
    let (t, w) := w.runToPause t
    let (rest, w) := turn rest w
    (t :: rest, w)

/-- Each task in order runs to its end. -/
def finish : Pool α → World → List α × World
  | [], w => ([], w)
  | t :: rest, w =>
    let (a, w) := w.run t
    let (as, w) := finish rest w
    (a :: as, w)

/-- So many turns, then every task to its end. -/
def turns : Nat → Pool α → World → List α × World
  | 0, p, w => finish p w
  | n + 1, p, w =>
    let (p, w) := turn p w
    turns n p w

end Pool
end CacheAside
