import Mathlib.Data.List.Basic

/-!
# The job queue

`JobUnitQueue` of `include/iridium/JobUnitQueue.hpp`, without its lock: every operation is one
step. `waitFor` is the part of `wait_for` before the condition variable; the wake-up, and whether
it was a timeout, is up to the scheduler.
-/

namespace Iridium

structure JobUnitQueue (Job : Type) where
  jobs : List Job := []
  deriving DecidableEq, Repr

namespace JobUnitQueue

variable {Job : Type}

def put (q : JobUnitQueue Job) (job : Job) : JobUnitQueue Job := ⟨q.jobs ++ [job]⟩

/-- The first job; a default-constructed one when there is none. -/
def get [Inhabited Job] (q : JobUnitQueue Job) : Job × JobUnitQueue Job :=
  match q.jobs with
  | [] => (default, q)
  | job :: jobs => (job, ⟨jobs⟩)

def unget (q : JobUnitQueue Job) (job : Job) : JobUnitQueue Job := ⟨job :: q.jobs⟩

/-- `some false` when `wait_for` returns at once, `none` when it blocks. -/
def waitFor (q : JobUnitQueue Job) : Option Bool := if q.jobs ≠ [] then some false else none

def clear (_ : JobUnitQueue Job) : JobUnitQueue Job := ⟨[]⟩

end JobUnitQueue

end Iridium
