import HostBoundary.Engine.Call
import HostBoundary.Heap.Settlement

namespace HostBoundary.Engine

variable {σ : Type}

-- Runs the handler of a job, and settles the derived promise with what comes of it.
-- Without a handler the outcome is passed on.
def runJob (host : Host σ) (e : EngineId) (job : Job) : Act σ Unit := do
  let derived := job.reaction.derived
  match job.reaction.handler job.state with
  | some handler =>
    match ← call host e handler .undefined [job.value] with
    | .ok result => Act.updateHeap e (·.fulfil derived result)
    | .error thrown => Act.updateHeap e (·.settle derived .rejected thrown.value)
  | none =>
    if job.state = .fulfilled then Act.updateHeap e (·.fulfil derived job.value)
    else Act.updateHeap e (·.settle derived job.state job.value)

def takeJob (e : EngineId) : Act σ (Option Job) :=
  Act.onHeap e fun h =>
    match h.nextJob with
    | some (job, h) => (some job, h)
    | none => (none, h)

-- Runs jobs in the order they were queued until none is left, those queued meanwhile
-- included, but no more than the budget.
def runJobs (host : Host σ) (e : EngineId) : Nat → Act σ Unit
  | 0 => pure ()
  | budget + 1 => do
    match ← takeJob e with
    | none => pure ()
    | some job =>
      runJob host e job
      runJobs host e budget

def runMicrotasks (host : Host σ) (e : EngineId) : Act σ Unit := runJobs host e host.jobBudget

end HostBoundary.Engine
