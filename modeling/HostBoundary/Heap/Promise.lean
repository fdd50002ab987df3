import HostBoundary.Value

namespace HostBoundary

inductive PromiseState where
  | pending
  | fulfilled
  | rejected
  deriving DecidableEq, Inhabited

namespace PromiseState

def code : PromiseState → Int32
  | .pending => 0
  | .fulfilled => 1
  | .rejected => 2

def ofCode? (code : Int32) : Option PromiseState :=
  [.pending, .fulfilled, .rejected].find? (·.code = code)

end PromiseState

-- What happens once a promise settles: a handler runs and its outcome settles the
-- derived promise; without a handler for the outcome it is passed on.
structure Reaction where
  onFulfilled : Option ObjectRef := none
  onRejected : Option ObjectRef := none
  derived : ObjectRef
  deriving DecidableEq

namespace Reaction

def handler (r : Reaction) : PromiseState → Option ObjectRef
  | .fulfilled => r.onFulfilled
  | .rejected => r.onRejected
  | .pending => none

def held (r : Reaction) : List Value :=
  (r.onFulfilled.toList ++ r.onRejected.toList ++ [r.derived]).map .object

end Reaction

structure Job where
  reaction : Reaction
  state : PromiseState
  value : Value
  deriving DecidableEq

def Job.held (job : Job) : List Value := job.reaction.held ++ [job.value]

def Job.references (job : Job) : List ObjectRef := job.held.flatMap (·.references)

structure Promise where
  state : PromiseState := .pending
  result : Value := .undefined
  reactions : List Reaction := []
  handled : Bool := false
  locked : Bool := false
  deriving DecidableEq, Inhabited

namespace Promise

-- Settles a pending promise and gives the jobs to queue, one for each reaction in
-- the order of registration. A settled promise is left alone.
def settle (p : Promise) (state : PromiseState) (value : Value) : Option (List Job) × Promise :=
  if p.state ≠ .pending ∨ state = .pending then (none, p)
  else
    (some (p.reactions.map fun reaction => ⟨reaction, state, value⟩),
      { p with state, result := value, reactions := [] })

def react (p : Promise) (reaction : Reaction) (countsAsHandler : Bool) : Option Job × Promise :=
  let p := { p with handled := p.handled || countsAsHandler }
  if p.state = .pending then (none, { p with reactions := p.reactions ++ [reaction] })
  else (some ⟨reaction, p.state, p.result⟩, p)

def held (p : Promise) : List Value := p.result :: p.reactions.flatMap (·.held)

def references (p : Promise) : List ObjectRef := p.held.flatMap (·.references)

end Promise

end HostBoundary
