import HostBoundary.Directory
import HostBoundary.Foreign.Context
import HostBoundary.Heap.Convert
import HostBoundary.Session.Answer

namespace HostBoundary.Session

inductive Binding where
  | handle (h : Handle)
  | value (v : Tagged)
  | klass (c : ClassId)
  | template (t : TemplateRef)
  deriving DecidableEq

structure Holding where
  environment : EnvironmentId
  surface : Surface := .full
  plain : Bool := true
  deriving DecidableEq

inductive Caller where
  | native (environment : EnvironmentId)
  | foreign (env : ForeignEnvironment)
  deriving DecidableEq

structure Frame where
  caller : Caller
  this : Option Handle
  args : List Tagged
  deriving DecidableEq

structure State where
  engine : EngineId := ⟨0⟩
  bindings : Directory Binding := []
  environments : Directory Holding := []
  foreigners : Directory ForeignEnvironment := []
  frame : Option Frame := none
  events : List Event := []

abbrev Run := Act State

abbrev Attempt := ExceptT StepError Run

namespace Run

def state : Run State := return (← get).host

def update (f : State → State) : Run Unit := modify fun w => { w with host := f w.host }

def record (event : Event) : Run Unit := update fun s => { s with events := s.events ++ [event] }

def slotTarget (slot : PersistentRef) : Run (Option ObjectRef) := do
  Act.onHeap (← state).engine (·.target slot)

def inFrame {α : Type} (frame : Option Frame) (act : Run α) : Run α := do
  let before := (← state).frame
  update ({ · with frame })
  let result ← act
  update ({ · with frame := before })
  return result

def withEvents {α : Type} (act : Run α) : Run (α × List Event) := do
  let before := (← state).events
  update ({ · with events := [] })
  let result ← act
  let events := (← state).events
  update ({ · with events := before })
  return (result, events)

end Run

namespace State

def local? (s : State) (name : String) : Option Tagged := do
  let frame ← s.frame
  if name = "this" then frame.this.map (.object .plain)
  else
    match name.toList with
    | '$' :: digits => frame.args[← Numeral.natural? digits]?
    | _ => none

def binding? (s : State) (name : String) : Option Binding :=
  ((s.local? name).map .value) <|> s.bindings.find? name

def holding? (s : State) (name : Option String) : Option Holding :=
  match name, s.frame with
  | none, some { caller := .native environment, .. } => some { environment }
  | none, _ => s.environments.find? "env"
  | some name, _ => s.environments.find? name

-- The environment whose exception slot is shown: that of the running routine, else the
-- one called `env`, else that of the first foreign handle by name.
def shown? (s : State) : Option EnvironmentId :=
  match s.frame with
  | some { caller := .native environment, .. } => some environment
  | some { caller := .foreign env, .. } => some env.environment
  | none =>
    (s.environments.find? "env").map (·.environment) <|> s.foreigners.head?.map (·.2.environment)

end State

end HostBoundary.Session
