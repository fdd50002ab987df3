import HostBoundary.Session.Execute

namespace HostBoundary.Session

def maxDepth : Nat := 512

def jobBudget : Nat := 1000000

def routine? (routines : Array Routine) (code : Code) : Option Routine := routines[code.index]?

def program (routines : Array Routine) (code : Code) : Program :=
  match routine? routines code with
  | some (.program p) => p
  | _ => { id := "" }

def runBody (host : Host State) (body : List Step) : Run (List StepAnswer) := body.mapM (runStep host)

def nativeResult (p : Program) : Run (Option Tagged) := do
  match p.result with
  | some (.value term) => return (← (valueOf term).run).toOption
  | _ => return none

def foreignResult (p : Program) : Run WireValue := do
  match p.result with
  | some term =>
    match ← (wireOf term).run with
    | .ok (some value) => return value
    | _ => return .null
  | none => return .null

def runProgram {α : Type} (host : Host State) (p : Program) (frame : Frame)
    (args : List (Except ConversionError Tagged)) (result : Run α) : Run α := do
  let (steps, answer) ← Run.inFrame (some frame) do
    let steps ← runBody host p.body
    return (steps, ← result)
  let version := match frame.caller with
    | .native _ => none
    | .foreign env => some env.surface.version
  Run.record (.callback p.id frame.this args steps version)
  return answer

def runNative (host : Host State) (p : Program) (n : EnvironmentId) (this : Option Handle)
    (args : List Tagged) : Run (Option Tagged) :=
  runProgram host p ⟨.native n, this, args⟩ (args.map .ok) (nativeResult p)

def runForeign (host : Host State) (p : Program) (env : ForeignEnvironment) (this : UInt64)
    (args : List WireValue) : Run (Bool × WireValue) := do
  let args := args.map (·.toTagged)
  runProgram host p ⟨.foreign env, Handle.ofRaw? this, args.filterMap (·.toOption)⟩ args do
    return (p.ok, ← foreignResult p)

def reclaimed (host : Host State) (hook : ReclaimHook) (fields : Fields) : Option Routine → Run Unit
  | some (.finalizer id) => Run.record (.finalize id fields)
  | some (.weak id body) => do
    let steps ← Run.inFrame none (runBody host body)
    Run.record (.weak id hook.userData fields steps)
  | some (.foreignWeak id) => Run.record (.foreignWeak id hook.userData fields)
  | some (.reclaim id) => Run.record (.reclaim id fields)
  | _ => pure ()

def released (hook : ReleaseHook) (bytes : Array UInt8) : Option Routine → Run Unit
  | some (.release id) => Run.record (.release id bytes none)
  | some (.foreignRelease id) => Run.record (.release id bytes (some hook.userData))
  | _ => pure ()

def hostAtDepth (routines : Array Routine) : Nat → Host State
  | 0 => .inert
  | depth + 1 =>
    let inner := hostAtDepth routines depth
    { function code n this args := runNative inner (program routines code) n this args
      getter code n this := runNative inner (program routines code) n (some this) []
      setter code n this value := do
        let p := program routines code
        discard (runNative inner p n (some this) [value])
        return p.ok
      foreignFunction code env this args := runForeign inner (program routines code) env this args
      foreignGetter code env this := runForeign inner (program routines code) env this []
      foreignSetter code env this value := do
        return (← runForeign inner (program routines code) env this [value]).1
      reclaim hook fields := reclaimed inner hook fields (routine? routines hook.code)
      release hook memory := released hook memory.bytes (routine? routines hook.code)
      jobBudget }

def finish (host : Host State) : Run Unit := do
  let s ← Run.state
  s.foreigners.forM fun (_, env) => Foreign.release host env
  s.environments.forM fun (_, holding) => Environment.drop host holding.environment
  Act.updateEngine s.engine ({ · with held := false })
  Environment.reap host s.engine

end HostBoundary.Session

namespace HostBoundary

open Session in
def Session.run (s : Session) : List StepAnswer × List Event :=
  let host := hostAtDepth s.routines maxDepth
  let act : Run (List StepAnswer × List Event) := do
    let engine ← modifyGet (·.addEngine { heap := .fresh s.limits, held := true })
    Run.update ({ · with engine })
    if s.attach then
      let environment ← Environment.attach engine
      discard (store host "env" { environment })
    let answers ← runBody host s.steps
    let (_, events) ← Run.withEvents (finish host)
    return (answers, events)
  (act { host := {} }).1

end HostBoundary
