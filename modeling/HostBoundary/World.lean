import HostBoundary.Exception
import HostBoundary.Heap.Basic

namespace HostBoundary

structure EngineId where
  index : Nat
  deriving DecidableEq, Inhabited

structure EnvironmentId where
  index : Nat
  deriving DecidableEq, Inhabited

structure ClassId where
  index : Nat
  deriving DecidableEq, Inhabited

-- A class as it was compiled. Classes are told apart by their position, not by name.
structure CompiledClass where
  name : Option String
  template : TemplateRef
  constructible : Bool
  finalizer : Option ReclaimHook
  parent : Option ClassId
  deriving DecidableEq, Inhabited

-- What a host sees of one engine. The count starts at one for the context of the
-- engine, and each reference adds one.
structure Environment where
  engine : EngineId
  exception : Exception := {}
  classes : List (String × ClassId) := []
  anonymous : List ClassId := []
  tables : CallbackTables := {}
  scopeDepth : Nat := 0
  refCount : Nat := 1
  tornDown : Bool := false
  destroyed : Bool := false
  owners : Nat := 0
  running : Nat := 0
  deriving Inhabited

structure Engine where
  heap : Heap
  -- The environment that native calls go to. It is not kept alive by this.
  dispatcher : Option EnvironmentId := none
  attached : Option EnvironmentId := none
  held : Bool := false
  dropped : Bool := false
  deriving Inhabited

-- Everything there is: engines, their environments, the contexts that foreign code
-- knows by number, and the state of the host program.
structure World (σ : Type) where
  engines : Array Engine := #[]
  environments : Array Environment := #[]
  classes : Array CompiledClass := #[]
  contexts : List (UInt64 × EngineId) := []
  nextContext : UInt64 := 1
  host : σ

abbrev Act (σ : Type) := StateM (World σ)

namespace World

variable {σ : Type}

def engine (w : World σ) (e : EngineId) : Engine := w.engines.getD e.index default

def environment (w : World σ) (n : EnvironmentId) : Environment := w.environments.getD n.index default

def class? (w : World σ) (c : ClassId) : Option CompiledClass := w.classes[c.index]?

def modifyEngine (w : World σ) (e : EngineId) (f : Engine → Engine) : World σ :=
  { w with engines := w.engines.modify e.index f }

def modifyEnvironment (w : World σ) (n : EnvironmentId) (f : Environment → Environment) : World σ :=
  { w with environments := w.environments.modify n.index f }

def addEngine (w : World σ) (engine : Engine) : EngineId × World σ :=
  (⟨w.engines.size⟩, { w with engines := w.engines.push engine })

def addEnvironment (w : World σ) (environment : Environment) : EnvironmentId × World σ :=
  (⟨w.environments.size⟩, { w with environments := w.environments.push environment })

def addClass (w : World σ) (compiled : CompiledClass) : ClassId × World σ :=
  (⟨w.classes.size⟩, { w with classes := w.classes.push compiled })

-- An environment is there while a reference, its context or a call holds it.
def isLive (w : World σ) (n : EnvironmentId) : Bool :=
  let environment := w.environment n
  0 < environment.owners || 0 < environment.running ||
    (w.engine environment.engine).attached = some n

-- An engine is there while its maker, a context or an environment holds it.
def isHeld (w : World σ) (e : EngineId) : Bool :=
  (w.engine e).held || w.contexts.any (·.2 = e) ||
    (List.range w.environments.size).any fun i =>
      (w.environment ⟨i⟩).engine = e && w.isLive ⟨i⟩

end World

namespace Act

variable {σ : Type} {α : Type}

def onHeap (e : EngineId) (f : Heap → α × Heap) : Act σ α := fun w =>
  let (result, heap) := f (w.engine e).heap
  (result, w.modifyEngine e ({ · with heap }))

def updateHeap (e : EngineId) (f : Heap → Heap) : Act σ Unit := onHeap e fun h => ((), f h)

def heap (e : EngineId) : Act σ Heap := fun w => ((w.engine e).heap, w)

def environment (n : EnvironmentId) : Act σ Environment := fun w => (w.environment n, w)

def updateEnvironment (n : EnvironmentId) (f : Environment → Environment) : Act σ Unit :=
  modify (·.modifyEnvironment n f)

def updateEngine (e : EngineId) (f : Engine → Engine) : Act σ Unit := modify (·.modifyEngine e f)

def setException (n : EnvironmentId) (exception : Exception) : Act σ Unit :=
  updateEnvironment n ({ · with exception })

end Act

end HostBoundary
