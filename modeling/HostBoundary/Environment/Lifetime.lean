import HostBoundary.Host
import HostBoundary.Heap.Collect

namespace HostBoundary.Environment

variable {σ : Type}

def addReference (n : EnvironmentId) : Act σ Unit :=
  Act.updateEnvironment n fun env => { env with refCount := env.refCount + 1 }

def destroy (n : EnvironmentId) : Act σ Unit := do
  let env ← Act.environment n
  Act.updateEnvironment n ({ · with destroyed := true, classes := [], anonymous := [] })
  Act.updateEngine env.engine fun engine =>
    if engine.attached = some n then { engine with attached := none } else engine

-- Takes one off the count; the last one destroys the environment. Nothing happens when
-- the count is at zero already.
def release (n : EnvironmentId) : Act σ Unit := do
  let env ← Act.environment n
  if env.refCount ≠ 0 then
    Act.updateEnvironment n ({ · with refCount := env.refCount - 1 })
    if env.refCount = 1 then destroy n

def acquire (n : EnvironmentId) : Act σ Unit :=
  Act.updateEnvironment n fun env =>
    { env with refCount := env.refCount + 1, owners := env.owners + 1 }

-- An engine that nobody holds any more goes, and gives back the host memory of the
-- buffers that are still there.
def reap (host : Host σ) (e : EngineId) : Act σ Unit := do
  let w ← get
  if !(w.engine e).dropped && !w.isHeld e then
    Act.updateEngine e ({ · with dropped := true })
    let releases ← Act.onHeap e (·.drainReleases)
    releases.forM fun (hook, memory) => host.release hook memory

def drop (host : Host σ) (n : EnvironmentId) : Act σ Unit := do
  release n
  Act.updateEnvironment n fun env => { env with owners := env.owners - 1 }
  reap host (← Act.environment n).engine

def attach (e : EngineId) : Act σ EnvironmentId := do
  match ((← get).engine e).attached with
  | some n =>
    acquire n
    pure n
  | none =>
    let n ← modifyGet fun w => w.addEnvironment { engine := e }
    Act.updateEngine e ({ · with dispatcher := some n, attached := some n })
    acquire n
    pure n

def teardown (e : EngineId) : Act σ Unit := do
  match ((← get).engine e).attached with
  | none => pure ()
  | some n =>
    let env ← Act.environment n
    unless env.tornDown do
      Act.updateEnvironment n ({ · with tornDown := true })
      release n

def negotiate (e : EngineId) (version : Int32) : Act σ (Option ForeignEnvironment) :=
  if Surface.isSupported version then do
    return some ⟨← attach e, .ofVersion version⟩
  else pure none

end HostBoundary.Environment
