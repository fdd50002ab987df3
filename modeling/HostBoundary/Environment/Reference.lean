import HostBoundary.Environment.Conversion

namespace HostBoundary.Environment

variable {σ : Type}

def objectType (n : EnvironmentId) (object : Handle) : Act σ ValueType := do
  return ((← inspect n object (·.kind?)).map .object).getD .null

def newReference (n : EnvironmentId) (object : Handle) : Act σ (Option Handle) := do
  let some r ← resolve n object | return none
  return (← onHeap n (·.persist r)).map .persistent

-- Makes a persistent handle weak. It stays the same handle, and resolves while its
-- target is there.
def makeWeak (n : EnvironmentId) (handle : Handle) (hook : Option ReclaimHook) :
    Act σ (Option Handle) := do
  match handle with
  | .transient _ => return none
  | .persistent slot =>
    if ← onHeap n (·.weaken slot hook) then return some handle else return none

def newWeakReference (n : EnvironmentId) (object : Handle) (hook : Option ReclaimHook) :
    Act σ (Option Handle) := do
  let some strong ← newReference n object | return none
  makeWeak n strong hook

def releaseHandle (n : EnvironmentId) (handle : Handle) : Act σ Bool :=
  onHeap n (·.releaseHandle handle)

def field (n : EnvironmentId) (i : Heap.FieldIndex) (object : Handle) : Act σ Pointer := do
  return (← inspect n object (·.field? · i)).getD 0

def setField (n : EnvironmentId) (i : Heap.FieldIndex) (object : Handle) (word : Pointer) :
    Act σ Bool := do
  let some r ← resolve n object | return false
  onHeap n (·.setField r i word)

end HostBoundary.Environment
