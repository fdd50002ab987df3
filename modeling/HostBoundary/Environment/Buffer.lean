import HostBoundary.Environment.Conversion
import HostBoundary.Heap.View

namespace HostBoundary.Environment

variable {σ : Type}

def elementKind (n : EnvironmentId) (object : Handle) : Act σ (Option ElementKind) := do
  return (← inspect n object (·.typedArray?)).map (·.kind)

def newTypedArray (n : EnvironmentId) (kind : ElementKind) (count : Nat) : Act σ (Option Handle) := do
  if count = 0 then return none
  let some size := Heap.word? (count * kind.size) | return none
  let buffer ← onHeap n (·.newArrayBuffer size)
  allocated? n (·.newTypedArray kind buffer 0 count)

def newTypedArrayOnBuffer (n : EnvironmentId) (kind : ElementKind) (buffer : Handle)
    (offset count : Nat) : Act σ (Option Handle) := do
  let some r ← resolve n buffer | return none
  let some byteOffset := Heap.word? (offset * kind.size) | return none
  allocated? n (·.newTypedArray kind r byteOffset count)

def typedArrayCount (n : EnvironmentId) (object : Handle) : Act σ Nat := do
  return ((← inspect n object (·.typedArray?)).map (·.length)).getD 0

def typedArrayBuffer (n : EnvironmentId) (object : Handle) : Act σ (Option Handle) := do
  return (← inspect n object (·.typedArray?)).map (wrap ·.buffer)

def typedArrayPointer (n : EnvironmentId) (object : Handle) (offset : Nat) : Act σ (Option Nat) :=
  inspect n object fun h r => do
    let view ← h.typedArray? r
    if view.length ≤ offset then none
    else
      discard (h.contents? view.buffer)
      some (view.byteOffset + offset * view.kind.size)

def newDataView (n : EnvironmentId) (buffer : Handle) (offset length : Nat) :
    Act σ (Option Handle) := do
  let some r ← resolve n buffer | return none
  allocated? n (·.newDataView r offset length)

def dataViewLength (n : EnvironmentId) (object : Handle) : Act σ Nat := do
  return ((← inspect n object (·.dataView?)).map (·.byteLength)).getD 0

def dataViewBuffer (n : EnvironmentId) (object : Handle) : Act σ (Option Handle) := do
  return (← inspect n object (·.dataView?)).map (wrap ·.buffer)

def newArrayBuffer (n : EnvironmentId) (length : Nat) : Act σ (Option Handle) := do
  if length = 0 then return none
  return some (← allocated n (·.newArrayBuffer length))

def newExternalArrayBuffer (n : EnvironmentId) (memory : Option (Array UInt8))
    (release : Option ReleaseHook) (address : Pointer) : Act σ (Option Handle) := do
  let some bytes := memory | return none
  return some (← allocated n (·.newExternalBuffer ⟨address, bytes⟩ release))

def contents (n : EnvironmentId) (object : Handle) : Act σ (Option (Array UInt8)) :=
  inspect n object (·.contents?)

def arrayBufferLength (n : EnvironmentId) (object : Handle) : Act σ Nat := do
  return ((← contents n object).map (·.size)).getD 0

def writeContents (n : EnvironmentId) (object : Handle) (offset : Nat) (bytes : List UInt8) :
    Act σ Bool := do
  let some r ← resolve n object | return false
  onHeap n (·.writeContents r offset bytes)

end HostBoundary.Environment
