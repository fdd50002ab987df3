import HostBoundary.Heap.Basic

namespace HostBoundary.Heap

-- Lengths and offsets are 64-bit words; a sum or product beyond them is none.
def word? (n : Nat) : Option Nat := if n < 2 ^ 64 then some n else none

def newArrayBuffer (h : Heap) (length : Nat) : ObjectRef × Heap :=
  h.allocate (.ofBody (.arrayBuffer (.owned (Array.replicate length 0))))

def newExternalBuffer (h : Heap) (memory : HostMemory) (release : Option ReleaseHook) :
    ObjectRef × Heap :=
  h.allocate (.ofBody (.arrayBuffer (.external memory release)))

def contents? (h : Heap) (r : ObjectRef) : Option (Array UInt8) :=
  match h.body? r with
  | some (.arrayBuffer backing) => some backing.bytes
  | _ => none

def writeContents (h : Heap) (r : ObjectRef) (offset : Nat) (bytes : List UInt8) : Bool × Heap :=
  match h.contents? r with
  | some all =>
    if offset + bytes.length ≤ all.size then
      (true, h.modifyObject r fun object =>
        match object.body with
        | .arrayBuffer backing =>
          { object with body := .arrayBuffer (backing.withBytes
              (bytes.zipIdx.foldl (fun all (byte, i) => all.setIfInBounds (offset + i) byte)
                backing.bytes)) }
        | _ => object)
    else (false, h)
  | none => (false, h)

-- A typed array starts at a multiple of its element size and ends inside its buffer.
def newTypedArray (h : Heap) (kind : ElementKind) (buffer : ObjectRef) (byteOffset length : Nat) :
    Option ObjectRef × Heap :=
  match h.contents? buffer with
  | none => (none, h)
  | some bytes =>
    match (word? (length * kind.size)).bind fun size => word? (size + byteOffset) with
    | none => (none, h)
    | some stop =>
      if byteOffset % kind.size = 0 ∧ stop ≤ bytes.size then
        let (r, h) := h.allocate (.ofBody (.typedArray ⟨kind, buffer, byteOffset, length⟩))
        (some r, h)
      else (none, h)

def typedArray? (h : Heap) (r : ObjectRef) : Option TypedArrayView :=
  match h.body? r with
  | some (.typedArray view) => some view
  | _ => none

def newDataView (h : Heap) (buffer : ObjectRef) (byteOffset byteLength : Nat) :
    Option ObjectRef × Heap :=
  match h.contents? buffer with
  | none => (none, h)
  | some bytes =>
    match word? (byteOffset + byteLength) with
    | none => (none, h)
    | some stop =>
      if stop ≤ bytes.size then
        let (r, h) := h.allocate (.ofBody (.dataView ⟨buffer, byteOffset, byteLength⟩))
        (some r, h)
      else (none, h)

def dataView? (h : Heap) (r : ObjectRef) : Option DataView :=
  match h.body? r with
  | some (.dataView view) => some view
  | _ => none

end HostBoundary.Heap
