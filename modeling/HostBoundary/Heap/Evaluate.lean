import HostBoundary.Document.Script
import HostBoundary.Heap.Failure

namespace HostBoundary.Heap

def numberValue : Document → Value
  | .integer n => .ofInt n
  | .float x => .number x
  | _ => .undefined

mutual

def ofDocument (h : Heap) : Document → Value × Heap
  | .null => (.null, h)
  | .boolean b => (.boolean b, h)
  | .integer n => (numberValue (.integer n), h)
  | .float x => (numberValue (.float x), h)
  | .text s => (.text s, h)
  | .array items =>
    let (elements, h) := ofItems h items
    let (r, h) := h.allocate (.ofBody (.array elements.toArray))
    (.object r, h)
  | .object entries =>
    let (object, h) := ofEntries h (.ofBody .plain) entries
    let (r, h) := h.allocate object
    (.object r, h)

def ofItems (h : Heap) : List Document → List Value × Heap
  | [] => ([], h)
  | item :: rest =>
    let (value, h) := ofDocument h item
    let (values, h) := ofItems h rest
    (value :: values, h)

def ofEntries (h : Heap) (object : HeapObject) : List (String × Document) → HeapObject × Heap
  | [] => (object, h)
  | (key, entry) :: rest =>
    let (value, h) := ofDocument h entry
    ofEntries h (object.define (.ofName key) value true) rest

end

def execute (h : Heap) (source : Units) (resource : String) (startLine : Int) :
    Except Throw Value × Heap :=
  match Script.parse source.toStringLossy resource startLine with
  | .ok document =>
    let (value, h) := h.ofDocument document
    (.ok value, h)
  | .error fault =>
    let (value, h) := h.newError .syntaxError fault.description
    (.error { value, text := fault.text, location := some fault.location, stack := some fault.stack },
      h)

def newArray (h : Heap) (length : Nat) : ObjectRef × Heap :=
  h.allocate (.ofBody (.array (Array.replicate (min length h.limits.maxArrayLength) .undefined)))

def newObject (h : Heap) : ObjectRef × Heap := h.allocate (.ofBody .plain)

def fresh (limits : HeapLimits) : Heap :=
  let (global, h) := ({ limits } : Heap).allocate (.ofBody .plain)
  { h with global := some global }

end HostBoundary.Heap
