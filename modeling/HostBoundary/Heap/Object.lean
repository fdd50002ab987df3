import HostBoundary.Callback
import HostBoundary.Heap.Element
import HostBoundary.Heap.Key
import HostBoundary.Heap.Promise

namespace HostBoundary

inductive PropertySlot where
  | data (value : Value)
  | accessor (getter setter : Option CallbackData)
  deriving DecidableEq

structure Property where
  key : Key
  slot : PropertySlot
  enumerable : Bool
  deriving DecidableEq

-- Memory of the host: where it is, which is passed on and never looked into, and what it holds.
structure HostMemory where
  address : Pointer
  bytes : Array UInt8
  deriving DecidableEq

-- The bytes of an array buffer. External memory belongs to the host, who is told
-- through the hook when the engine no longer needs it.
inductive Backing where
  | owned (bytes : Array UInt8)
  | external (memory : HostMemory) (release : Option ReleaseHook)

namespace Backing

def bytes : Backing → Array UInt8
  | .owned bytes => bytes
  | .external memory _ => memory.bytes

def withBytes : Backing → Array UInt8 → Backing
  | .owned _, bytes => .owned bytes
  | .external memory release, bytes => .external { memory with bytes } release

def release? : Backing → Option (ReleaseHook × HostMemory)
  | .owned _ => none
  | .external memory release => release.map (·, memory)

def taken : Backing → Backing
  | .owned bytes => .owned bytes
  | .external memory _ => .external memory none

end Backing

structure TypedArrayView where
  kind : ElementKind
  buffer : ObjectRef
  byteOffset : Nat
  length : Nat
  deriving DecidableEq

structure DataView where
  buffer : ObjectRef
  byteOffset : Nat
  byteLength : Nat
  deriving DecidableEq

inductive FunctionBody where
  | native (data : CallbackData)
  | template (template : TemplateRef)
  deriving DecidableEq

inductive Body where
  | plain
  | error
  | function (body : FunctionBody)
  | array (elements : Array Value)
  | arrayBuffer (backing : Backing)
  | typedArray (view : TypedArrayView)
  | dataView (view : DataView)
  | promise (state : Promise)
  | resolver (target : ObjectRef)

namespace Body

def kind : Body → ObjectKind
  | .plain | .error => .plain
  | .function _ => .function
  | .array _ => .array
  | .arrayBuffer _ => .arrayBuffer
  | .typedArray _ => .typedArray
  | .dataView _ => .dataView
  | .promise _ => .promise
  | .resolver _ => .resolver

def references : Body → List ObjectRef
  | .array elements => elements.toList.flatMap (·.references)
  | .typedArray view => [view.buffer]
  | .dataView view => [view.buffer]
  | .resolver target => [target]
  | .promise state => state.references
  | .plain | .error | .function _ | .arrayBuffer _ => []

end Body

structure HeapObject where
  body : Body
  properties : List Property := []
  prototype : Option ObjectRef := none
  fields : Option Fields := none

instance : Inhabited HeapObject := ⟨{ body := .plain }⟩

namespace HeapObject

def ofBody (body : Body) : HeapObject := { body }

def own? (o : HeapObject) (key : Key) : Option Property := o.properties.find? (·.key = key)

def ownData? (o : HeapObject) (name : String) : Option Value :=
  o.properties.findSome? fun p =>
    match p.key, p.slot with
    | .name text, .data value => if text = name then some value else none
    | _, _ => none

def ownText (o : HeapObject) (name : String) : String :=
  match o.ownData? name with
  | some (.string units) => units.toStringLossy
  | _ => ""

-- Replaces the slot of the first property with that key, which keeps its place and
-- whether it is enumerable; a new key goes to the end.
def defineIn (key : Key) (value : Value) (enumerable : Bool) : List Property → List Property
  | [] => [⟨key, .data value, enumerable⟩]
  | p :: rest =>
    if p.key = key then { p with slot := .data value } :: rest
    else p :: defineIn key value enumerable rest

def define (o : HeapObject) (key : Key) (value : Value) (enumerable : Bool) : HeapObject :=
  { o with properties := defineIn key value enumerable o.properties }

def defineHidden (o : HeapObject) (name : String) (value : Value) : HeapObject :=
  o.define (.name name) value false

def references (o : HeapObject) : List ObjectRef :=
  (o.properties.flatMap fun p =>
    match p.slot with
    | .data value => value.references
    | .accessor _ _ => []) ++ o.prototype.toList ++ o.body.references

end HeapObject

-- The shape of a class. Function and prototype are there once the class has been
-- used; from then on no member can be added.
structure Template where
  className : Option String := none
  constructor : Option CallbackData := none
  parent : Option TemplateRef := none
  fieldCount : Nat := 0
  accessors : List (String × Option CallbackData × Option CallbackData) := []
  methods : List (String × CallbackData) := []
  function : Option ObjectRef := none
  prototype : Option ObjectRef := none
  deriving DecidableEq, Inhabited

end HostBoundary
