import HostBoundary.Heap.Display

namespace HostBoundary.Heap

-- Numbers that are array indices are keys of their own; all else goes by its text.
def keyOf (h : Heap) : Value → Key
  | .int i =>
    if 0 ≤ i.toInt then .index (UInt32.ofNat i.toInt.toNat) else .ofName (toString i.toInt)
  | .number x =>
    if x.isIntegral && 0 ≤ x.trunc && x.trunc < Key.maxIndex then
      .index (UInt32.ofNat x.trunc.toNat)
    else .ofName x.text
  | .string units => .ofName units.toStringLossy
  | other => .ofName (h.display other)

def maxPrototypes : Nat := 65

def lengthValue (n : Nat) : Value := .ofInt n

def elementBytes (h : Heap) (view : TypedArrayView) (index : Nat) : Option (List UInt8) :=
  match h.body? view.buffer with
  | some (.arrayBuffer backing) =>
    let start := view.byteOffset + index * view.kind.size
    if start + view.kind.size ≤ backing.bytes.size then
      some (backing.bytes.extract start (start + view.kind.size)).toList
    else none
  | _ => none

def computed? (h : Heap) (object : HeapObject) (key : Key) : Option Value :=
  match object.body, key with
  | .array elements, .index n => elements[n.toNat]?
  | .array elements, .name "length" => some (lengthValue elements.size)
  | .typedArray view, .index n =>
    if view.length ≤ n.toNat then some .undefined
    else (h.elementBytes view n.toNat).map (Element.decode view.kind)
  | .typedArray view, .name "length" => some (lengthValue view.length)
  | .arrayBuffer backing, .name "byteLength" => some (lengthValue backing.bytes.size)
  | .dataView view, .name "byteLength" => some (lengthValue view.byteLength)
  | .dataView view, .name "byteOffset" => some (lengthValue view.byteOffset)
  | _, _ => none

inductive Found where
  | value (v : Value)
  | getter (data : CallbackData)
  | missing
  deriving DecidableEq

def foundIn (h : Heap) (object : HeapObject) (key : Key) : Option Found :=
  match h.computed? object key with
  | some v => some (.value v)
  | none => (object.own? key).map fun property =>
    match property.slot with
    | .data v => .value v
    | .accessor (some getter) _ => .getter getter
    | .accessor none _ => .value .undefined

def lookupFrom (h : Heap) (key : Key) : Nat → Option ObjectRef → Found
  | 0, _ | _, none => .missing
  | steps + 1, some r =>
    match h.object? r with
    | none => .missing
    | some object =>
      match h.foundIn object key with
      | some found => found
      | none => lookupFrom h key steps object.prototype

def lookup (h : Heap) (r : ObjectRef) (key : Key) : Found := h.lookupFrom key maxPrototypes (some r)

-- What writing a property comes to: running a setter, nothing, or a property of the
-- object's own.
inductive StorePlan where
  | setter (data : CallbackData)
  | readOnly
  | define
  deriving DecidableEq

def storePlanFrom (h : Heap) (key : Key) : Nat → Option ObjectRef → StorePlan
  | 0, _ | _, none => .define
  | steps + 1, some r =>
    match h.object? r with
    | none => .define
    | some object =>
      match object.own? key with
      | some ⟨_, .accessor _ (some setter), _⟩ => .setter setter
      | some ⟨_, .accessor _ none, _⟩ => .readOnly
      | some ⟨_, .data _, _⟩ => .define
      | none => storePlanFrom h key steps object.prototype

def storePlan (h : Heap) (r : ObjectRef) (key : Key) : StorePlan :=
  h.storePlanFrom key maxPrototypes (some r)

def resize (elements : Array Value) (length : Nat) : Array Value :=
  elements.take length ++ Array.replicate (length - elements.size) .undefined

def lengthOf? (h : Heap) (x : Binary64) : Option Nat :=
  if x.isIntegral && 0 ≤ x.trunc && x.trunc ≤ h.limits.maxArrayLength then some x.trunc.toNat
  else none

def storeElement (h : Heap) (view : TypedArrayView) (index : Nat) (value : Value) : Heap :=
  if view.length ≤ index then h
  else
    h.modifyObject view.buffer fun object =>
      match object.body with
      | .arrayBuffer backing =>
        let start := view.byteOffset + index * view.kind.size
        if start + view.kind.size ≤ backing.bytes.size then
          let bytes := Element.encode view.kind value.toNumber
          { object with body := .arrayBuffer (backing.withBytes
              (bytes.zipIdx.foldl (fun all (byte, i) => all.setIfInBounds (start + i) byte)
                backing.bytes)) }
        else object
      | _ => object

-- Writes a property of the object's own. Refused are an array index or length beyond the
-- limit, and a length that is none.
def storeOwn (h : Heap) (r : ObjectRef) (key : Key) (value : Value) : Option Heap :=
  match h.object? r with
  | none => some h
  | some object =>
    match object.body, key with
    | .array elements, .index n =>
      if h.limits.maxArrayLength ≤ n.toNat then none
      else
        let room := if elements.size ≤ n.toNat then resize elements (n.toNat + 1) else elements
        some (h.modifyObject r ({ · with body := .array (room.setIfInBounds n.toNat value) }))
    | .array elements, .name "length" =>
      (h.lengthOf? value.toNumber).map fun length =>
        h.modifyObject r ({ · with body := .array (resize elements length) })
    | .typedArray view, .index n => some (h.storeElement view n.toNat value)
    | _, _ => some (h.modifyObject r (·.define key value true))

-- Indices in ascending order, then names in the order they were first set. Hidden
-- properties do not count.
def ownNames (object : HeapObject) : List Value :=
  let shown := object.properties.filter (·.enumerable)
  let elements := match object.body with
    | .array elements => elements.size
    | .typedArray view => view.length
    | _ => 0
  let indices := (shown.filterMap (·.key.index?)).mergeSort (· ≤ ·)
  let names := shown.filter (·.key.index?.isNone)
  (List.range elements).map (fun i => Value.text (toString i)) ++
    indices.map (fun n => Key.toValue (.index n)) ++ names.map (·.key.toValue)

def ownNames? (h : Heap) (r : ObjectRef) : Option (List Value) := (h.object? r).map ownNames

def arrayLength? (h : Heap) (r : ObjectRef) : Option Nat :=
  match h.body? r with
  | some (.array elements) => some elements.size
  | _ => none

inductive FieldIndex where
  | data
  | extra
  deriving DecidableEq

def field? (h : Heap) (r : ObjectRef) (i : FieldIndex) : Option Pointer :=
  ((h.object? r).bind (·.fields)).map fun fields =>
    match i with
    | .data => fields.data
    | .extra => fields.extra

def setField (h : Heap) (r : ObjectRef) (i : FieldIndex) (word : Pointer) : Bool × Heap :=
  if ((h.object? r).bind (·.fields)).isSome then
    (true, h.modifyObject r fun object =>
      { object with fields := object.fields.map fun fields =>
          match i with
          | .data => { fields with data := word }
          | .extra => { fields with extra := word } })
  else (false, h)

end HostBoundary.Heap
