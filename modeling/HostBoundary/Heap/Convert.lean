import HostBoundary.Heap.Basic
import HostBoundary.Tagged

namespace HostBoundary.Heap

def resolveHandle (h : Heap) : Handle → Option ObjectRef × Heap
  | .transient target => (if h.isAlive target then some target else none, h)
  | .persistent slot => h.target slot

def releaseHandle (h : Heap) : Handle → Bool × Heap
  | .transient _ => (false, h)
  | .persistent slot => h.dispose slot

def toTagged (h : Heap) (flags : Flags) : Value → Except ConversionError Tagged
  | .undefined | .null => .ok .null
  | .boolean b => .ok (.boolean b)
  | .int i => .ok (.int i)
  | .number x => .ok (.ofNumber x)
  | .string units => .ok (.ofUnits flags units)
  | .symbol _ => .error (.unsupported "symbol")
  | .bigint _ => .error (.unsupported "bigint")
  | .object target =>
    match h.kind? target with
    | some kind => .ok (.object kind (.transient target))
    | none => .error .emptyHandle

def ofTagged (h : Heap) : Tagged → Except ConversionError Value × Heap
  | .null => (.ok .null, h)
  | .boolean b => (.ok (.boolean b), h)
  | .int i => (.ok (.int i), h)
  | .uint u => (.ok (.ofInt u.toNat), h)
  | .float x => (.ok (.number x), h)
  | .utf8 text => (.ok (.text text), h)
  | .utf16 units => (.ok (.string units), h)
  | .object _ handle =>
    match h.resolveHandle handle with
    | (some target, h) => (.ok (.object target), h)
    | (none, h) => (.error .emptyHandle, h)

def toTaggedAll (h : Heap) (flags : Flags) (values : List Value) :
    Except ConversionError (List Tagged) :=
  values.mapM (h.toTagged flags)

def ofTaggedAll (h : Heap) : List Tagged → Except ConversionError (List Value) × Heap
  | [] => (.ok [], h)
  | first :: rest =>
    match h.ofTagged first with
    | (.error e, h) => (.error e, h)
    | (.ok value, h) =>
      match ofTaggedAll h rest with
      | (.error e, h) => (.error e, h)
      | (.ok values, h) => (.ok (value :: values), h)

end HostBoundary.Heap
