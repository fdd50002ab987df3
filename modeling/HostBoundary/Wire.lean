import HostBoundary.Tagged

namespace HostBoundary

inductive Payload where
  | word (w : UInt64)
  | octets (bytes : List UInt8)
  | units (text : Units)
  deriving DecidableEq

namespace Payload

def toOctets : Payload → List UInt8
  | .word _ => []
  | .octets bytes => bytes
  | .units text => text.flatMap fun u => [UInt8.ofNat u.toNat, UInt8.ofNat (u.toNat / 256)]

def pairOctets : List UInt8 → Units
  | low :: high :: rest => UInt16.ofNat (low.toNat + 256 * high.toNat) :: pairOctets rest
  | _ => []

def toUnits : Payload → Units
  | .word _ => []
  | .octets bytes => pairOctets bytes
  | .units text => text

def toWord : Payload → UInt64
  | .word w => w
  | _ => 0

end Payload

-- A tagged value in its fixed layout. `length` counts the bytes or units of a text;
-- a text built here owns its buffer, which ends in a zero that is not counted.
structure WireValue where
  type : Int32
  ownsBuffer : Bool
  length : Nat
  payload : Payload
  deriving DecidableEq

namespace WireValue

def null : WireValue := ⟨ValueType.null.code, false, 0, .word 0⟩

private def scalar (type : ValueType) (w : UInt64) : WireValue := ⟨type.code, false, 0, .word w⟩

def ofTagged : Tagged → WireValue
  | .null => null
  | .boolean b => scalar .boolean b.toUInt64
  | .int i => scalar .int i.toUInt32.toUInt64
  | .uint u => scalar .uint u.toUInt64
  | .float x => scalar .float x.bits
  | .utf8 text =>
    let bytes := text.toUTF8.toList
    ⟨ValueType.utf8.code, true, bytes.length, .octets (bytes ++ [0])⟩
  | .utf16 units => ⟨ValueType.utf16.code, true, units.length, .units (units ++ [0])⟩
  | .object kind handle => scalar (.object kind) handle.raw

def toTagged (v : WireValue) : Except ConversionError Tagged :=
  let w := v.payload.toWord
  match ValueType.ofCode? v.type with
  | none => .error (.unknownValueType v.type)
  | some .null => .ok .null
  | some .boolean => .ok (.boolean (w.toUInt8 != 0))
  | some .int => .ok (.int w.toUInt32.toInt32)
  | some .uint => .ok (.uint w.toUInt32)
  | some .float => .ok (.float ⟨w⟩)
  | some .utf8 =>
    match String.fromUTF8? ⟨(v.payload.toOctets.take v.length).toArray⟩ with
    | some text => .ok (.utf8 text)
    | none => .error .invalidUtf8
  | some .utf16 => .ok (.utf16 (v.payload.toUnits.take v.length))
  | some (.object kind) =>
    match Handle.ofRaw? w with
    | some handle => .ok (.object kind handle)
    | none => .error .emptyHandle

def release (_ : WireValue) : WireValue := null

end WireValue

end HostBoundary
