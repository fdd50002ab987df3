import HostBoundary.Handle
import HostBoundary.Value

namespace HostBoundary

inductive Tagged where
  | null
  | boolean (b : Bool)
  | int (i : Int32)
  | uint (u : UInt32)
  | float (x : Binary64)
  | utf8 (text : String)
  | utf16 (units : Units)
  | object (kind : ObjectKind) (handle : Handle)
  deriving DecidableEq, Inhabited

inductive ValueType where
  | null
  | boolean
  | int
  | uint
  | float
  | utf8
  | utf16
  | object (kind : ObjectKind)
  deriving DecidableEq

namespace ValueType

def all : List ValueType :=
  [.null, .boolean, .int, .uint, .float, .utf8, .utf16] ++ ObjectKind.all.map .object

def code : ValueType → Int32
  | .null => 0
  | .boolean => 1
  | .int => 2
  | .uint => 3
  | .float => 4
  | .utf8 => 5
  | .utf16 => 6
  | .object kind => kind.code

def ofCode? (code : Int32) : Option ValueType := all.find? (·.code = code)

def isObject : ValueType → Bool
  | .object _ => true
  | _ => false

def name : ValueType → String
  | .null => "Null"
  | .boolean => "Boolean"
  | .int => "Int"
  | .uint => "UInt"
  | .float => "Float"
  | .utf8 => "Utf8String"
  | .utf16 => "Utf16String"
  | .object .plain => "Object"
  | .object kind => kind.name

end ValueType

inductive ConversionError where
  | unsupported (kind : String)
  | unknownValueType (code : Int32)
  | emptyHandle
  | invalidUtf8
  deriving DecidableEq

def ConversionError.name : ConversionError → String
  | .unsupported _ => "Unsupported"
  | .unknownValueType _ => "UnknownValueType"
  | .emptyHandle => "EmptyHandle"
  | .invalidUtf8 => "InvalidUtf8"

def ConversionError.message : ConversionError → String
  | .unsupported kind => s!"engine value of kind {kind} has no boundary representation"
  | .unknownValueType code => s!"unknown value type code {code.toInt}"
  | .emptyHandle => "handle does not reference a live object"
  | .invalidUtf8 => "string payload is not valid UTF-8"

-- Read flags; the lowest bit asks for text as UTF-8.
abbrev Flags := UInt32

def Flags.utf8 (flags : Flags) : Bool := flags &&& 1 != 0

def Flags.ofUtf8 (utf8 : Bool) : Flags := if utf8 then 1 else 0

namespace Tagged

def type : Tagged → ValueType
  | .null => .null
  | .boolean _ => .boolean
  | .int _ => .int
  | .uint _ => .uint
  | .float _ => .float
  | .utf8 _ => .utf8
  | .utf16 _ => .utf16
  | .object kind _ => .object kind

def handle? : Tagged → Option Handle
  | .object _ handle => some handle
  | _ => none

def isNull : Tagged → Bool
  | .null => true
  | _ => false

def bool? : Tagged → Option Bool
  | .boolean b => some b
  | _ => none

def int32? : Tagged → Option Int32
  | .int i => some i
  | .uint u => if u.toNat < 2 ^ 31 then some (Int32.ofNat u.toNat) else none
  | _ => none

def float? : Tagged → Option Binary64
  | .int i => some (.ofInt i.toInt)
  | .uint u => some (.ofNat u.toNat)
  | .float x => some x
  | _ => none

def text? : Tagged → Option String
  | .utf8 text => some text
  | .utf16 units => some units.toStringLossy
  | _ => none

-- A number is an integer exactly where it equals one of 32 bits; negative zero is not one.
def ofNumber (x : Binary64) : Tagged :=
  if x.isIntegral && !(x.isZero && x.negative) && -2 ^ 31 ≤ x.trunc && x.trunc ≤ 2 ^ 31 - 1 then
    .int (Int32.ofInt x.trunc)
  else .float x

def ofUnits (flags : Flags) (units : Units) : Tagged :=
  if flags.utf8 then .utf8 units.toStringLossy else .utf16 units

end Tagged

end HostBoundary
