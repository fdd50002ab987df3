import HostBoundary.Number.Shortest
import HostBoundary.Slot
import HostBoundary.Text.Units

namespace HostBoundary

abbrev Pointer := UInt64

inductive Value where
  | undefined
  | null
  | boolean (b : Bool)
  | int (i : Int32)
  | number (x : Binary64)
  | string (units : Units)
  | symbol (id : UInt32)
  | bigint (n : Int64)
  | object (target : ObjectRef)
  deriving DecidableEq, Inhabited

namespace Value

def text (s : String) : Value := .string (Units.ofString s)

def object? : Value → Option ObjectRef
  | .object target => some target
  | _ => none

def references (v : Value) : List ObjectRef := v.object?.toList

def isNullish : Value → Bool
  | .undefined | .null => true
  | _ => false

-- An integer as an `int` where 32 bits hold it and as a number otherwise.
def ofInt (n : Int) : Value :=
  if -2 ^ 31 ≤ n ∧ n < 2 ^ 31 then .int (Int32.ofInt n) else .number (.ofInt n)

end Value

inductive ObjectKind where
  | plain
  | function
  | array
  | typedArray
  | arrayBuffer
  | dataView
  | promise
  | resolver
  deriving DecidableEq, Repr

namespace ObjectKind

def all : List ObjectKind :=
  [.plain, .function, .array, .typedArray, .arrayBuffer, .dataView, .promise, .resolver]

def name : ObjectKind → String
  | .plain => "Plain"
  | .function => "Function"
  | .array => "Array"
  | .typedArray => "TypedArray"
  | .arrayBuffer => "ArrayBuffer"
  | .dataView => "DataView"
  | .promise => "Promise"
  | .resolver => "Resolver"

def code : ObjectKind → Int32
  | .plain => 7
  | .function => 8
  | .array => 9
  | .typedArray => 10
  | .arrayBuffer => 11
  | .dataView => 12
  | .promise => 13
  | .resolver => 14

end ObjectKind

structure Fields where
  data : Pointer := 0
  extra : Pointer := 0
  deriving DecidableEq, Inhabited

end HostBoundary
