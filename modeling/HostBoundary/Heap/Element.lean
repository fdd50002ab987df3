import HostBoundary.Value

namespace HostBoundary

inductive ElementKind where
  | int8
  | uint8
  | uint8Clamped
  | int16
  | uint16
  | int32
  | uint32
  | bigInt64
  | bigUint64
  | float32
  | float64
  deriving DecidableEq, Repr

namespace ElementKind

def all : List ElementKind :=
  [.int8, .uint8, .uint8Clamped, .int16, .uint16, .int32, .uint32, .bigInt64, .bigUint64,
    .float32, .float64]

def code : ElementKind → Int32
  | .int8 => 0
  | .uint8 => 1
  | .uint8Clamped => 2
  | .int16 => 3
  | .uint16 => 4
  | .int32 => 5
  | .uint32 => 6
  | .bigInt64 => 7
  | .bigUint64 => 8
  | .float32 => 9
  | .float64 => 10

def ofCode? (code : Int32) : Option ElementKind := all.find? (·.code = code)

def size : ElementKind → Nat
  | .int8 | .uint8 | .uint8Clamped => 1
  | .int16 | .uint16 => 2
  | .int32 | .uint32 | .float32 => 4
  | .bigInt64 | .bigUint64 | .float64 => 8

def name : ElementKind → String
  | .int8 => "Int8"
  | .uint8 => "Uint8"
  | .uint8Clamped => "Uint8Clamped"
  | .int16 => "Int16"
  | .uint16 => "Uint16"
  | .int32 => "Int32"
  | .uint32 => "Uint32"
  | .bigInt64 => "BigInt64"
  | .bigUint64 => "BigUint64"
  | .float32 => "Float32"
  | .float64 => "Float64"

end ElementKind

namespace Element

def littleEndian : Nat → Nat → List UInt8
  | 0, _ => []
  | size + 1, n => UInt8.ofNat n :: littleEndian size (n / 256)

def ofLittleEndian : List UInt8 → Nat
  | [] => 0
  | byte :: rest => byte.toNat + 256 * ofLittleEndian rest

def narrow (size : Nat) (n : Int) : List UInt8 := littleEndian size (n % Int.pow 256 size).toNat

def signed (size : Nat) (n : Nat) : Int :=
  if 2 * n < Nat.pow 256 size then n else n - Int.pow 256 size

-- Integers wrap: the number is cut to its integer part, reduced to 32 bits, and
-- narrowed. What is not finite stores zero. The 64-bit kinds saturate instead.
def encode (kind : ElementKind) (x : Binary64) : List UInt8 :=
  match kind with
  | .int8 | .uint8 | .int16 | .uint16 | .int32 | .uint32 =>
    narrow kind.size (x.trunc.tmod (2 ^ 32))
  | .uint8Clamped => narrow 1 (x.clampRound 255)
  | .bigInt64 | .bigUint64 => narrow 8 (max (-2 ^ 63) (min x.trunc (2 ^ 63 - 1)))
  | .float32 => littleEndian 4 x.toSingle.toNat
  | .float64 => littleEndian 8 x.bits.toNat

def decode (kind : ElementKind) (bytes : List UInt8) : Value :=
  let n := ofLittleEndian (bytes.take kind.size)
  match kind with
  | .int8 | .int16 | .int32 => .ofInt (signed kind.size n)
  | .uint8 | .uint8Clamped | .uint16 | .uint32 => .ofInt n
  | .bigInt64 | .bigUint64 => .bigint (Int64.ofInt (signed 8 n))
  | .float32 => .number (.ofSingle (UInt32.ofNat n))
  | .float64 => .number ⟨UInt64.ofNat n⟩

def write (kind : ElementKind) (bytes : List UInt8) (x : Binary64) : List UInt8 :=
  encode kind x ++ bytes.drop kind.size

end Element

end HostBoundary
