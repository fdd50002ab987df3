import HostBoundary.Number.Power

namespace HostBoundary

def roundHalfEven (num den : Nat) : Nat :=
  let quotient := num / den
  let rest := num % den
  if 2 * rest < den then quotient
  else if den < 2 * rest then quotient + 1
  else quotient + quotient % 2

-- A binary interchange format: `fraction` bits of stored significand, values in
-- multiples of `2 ^ -scale`, and the exponent field `top` for what is not finite.
structure BinaryFormat where
  fraction : Nat
  scale : Nat
  top : Nat

namespace BinaryFormat

def double : BinaryFormat := ⟨52, 1074, 2047⟩

def single : BinaryFormat := ⟨23, 149, 255⟩

def infinity (f : BinaryFormat) : Nat := f.top * Nat.pow 2 f.fraction

def signBit (f : BinaryFormat) : Nat := (f.top + 1) * Nat.pow 2 f.fraction

-- Exponent and fraction fields of the value nearest to `num / den`, ties to even.
-- With `shift` low bits dropped the kept significand has at most one bit more than
-- the fraction; adding it to the shift as a field makes the hidden bit, a carry out
-- of the rounding and the step from subnormal to normal numbers all come out right.
def round (f : BinaryFormat) (num den : Nat) : Nat :=
  let scaled := num * Nat.pow 2 f.scale
  let shift := (scaled / den).log2 - f.fraction
  min (shift * Nat.pow 2 f.fraction + roundHalfEven scaled (den * Nat.pow 2 shift)) f.infinity

def magnitude (f : BinaryFormat) (word : Nat) : Nat :=
  let exponent := word / Nat.pow 2 f.fraction % (f.top + 1)
  let fraction := word % Nat.pow 2 f.fraction
  if exponent = 0 then fraction else (Nat.pow 2 f.fraction + fraction) * Nat.pow 2 (exponent - 1)

end BinaryFormat

structure Binary64 where
  bits : UInt64
  deriving DecidableEq, Inhabited, Repr

namespace Binary64

def nan : Binary64 := ⟨0x7FF8000000000000⟩

def negative (x : Binary64) : Bool := 2 ^ 63 ≤ x.bits.toNat

def exponent (x : Binary64) : Nat := x.bits.toNat / 2 ^ 52 % 2048

def fraction (x : Binary64) : Nat := x.bits.toNat % 2 ^ 52

def isFinite (x : Binary64) : Bool := x.exponent != 2047

def isNaN (x : Binary64) : Bool := x.exponent == 2047 && x.fraction != 0

def isInfinite (x : Binary64) : Bool := x.exponent == 2047 && x.fraction == 0

def one : Nat := 2 ^ 1074

def magnitude (x : Binary64) : Nat := BinaryFormat.double.magnitude x.bits.toNat

def scaled (x : Binary64) : Int :=
  if x.negative then -(x.magnitude : Int) else x.magnitude

def isZero (x : Binary64) : Bool := x.isFinite && x.magnitude == 0

def ofFields (negative : Bool) (fields : Nat) : Binary64 :=
  ⟨UInt64.ofNat ((if negative then 2 ^ 63 else 0) + fields)⟩

def ofRatio (negative : Bool) (num den : Nat) : Binary64 :=
  ofFields negative (BinaryFormat.double.round num den)

def ofNat (n : Nat) : Binary64 := ofRatio false n 1

def ofInt (n : Int) : Binary64 := ofRatio (n < 0) n.natAbs 1

def zero (negative : Bool) : Binary64 := ofFields negative 0

def infinity (negative : Bool) : Binary64 := ofFields negative BinaryFormat.double.infinity

def negate (x : Binary64) : Binary64 := ⟨x.bits ^^^ 0x8000000000000000⟩

def mul (x y : Binary64) : Binary64 :=
  ofRatio (x.negative != y.negative) (x.magnitude * y.magnitude) (one * one)

def div (x y : Binary64) : Binary64 :=
  ofRatio (x.negative != y.negative) x.magnitude y.magnitude

def trunc (x : Binary64) : Int :=
  if x.isFinite then x.scaled.tdiv one else 0

def isIntegral (x : Binary64) : Bool := x.isFinite && x.magnitude % one == 0

def clampRound (top : Nat) (x : Binary64) : Nat :=
  if x.isNaN || x.negative then 0
  else if x.isInfinite then top
  else min top ((2 * x.magnitude + one) / (2 * one))

def toSingle (x : Binary64) : UInt32 :=
  let sign := if x.negative then BinaryFormat.single.signBit else 0
  let fields :=
    if x.isNaN then BinaryFormat.single.infinity + (2 ^ 22 ||| x.fraction / 2 ^ 29)
    else if x.isInfinite then BinaryFormat.single.infinity
    else BinaryFormat.single.round x.magnitude one
  UInt32.ofNat (sign + fields)

def ofSingle (word : UInt32) : Binary64 :=
  let negative := 2 ^ 31 ≤ word.toNat
  let fields := word.toNat % 2 ^ 31
  if fields < BinaryFormat.single.infinity then
    ofRatio negative (BinaryFormat.single.magnitude fields) (2 ^ 149)
  else if fields = BinaryFormat.single.infinity then infinity negative
  else
    let payload := 2 ^ 51 ||| (fields - BinaryFormat.single.infinity) * 2 ^ 29
    ofFields negative (BinaryFormat.double.infinity + payload)

end Binary64

end HostBoundary
