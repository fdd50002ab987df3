import HostBoundary.Number.Binary

namespace HostBoundary

structure Decimal where
  coefficient : Nat
  exponent : Int
  deriving DecidableEq, Repr

inductive Tie where
  | up
  | even
  deriving DecidableEq, Repr

namespace Decimal

def ratio (d : Decimal) : Nat × Nat :=
  if d.exponent < 0 then (d.coefficient, Nat.pow 10 d.exponent.natAbs)
  else (d.coefficient * Nat.pow 10 d.exponent.natAbs, 1)

def stripZeros (digits : Nat) (d : Decimal) : Decimal :=
  match digits with
  | 0 => d
  | more + 1 =>
    if d.coefficient % 10 = 0 then stripZeros more ⟨d.coefficient / 10, d.exponent + 1⟩ else d

end Decimal

def digitCount (n : Nat) : Nat := (Nat.toDigits 10 n).length

namespace Binary64

def gap (x : Binary64) : Nat := Nat.pow 2 (x.exponent - 1)

-- Whether `d` rounds to the positive finite number `x`. Bounds are counted in
-- quarters of the unit; below a power of two the neighbour is half as far away.
-- A bound itself rounds to the even one of its two neighbours.
def roundsTo (x : Binary64) (d : Decimal) : Bool :=
  let below := if x.fraction = 0 ∧ 1 < x.exponent then x.gap else 2 * x.gap
  let (num, den) := d.ratio
  let point := num * 4 * one
  let low := (4 * x.magnitude - below) * den
  let high := (4 * x.magnitude + 2 * x.gap) * den
  if x.fraction % 2 = 0 then low ≤ point && point ≤ high
  else low < point && point < high

def decimalPlace (x : Binary64) : Int :=
  if one ≤ x.magnitude then digitCount (x.magnitude / one)
  else 1 - (digitCount (one / x.magnitude) : Int)

def candidate (x : Binary64) (tie : Tie) (count : Nat) : Option Decimal :=
  let exponent := x.decimalPlace - count
  let (num, den) :=
    if exponent < 0 then (x.magnitude * Nat.pow 10 exponent.natAbs, one)
    else (x.magnitude, one * Nat.pow 10 exponent.natAbs)
  let lower : Decimal := ⟨num / den, exponent⟩
  let upper : Decimal := ⟨num / den + 1, exponent⟩
  let rest := 2 * (num % den)
  match x.roundsTo lower, x.roundsTo upper with
  | true, false => some lower
  | false, true => some upper
  | false, false => none
  | true, true =>
    if rest < den then some lower
    else if den < rest then some upper
    else match tie with
      | .up => some upper
      | .even => if lower.coefficient % 2 = 0 then some lower else some upper

-- The fewest digits that round to `x`, for a positive finite `x`. Seventeen always do.
def shortest (x : Binary64) (tie : Tie) : Decimal :=
  let found := ((List.range 17).map (· + 1)).findSome? (x.candidate tie)
  (found.getD ⟨0, 0⟩).stripZeros 17

end Binary64

-- How decimals are laid out: where two shortest candidates tie, the power of ten of
-- the first digit from `low` up to but not including `high` that is written without
-- an exponent (`none`: always), and whether an integer keeps a point and a zero.
structure DecimalLayout where
  tie : Tie
  positional : Option (Int × Int)
  point : Bool

namespace DecimalLayout

def zeros (count : Nat) : String := String.ofList (List.replicate count '0')

def plain (layout : DecimalLayout) (digits : String) (place : Int) : String :=
  if place ≤ 0 then "0." ++ zeros place.natAbs ++ digits
  else if digits.length ≤ place.toNat then
    digits ++ zeros (place.toNat - digits.length) ++ (if layout.point then ".0" else "")
  else
    String.ofList (digits.toList.take place.toNat) ++ "." ++
      String.ofList (digits.toList.drop place.toNat)

def scientific (digits : String) (power : Int) : String :=
  let rest := digits.toList.drop 1
  let mantissa :=
    String.ofList (digits.toList.take 1) ++ (if rest.isEmpty then "" else "." ++ String.ofList rest)
  mantissa ++ (if power < 0 then "e-" else "e+") ++ toString power.natAbs

def write (layout : DecimalLayout) (x : Binary64) : String :=
  let d := x.shortest layout.tie
  let digits := toString d.coefficient
  let place := d.exponent + digits.length
  let isPlain := match layout.positional with
    | none => true
    | some (low, high) => low ≤ place - 1 && place - 1 < high
  (if x.negative then "-" else "") ++
    (if isPlain then layout.plain digits place else scientific digits (place - 1))

end DecimalLayout

end HostBoundary
