import HostBoundary.Number.Numeral
import HostBoundary.Text.Blank
import HostBoundary.Value

namespace HostBoundary

def numberLayout : DecimalLayout := ⟨.up, none, false⟩

def Binary64.text (x : Binary64) : String :=
  if x.isNaN then "NaN"
  else if x.isInfinite then (if x.negative then "-Infinity" else "Infinity")
  else if x.isZero then "0"
  else numberLayout.write x

def Units.toNumber (units : Units) : Binary64 :=
  match Text.trim units.toStringLossy.toList with
  | [] => .zero false
  | chars => (Numeral.double? chars).getD .nan

def Value.toNumber : Value → Binary64
  | .undefined => .nan
  | .null => .zero false
  | .boolean b => .ofNat b.toNat
  | .int i => .ofInt i.toInt
  | .number x => x
  | .string units => units.toNumber
  | .symbol _ => .nan
  | .bigint n => .ofInt n.toInt
  | .object _ => .nan

end HostBoundary
