import HostBoundary.Number.Shortest

namespace HostBoundary.Numeral

def digitValue? (c : Char) : Option Nat :=
  if '0' ≤ c ∧ c ≤ '9' then some (c.toNat - '0'.toNat) else none

def isDigit (c : Char) : Bool := (digitValue? c).isSome

def ofDigits (digits : List Char) : Nat :=
  digits.foldl (fun n c => 10 * n + (digitValue? c).getD 0) 0

def splitSign : List Char → Bool × List Char
  | '-' :: rest => (true, rest)
  | '+' :: rest => (false, rest)
  | rest => (false, rest)

def natural? (chars : List Char) : Option Nat :=
  if chars.isEmpty || !chars.all isDigit then none else some (ofDigits chars)

def integer? (low high : Int) (chars : List Char) : Option Int := do
  let (negative, digits) := splitSign chars
  if negative ∧ low = 0 then none
  let n ← natural? digits
  let value : Int := if negative then -n else n
  if low ≤ value ∧ value ≤ high then some value else none

def nearest (negative : Bool) (d : Decimal) : Binary64 :=
  if d.coefficient = 0 then .zero negative
  else if 400 < d.exponent then .infinity negative
  else if d.exponent + digitCount d.coefficient < -400 then .zero negative
  else let (num, den) := d.ratio; .ofRatio negative num den

def exponent? (chars : List Char) : Option Int := do
  let (negative, digits) := splitSign chars
  let n ← natural? digits
  pure (if negative then -n else n)

def decimal? (chars : List Char) : Option Decimal := do
  let whole := chars.takeWhile isDigit
  let afterWhole := chars.dropWhile isDigit
  let (fraction, afterFraction) := match afterWhole with
    | '.' :: rest => (rest.takeWhile isDigit, rest.dropWhile isDigit)
    | rest => ([], rest)
  if whole.isEmpty && fraction.isEmpty then none
  let power ← match afterFraction with
    | [] => some 0
    | mark :: rest => if mark = 'e' ∨ mark = 'E' then exponent? rest else none
  pure ⟨ofDigits (whole ++ fraction), power - fraction.length⟩

def double? (chars : List Char) : Option Binary64 :=
  let (negative, body) := splitSign chars
  let word := String.ofList (body.map Char.toLower)
  if word = "inf" ∨ word = "infinity" then some (.infinity negative)
  else if word = "nan" then some (if negative then Binary64.nan.negate else .nan)
  else (decimal? body).map (nearest negative)

end HostBoundary.Numeral
