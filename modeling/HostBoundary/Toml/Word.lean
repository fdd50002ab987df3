import HostBoundary.Number.Numeral
import HostBoundary.Text.Hex
import HostBoundary.Toml.Basic

namespace HostBoundary.Toml.Word

def plainDigits? (isDigit : Char → Bool) : List Char → Option (List Char)
  | [] => none
  | [c] => if isDigit c then some [c] else none
  | c :: '_' :: rest => if isDigit c then (plainDigits? isDigit rest).map (c :: ·) else none
  | c :: rest => if isDigit c then (plainDigits? isDigit rest).map (c :: ·) else none

def decimalDigits? (chars : List Char) : Option (List Char) := do
  let digits ← plainDigits? Numeral.isDigit chars
  if digits.head? = some '0' ∧ 1 < digits.length then none else some digits

def radixDigits? (radix : Nat) (chars : List Char) : Option Nat := do
  let inRadix (c : Char) : Bool := (Hex.digit? c).any (· < radix)
  let digits ← plainDigits? inRadix chars
  return digits.foldl (fun n c => radix * n + (Hex.digit? c).getD 0) 0

def integer? (chars : List Char) : Option Int := do
  let value : Int ← match chars with
    | '0' :: 'x' :: rest => (radixDigits? 16 rest).map Int.ofNat
    | '0' :: 'o' :: rest => (radixDigits? 8 rest).map Int.ofNat
    | '0' :: 'b' :: rest => (radixDigits? 2 rest).map Int.ofNat
    | chars => do
      let (negative, body) := Numeral.splitSign chars
      let n := Int.ofNat (Numeral.ofDigits (← decimalDigits? body))
      pure (if negative then -n else n)
  if -2 ^ 63 ≤ value ∧ value < 2 ^ 63 then some value else none

def isExponent (chars : List Char) : Bool :=
  (plainDigits? Numeral.isDigit (Numeral.splitSign chars).2).isSome

def isFraction (body : List Char) : Bool :=
  let inWhole (c : Char) : Bool := Numeral.isDigit c || c = '_'
  let isMark (c : Char) : Bool := c = 'e' || c = 'E'
  (decimalDigits? (body.takeWhile inWhole)).isSome &&
    match body.dropWhile inWhole with
    | '.' :: rest =>
      (plainDigits? Numeral.isDigit (rest.takeWhile inWhole)).isSome &&
        match rest.dropWhile inWhole with
        | [] => true
        | mark :: exponent => isMark mark && isExponent exponent
    | mark :: exponent => isMark mark && isExponent exponent
    | [] => false

-- Whether digits are too large for a double. Only the positive infinity counts: digits
-- below every double stand for the negative one.
def isTooLarge (chars : List Char) : Bool :=
  Numeral.double? (chars.filter (· ≠ '_')) = some (.infinity false)

def isFloat (chars : List Char) : Bool :=
  let body := (Numeral.splitSign chars).2
  body = ['i', 'n', 'f'] || body = ['n', 'a', 'n'] || isFraction body && !isTooLarge chars

def bounded? (width low high : Nat) (chars : List Char) : Option (Nat × List Char) := do
  let digits := chars.take width
  if digits.length ≠ width then none
  let n ← Numeral.natural? digits
  if low ≤ n ∧ n ≤ high then some (n, chars.drop width) else none

def mark? (c : Char) : List Char → Option (List Char)
  | d :: rest => if c = d then some rest else none
  | [] => none

def isLeap (year : Nat) : Bool := year % 4 = 0 && (year % 100 ≠ 0 || year % 400 = 0)

def daysIn (year month : Nat) : Nat :=
  if month = 2 then (if isLeap year then 29 else 28)
  else if [4, 6, 9, 11].contains month then 30
  else 31

def date? (chars : List Char) : Option (List Char) := do
  let (year, chars) ← bounded? 4 0 9999 chars
  let (month, chars) ← bounded? 2 1 12 (← mark? '-' chars)
  let (_, chars) ← bounded? 2 1 (daysIn year month) (← mark? '-' chars)
  return chars

def time? (chars : List Char) : Option (List Char) := do
  let (_, chars) ← bounded? 2 0 23 chars
  let (_, chars) ← bounded? 2 0 59 (← mark? ':' chars)
  let (_, chars) ← bounded? 2 0 60 (← mark? ':' chars)
  match chars with
  | '.' :: fraction =>
    if (fraction.takeWhile Numeral.isDigit).isEmpty then none
    else some (fraction.dropWhile Numeral.isDigit)
  | chars => some chars

def isZone : List Char → Bool
  | ['Z'] => true
  | ['z'] => true
  | sign :: rest =>
    (sign = '+' || sign = '-') &&
      ((do
        let (_, chars) ← bounded? 2 0 23 rest
        let (_, chars) ← bounded? 2 0 59 (← mark? ':' chars)
        return chars.isEmpty) : Option Bool) = some true
  | [] => false

def isMoment (chars : List Char) : Bool :=
  match date? chars with
  | some [] => true
  | some (separator :: rest) =>
    (separator = 'T' || separator = 't' || separator = ' ') &&
      match time? rest with
      | some zone => zone.isEmpty || isZone zone
      | none => false
  | none => time? chars = some []

def scalar? (chars : List Char) : Option Scalar :=
  let text := String.ofList chars
  if text = "true" then some (.boolean true)
  else if text = "false" then some (.boolean false)
  else
    match integer? chars with
    | some n => some (.integer n)
    | none =>
      if isFloat chars then some (.float text)
      else if isMoment chars then some (.moment text)
      else none

end HostBoundary.Toml.Word
