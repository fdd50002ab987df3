import HostBoundary.Document.Reader

namespace HostBoundary.Document

open Reader

-- Reading past a value that nobody wants. Only its shape is checked: numbers may be out
-- of range, texts may hold unpaired surrogates, and nesting has no limit.
namespace Skip

def exponent : Reader Unit := do
  skip
  match ← peek with
  | some byte => if byte = byteOf '+' ∨ byte = byteOf '-' then skip
  | none => pure ()
  match ← next with
  | some byte => if !isDigitByte byte then fail .invalidNumber
  | none => fail .invalidNumber
  discard (run isDigitByte)

def isExponentMark (byte : Option UInt8) : Bool :=
  byte = some (byteOf 'e') || byte = some (byteOf 'E')

def fraction : Reader Unit := do
  skip
  if (← run isDigitByte).isEmpty then failNext .invalidNumber
  if isExponentMark (← peek) then exponent

def number : Reader Unit := do
  match ← next with
  | none => fail .invalidNumber
  | some first =>
    if !isDigitByte first then fail .invalidNumber
    if first = byteOf '0' then
      match ← peek with
      | some byte => if isDigitByte byte then failNext .invalidNumber
      | none => pure ()
    else discard (run isDigitByte)
    let after ← peek
    if after = some (byteOf '.') then fraction
    else if isExponentMark after then exponent

def escapeMarks : List Char := ['"', '\\', '/', 'b', 'f', 'n', 'r', 't']

def escape : Reader Unit := do
  match ← next with
  | none => fail .endInString
  | some byte =>
    let c := Char.ofNat byte.toNat
    if c = 'u' then discard hexUnit
    else unless escapeMarks.contains c do fail .invalidEscape

def string : Nat → Reader Unit
  | 0 => fail .endInString
  | fuel + 1 => do
    discard (run fun byte => byte != byteOf '"' && byte != byteOf '\\' && 0x20 ≤ byte)
    match ← peek with
    | none => fail .endInString
    | some byte =>
      if byte = byteOf '"' then skip
      else if byte = byteOf '\\' then
        skip
        escape
        string fuel
      else fail .controlCharacter

def key (fuel : Nat) : Reader Unit := do
  match ← peekSolid with
  | none => failNext .endInObject
  | some byte =>
    if byte ≠ byteOf '"' then failNext .keyNotString
    skip
    string fuel
    colon

mutual

def value : Nat → Reader Unit
  | 0 => fail .endInValue
  | fuel + 1 => do
    match ← peekSolid with
    | none => failNext .endInValue
    | some byte =>
      match Char.ofNat byte.toNat with
      | 'n' => skip; word ['u', 'l', 'l']
      | 't' => skip; word ['r', 'u', 'e']
      | 'f' => skip; word ['a', 'l', 's', 'e']
      | '-' => skip; number
      | '"' => skip; string (fuel + 1)
      | '[' => skip; items fuel true
      | '\x7b' => skip; entries fuel true
      | _ => if isDigitByte byte then number else failNext .expectedValue

def items : Nat → Bool → Reader Unit
  | 0, _ => fail .endInList
  | fuel + 1, first => do
    match ← peekSolid with
    | none => failNext .endInList
    | some byte =>
      if byte = byteOf ']' then skip
      else
        if !first then
          if byte ≠ byteOf ',' then failNext .expectedListEnd
          skip
        value fuel
        items fuel false

def entries : Nat → Bool → Reader Unit
  | 0, _ => fail .endInObject
  | fuel + 1, first => do
    match ← peekSolid with
    | none => failNext .endInObject
    | some byte =>
      if byte = byteOf '\x7d' then skip
      else
        if !first then
          if byte ≠ byteOf ',' then failNext .expectedObjectEnd
          skip
        key (fuel + 1)
        value fuel
        entries fuel false

end

end Skip

end HostBoundary.Document
