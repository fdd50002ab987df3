import HostBoundary.Document.Basic
import HostBoundary.Number.Numeral
import HostBoundary.Text.Hex
import HostBoundary.Text.Units

namespace HostBoundary.Document

inductive Cause where
  | endInValue
  | endInList
  | endInObject
  | endInString
  | expectedValue
  | expectedWord
  | expectedListEnd
  | expectedObjectEnd
  | expectedColon
  | trailingCharacters
  | trailingComma
  | keyNotString
  | controlCharacter
  | invalidEscape
  | loneSurrogate
  | endOfHexEscape
  | invalidNumber
  | outOfRange
  | tooDeep
  deriving DecidableEq

def Cause.message : Cause → String
  | .endInValue => "EOF while parsing a value"
  | .endInList => "EOF while parsing a list"
  | .endInObject => "EOF while parsing an object"
  | .endInString => "EOF while parsing a string"
  | .expectedValue => "expected value"
  | .expectedWord => "expected ident"
  | .expectedListEnd => "expected `,` or `]`"
  | .expectedObjectEnd => "expected `,` or `\x7d`"
  | .expectedColon => "expected `:`"
  | .trailingCharacters => "trailing characters"
  | .trailingComma => "trailing comma"
  | .keyNotString => "key must be a string"
  | .controlCharacter => "control character (\\u0000-\\u001F) found while parsing a string"
  | .invalidEscape => "invalid escape"
  | .loneSurrogate => "lone leading surrogate in hex escape"
  | .endOfHexEscape => "unexpected end of hex escape"
  | .invalidNumber => "invalid number"
  | .outOfRange => "number out of range"
  | .tooDeep => "recursion limit exceeded"

structure Fault where
  cause : Cause
  offset : Nat
  deriving DecidableEq

structure Cursor where
  rest : List UInt8
  consumed : Nat

abbrev Reader := StateT Cursor (Except Fault)

namespace Reader

def fail {α : Type} (cause : Cause) : Reader α := fun c => .error ⟨cause, c.consumed⟩

def failNext {α : Type} (cause : Cause) : Reader α := fun c =>
  .error ⟨cause, if c.rest.isEmpty then c.consumed else c.consumed + 1⟩

def peek : Reader (Option UInt8) := fun c => .ok (c.rest.head?, c)

def next : Reader (Option UInt8) := fun c =>
  match c.rest with
  | [] => .ok (none, c)
  | byte :: rest => .ok (some byte, ⟨rest, c.consumed + 1⟩)

def skip : Reader Unit := do discard next

def run (p : UInt8 → Bool) : Reader (List UInt8) := fun c =>
  let taken := c.rest.takeWhile p
  .ok (taken, ⟨c.rest.dropWhile p, c.consumed + taken.length⟩)

def isSpace (byte : UInt8) : Bool := byte = 0x20 || byte = 0x09 || byte = 0x0A || byte = 0x0D

def peekSolid : Reader (Option UInt8) := do
  discard (run isSpace)
  peek

end Reader

open Reader

def byteOf (c : Char) : UInt8 := UInt8.ofNat c.toNat

def isDigitByte (byte : UInt8) : Bool := byteOf '0' ≤ byte && byte ≤ byteOf '9'

def digitOf (byte : UInt8) : Nat := byte.toNat - 48

def word : List Char → Reader Unit
  | [] => pure ()
  | c :: rest => do
    match ← next with
    | none => fail .endInValue
    | some byte => if byte = byteOf c then word rest else fail .expectedWord

def maxSignificand : Nat := 2 ^ 64 - 1

-- Integer digits extend the significand until it would no longer fit in 64 bits; from
-- there each one only counts.
def wholeDigits (significand : Nat) : List UInt8 → Nat × Nat
  | [] => (significand, 0)
  | d :: rest =>
    let more := 10 * significand + digitOf d
    if maxSignificand < more then (significand, rest.length + 1) else wholeDigits more rest

def fractionDigits (significand : Nat) (exponent : Int) : List UInt8 → Nat × Int
  | [] => (significand, exponent)
  | d :: rest =>
    let more := 10 * significand + digitOf d
    if maxSignificand < more then (significand, exponent)
    else fractionDigits more (exponent - 1) rest

def maxExponent : Int := 2 ^ 31 - 1

def exponentDigits (exponent : Nat) (read : Nat) : List UInt8 → Except Nat Nat
  | [] => .ok exponent
  | d :: rest =>
    let more := 10 * exponent + digitOf d
    if maxExponent < (more : Int) then .error (read + 1) else exponentDigits more (read + 1) rest

def saturate (e : Int) : Int := max (-2 ^ 31) (min e maxExponent)

-- Scales a significand by a power of ten in double arithmetic, with one rounding for
-- the significand and one for each step; `none` if the result is too large.
def scale : Nat → Binary64 → Int → Option Binary64
  | 0, f, _ => some f
  | steps + 1, f, e =>
    if e.natAbs ≤ 308 then
      let power := Binary64.ofNat (Nat.pow 10 e.natAbs)
      if 0 ≤ e then
        let product := f.mul power
        if product.isInfinite then none else some product
      else some (f.div power)
    else if f.isZero then some f
    else if 0 ≤ e then none
    else scale steps (f.div (.ofNat (10 ^ 308))) (e + 308)

-- After two divisions by `1e308` every significand is zero, so eight steps do.
def scaled (negative : Bool) (significand : Nat) (e : Int) : Option Binary64 :=
  (scale 8 (.ofNat significand) e).map fun f => if negative then f.negate else f

def scaledFloat (negative : Bool) (significand : Nat) (e : Int) : Reader Document := do
  match scaled negative significand e with
  | some x => pure (.float x)
  | none => fail .outOfRange

def exponentPart (negative : Bool) (significand : Nat) (start : Int) : Reader Document := do
  let down ← do
    match ← peek with
    | some byte =>
      if byte = byteOf '+' then skip; pure false
      else if byte = byteOf '-' then skip; pure true
      else pure false
    | none => pure false
  match ← next with
  | none => fail .endInValue
  | some first =>
    if !isDigitByte first then fail .invalidNumber
    let before ← get
    let more ← run isDigitByte
    match exponentDigits (digitOf first) 0 more with
    | .ok exponent =>
      scaledFloat negative significand
        (saturate (if down then start - exponent else start + exponent))
    | .error read =>
      if significand ≠ 0 ∧ !down then throw ⟨.outOfRange, before.consumed + read⟩
      else pure (.float (.zero negative))

-- A number after its optional minus. Without point and exponent it is an integer if 64
-- bits hold it; negative zero and all else is a float.
def number (negative : Bool) : Reader Document := do
  match ← next with
  | none => fail .endInValue
  | some first =>
    if !isDigitByte first then fail .invalidNumber
    let more ← run isDigitByte
    if first = byteOf '0' ∧ !more.isEmpty then
      modify fun c => { c with consumed := c.consumed - more.length, rest := more ++ c.rest }
      failNext .invalidNumber
    let (significand, dropped) := wholeDigits 0 (first :: more)
    match ← peek with
    | some byte =>
      if byte = byteOf '.' then
        skip
        let fraction ← run isDigitByte
        if fraction.isEmpty then
          match ← peek with
          | some _ => failNext .invalidNumber
          | none => failNext .endInValue
        let (significand, e) := fractionDigits significand dropped fraction
        match ← peek with
        | some mark =>
          if mark = byteOf 'e' ∨ mark = byteOf 'E' then
            skip
            exponentPart negative significand e
          else scaledFloat negative significand e
        | none => scaledFloat negative significand e
      else if byte = byteOf 'e' ∨ byte = byteOf 'E' then
        skip
        exponentPart negative significand dropped
      else integerOr significand dropped
    | none => integerOr significand dropped
where
  integerOr (significand dropped : Nat) : Reader Document :=
    if dropped ≠ 0 then scaledFloat negative significand dropped
    else if !negative then pure (.integer significand)
    else if significand = 0 ∨ 2 ^ 63 < significand then
      pure (.float (Binary64.ofNat significand).negate)
    else pure (.integer (-significand))

def hexUnit : Reader UInt16 := do
  let c ← get
  match c.rest with
  | a :: b :: d :: e :: rest =>
    set (⟨rest, c.consumed + 4⟩ : Cursor)
    match Hex.natural? ([a, b, d, e].map fun byte => Char.ofNat byte.toNat) with
    | some unit => pure (UInt16.ofNat unit)
    | none => fail .invalidEscape
  | _ =>
    set (⟨[], c.consumed + c.rest.length⟩ : Cursor)
    fail .endInString

def surrogateMark (expected : Char) : Reader Unit := do
  match ← next with
  | none => fail .endInString
  | some byte => if byte = byteOf expected then pure () else fail .endOfHexEscape

def hexEscape : Reader Units := do
  let unit ← hexUnit
  if Units.isTrail unit then fail .loneSurrogate
  else if Units.isLead unit then
    surrogateMark '\\'
    surrogateMark 'u'
    let trail ← hexUnit
    if Units.isTrail trail then pure [unit, trail] else fail .loneSurrogate
  else pure [unit]

def escape : Reader Units := do
  match ← next with
  | none => fail .endInString
  | some byte =>
    match Char.ofNat byte.toNat with
    | '"' => pure [0x22]
    | '\\' => pure [0x5C]
    | '/' => pure [0x2F]
    | 'b' => pure [0x08]
    | 'f' => pure [0x0C]
    | 'n' => pure [0x0A]
    | 'r' => pure [0x0D]
    | 't' => pure [0x09]
    | 'u' => hexEscape
    | _ => fail .invalidEscape

def stringTail : Nat → Units → Reader Units
  | 0, _ => fail .endInString
  | fuel + 1, before => do
    let plain ← run fun byte => byte != byteOf '"' && byte != byteOf '\\' && 0x20 ≤ byte
    let piece := (String.fromUTF8? ⟨plain.toArray⟩).getD ""
    let soFar := before ++ Units.ofString piece
    match ← next with
    | none => fail .endInString
    | some byte =>
      if byte = byteOf '"' then pure soFar
      else if byte = byteOf '\\' then
        let escaped ← escape
        stringTail fuel (soFar ++ escaped)
      else fail .controlCharacter

def string : Reader String := do
  let c ← get
  let units ← stringTail (c.rest.length + 1) []
  pure (units.toString?.getD "")

def depthLimit : Nat := 128

def openContainer (depth : Nat) : Reader Unit := do
  if depth + 1 = depthLimit then failNext .tooDeep
  skip

def leaf? : Reader (Option Document) := do
  match ← peekSolid with
  | none => failNext .endInValue
  | some byte =>
    match Char.ofNat byte.toNat with
    | 'n' => skip; word ['u', 'l', 'l']; return some .null
    | 't' => skip; word ['r', 'u', 'e']; return some (.boolean true)
    | 'f' => skip; word ['a', 'l', 's', 'e']; return some (.boolean false)
    | '-' => skip; return some (← number true)
    | '"' => skip; return some (.text (← string))
    | '[' => return none
    | '\x7b' => return none
    | _ =>
      if isDigitByte byte then
        return some (← number false)
      else failNext .expectedValue

def nextItem (first : Bool) : Reader Bool := do
  match ← peekSolid with
  | none => failNext .endInList
  | some byte =>
    if byte = byteOf ']' then return false
    if first then return true
    if byte ≠ byteOf ',' then failNext .expectedListEnd
    skip
    match ← peekSolid with
    | none => failNext .endInValue
    | some after => if after = byteOf ']' then failNext .trailingComma
    return true

def nextKey (first : Bool) : Reader (Option String) := do
  match ← peekSolid with
  | none => failNext .endInObject
  | some byte =>
    if byte = byteOf '\x7d' then return none
    if first then
      if byte ≠ byteOf '"' then failNext .keyNotString
    else
      if byte ≠ byteOf ',' then failNext .expectedObjectEnd
      skip
      match ← peekSolid with
      | none => failNext .endInValue
      | some after =>
        if after = byteOf '\x7d' then failNext .trailingComma
        if after ≠ byteOf '"' then failNext .keyNotString
    skip
    return some (← string)

def colon : Reader Unit := do
  match ← peekSolid with
  | none => failNext .endInObject
  | some byte => if byte ≠ byteOf ':' then failNext .expectedColon
  skip

mutual

-- A value at the given depth of containers. `fuel` bounds the nesting and the number of
-- parts still to come, each of which takes a byte.
def value : Nat → Nat → Reader Document
  | 0, _ => fail .endInValue
  | fuel + 1, depth => do
    match ← leaf? with
    | some document => pure document
    | none =>
      let bracket ← peek
      openContainer depth
      if bracket = some (byteOf '[') then items fuel (depth + 1) []
      else entries fuel (depth + 1) []

def items : Nat → Nat → List Document → Reader Document
  | 0, _, _ => fail .endInList
  | fuel + 1, depth, read => do
    if ← nextItem read.isEmpty then
      let item ← value fuel depth
      items fuel depth (item :: read)
    else
      skip
      pure (.array read.reverse)

def entries : Nat → Nat → List (String × Document) → Reader Document
  | 0, _, _ => fail .endInObject
  | fuel + 1, depth, read => do
    match ← nextKey read.isEmpty with
    | some key =>
      colon
      let entry ← value fuel depth
      entries fuel depth ((key, entry) :: read)
    | none =>
      skip
      pure (.object (Directory.ofEntries read.reverse))

end

def ended : Reader Unit := do
  match ← peekSolid with
  | none => pure ()
  | some _ => failNext .trailingCharacters

-- Enough for every part of a text: each takes at least a byte.
def fuelFor (bytes : List UInt8) : Nat := 2 * bytes.length + 2

def parse (text : String) : Except Fault Document :=
  let bytes := text.toUTF8.toList
  let reader : Reader Document := do
    let document ← value (fuelFor bytes) 0
    ended
    return document
  (reader ⟨bytes, 0⟩).map (·.1)

end HostBoundary.Document
