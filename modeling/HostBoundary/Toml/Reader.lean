import HostBoundary.Toml.Word

namespace HostBoundary.Toml

inductive Cause where
  | expected (what : String)
  | badString
  | badEscape
  | badNumber
  | tooDeep
  | badHeader (what : String)
  | clash (c : Clash)
  | headerClash (c : Clash)
  deriving DecidableEq

def Cause.message : Cause → String
  | .expected what => "expected " ++ what
  | .badString => "invalid string\nexpected `\"`, `'`"
  | .badEscape => "invalid escape sequence\nexpected `b`, `f`, `n`, `r`, `t`, `u`, `U`, `\\`, `\"`"
  | .badNumber => "invalid number"
  | .tooDeep => "recursion limit"
  | .badHeader what => "invalid table header\nexpected " ++ what
  | .clash c => c.message
  | .headerClash c => "invalid table header\n" ++ c.message

structure Fault where
  cause : Cause
  left : Nat
  deriving DecidableEq

abbrev Reader := StateT (List Char) (Except Fault)

namespace Reader

def fail {α : Type} (cause : Cause) : Reader α := fun rest => .error ⟨cause, rest.length⟩

def failAt {α : Type} (left : Nat) (cause : Cause) : Reader α := fun _ => .error ⟨cause, left⟩

def left : Reader Nat := do return (← get).length

def peek : Reader (Option Char) := do return (← get).head?

def skip (n : Nat) : Reader Unit := modify (·.drop n)

def run (p : Char → Bool) : Reader (List Char) := fun rest => .ok (rest.takeWhile p, rest.dropWhile p)

def accept (chars : List Char) : Reader Bool := fun rest =>
  if chars.isPrefixOf rest then .ok (true, rest.drop chars.length) else .ok (false, rest)

def require (c : Char) (cause : Cause) : Reader Unit := do
  unless ← accept [c] do fail cause

end Reader

open Reader

def isSpace (c : Char) : Bool := c = ' ' || c = '\t'

def spaces : Reader Unit := do discard (run isSpace)

def isControl (c : Char) : Bool := c.toNat < 32 && c ≠ '\t' || c.toNat = 127

def newline : Reader Bool := do
  if ← accept ['\n'] then return true
  accept ['\r', '\n']

def comment : Reader Unit := do
  if ← accept ['#'] then discard (run fun c => !isControl c)

def gaps : Nat → Reader Unit
  | 0 => pure ()
  | fuel + 1 => do
    spaces
    comment
    if ← newline then gaps fuel

def codePoint (width : Nat) : Reader Char := do
  let digits := (← get).take width
  match Hex.natural? digits with
  | some n =>
    if digits.length ≠ width ∨ !n.isValidChar then fail .badEscape
    skip width
    return Char.ofNat n
  | none => fail .badEscape

def escape : Reader Char := do
  let c ← peek
  skip 1
  match c with
  | some 'b' => return Char.ofNat 8
  | some 't' => return '\t'
  | some 'n' => return '\n'
  | some 'f' => return Char.ofNat 12
  | some 'r' => return '\r'
  | some '"' => return '"'
  | some '\\' => return '\\'
  | some 'u' => codePoint 4
  | some 'U' => codePoint 8
  | _ => fail .badEscape

def basic : Nat → List Char → Reader String
  | 0, _ => fail .badString
  | fuel + 1, soFar => do
    let soFar := soFar ++ (← run fun c => c ≠ '"' && c ≠ '\\' && !isControl c)
    match ← peek with
    | some '"' =>
      skip 1
      return String.ofList soFar
    | some '\\' =>
      skip 1
      let c ← escape
      basic fuel (soFar ++ [c])
    | _ => fail (.expected "`\"`")

def literal : Reader String := do
  let text ← run fun c => c ≠ '\'' && !isControl c
  require '\'' (.expected "`'`")
  return String.ofList text

-- Quotes in a row end a text of several lines from three on, of which up to two belong
-- to the text.
def quotes (quote : Char) : Reader (Bool × List Char) := do
  let row := (← run (· = quote)).length
  if row < 3 then return (false, List.replicate row quote)
  if 5 < row then fail .badString
  return (true, List.replicate (row - 3) quote)

def dropBlanks : List Char → List Char
  | '\n' :: rest => dropBlanks rest
  | '\r' :: '\n' :: rest => dropBlanks rest
  | c :: rest => if isSpace c then dropBlanks rest else c :: rest
  | [] => []

def joinsLines : Reader Bool := do
  let rest ← get
  match rest.dropWhile isSpace with
  | '\n' :: _ => set (dropBlanks rest); return true
  | '\r' :: '\n' :: _ => set (dropBlanks rest); return true
  | _ => return false

def lines (quote : Char) (escapes : Bool) : Nat → List Char → Reader String
  | 0, _ => fail .badString
  | fuel + 1, soFar => do
    let soFar := soFar ++
      (← run fun c => c ≠ quote && !(escapes && c = '\\') && !isControl c)
    match ← peek with
    | none => fail .badString
    | some c =>
      if c = quote then
        let (ended, more) ← quotes quote
        if ended then
          return String.ofList (soFar ++ more)
        lines quote escapes fuel (soFar ++ more)
      else if escapes ∧ c = '\\' then
        skip 1
        if ← joinsLines then lines quote escapes fuel soFar
        else
          let c ← escape
          lines quote escapes fuel (soFar ++ [c])
      else if ← newline then lines quote escapes fuel (soFar ++ ['\n'])
      else fail .badString

def block (quote : Char) (escapes : Bool) : Reader String := do
  discard newline
  lines quote escapes ((← left) + 1) []

def text? : Reader (Option String) := do
  if ← accept ['"', '"', '"'] then return some (← block '"' true)
  if ← accept ['\'', '\'', '\''] then return some (← block '\'' false)
  if ← accept ['"'] then return some (← basic ((← left) + 1) [])
  if ← accept ['\''] then return some (← literal)
  return none

def isBare (c : Char) : Bool := c.isAlphanum || c = '_' || c = '-'

def simpleKey (cause : Cause) : Reader String := do
  if ← accept ['"'] then return ← basic ((← left) + 1) []
  if ← accept ['\''] then return ← literal
  let bare ← run isBare
  if bare.isEmpty then fail cause
  return String.ofList bare

def keyParts (cause : Cause) : Nat → Reader (List String)
  | 0 => fail cause
  | fuel + 1 => do
    spaces
    let key ← simpleKey cause
    spaces
    if ← accept ['.'] then
      let rest ← keyParts cause fuel
      return key :: rest
    return [key]

def depthLimit : Nat := 80

def dottedKey (cause : Cause) : Reader (List String) := do
  let before ← left
  let path ← keyParts cause before
  if depthLimit ≤ path.length then failAt before .tooDeep
  return path

def isWordChar (c : Char) : Bool := c.isAlphanum || ['_', '-', '+', '.', ':'].contains c

def word : Reader (List Char) := do
  let first ← run isWordChar
  match ← get with
  | ' ' :: next :: _ =>
    if (Word.date? first) = some [] ∧ Numeral.isDigit next then
      skip 1
      return first ++ ' ' :: (← run isWordChar)
    return first
  | _ => return first

def scalar : Reader Scalar := do
  match ← text? with
  | some s => return .text s
  | none =>
    let before ← left
    let chars ← word
    match Word.scalar? chars with
    | some s => return s
    | none =>
      let numeric := match chars.head? with
        | some c => Numeral.isDigit c || ['+', '-', '_', '.'].contains c
        | none => false
      failAt before (if numeric then .badNumber else .badString)

def splitLast (path : List String) : List String × String := (path.dropLast, path.getLast?.getD "")

def descend (depth : Nat) : Reader Unit :=
  if depthLimit ≤ depth + 1 then fail .tooDeep else pure ()

mutual

-- A setting in a text of `total` characters, within `depth` lists and inline tables.
-- `fuel` bounds the nesting and the number of parts to come.
def setting (total : Nat) : Nat → Nat → Reader Setting
  | 0, _ => fail .badString
  | fuel + 1, depth => do
    let before ← left
    let span : Reader Span := do return ⟨total - before, total - (← left)⟩
    if ← accept ['['] then
      descend depth
      let items ← items total fuel (depth + 1) []
      return .list (← span) items
    else if ← accept ['\x7b'] then
      descend depth
      spaces
      if ← accept ['\x7d'] then return .table (← span) .inline []
      let entries ← pairs total fuel (depth + 1) []
      return .table (← span) .inline entries
    else
      let s ← scalar
      return .scalar (← span) s

def items (total : Nat) : Nat → Nat → List Setting → Reader (List Setting)
  | 0, _, _ => fail .badString
  | fuel + 1, depth, read => do
    gaps (← left)
    if ← accept [']'] then return read
    let item ← setting total fuel depth
    gaps (← left)
    if ← accept [','] then items total fuel depth (read ++ [item])
    else
      require ']' (.expected "`]`")
      return read ++ [item]

def pairs (total : Nat) : Nat → Nat → Entries → Reader Entries
  | 0, _, _ => fail .badString
  | fuel + 1, depth, read => do
    let before ← left
    let (path, key) := splitLast (← dottedKey (.expected "key"))
    require '=' (.expected "`.`, `=`")
    spaces
    let s ← setting total fuel depth
    spaces
    match Entries.add ⟨total - before, total - (← left)⟩ [] path key s .inline read with
    | .error c => failAt before (.clash c)
    | .ok entries =>
      if ← accept [','] then pairs total fuel depth entries
      else
        require '\x7d' (.expected "`\x7d`")
        return entries

end

structure Progress where
  entries : Entries := []
  opened : List String := []

def header (total : Nat) (progress : Progress) : Reader Progress := do
  let before ← left
  let several ← accept ['[', '[']
  unless several do skip 1
  let path ← dottedKey (.badHeader "key")
  require ']' (.badHeader "`.`, `]`")
  if several then require ']' (.badHeader "`]]`")
  let (above, key) := splitLast path
  let span : Span := ⟨total - before, total - (← left)⟩
  let opened :=
    if several then Entries.openNext span above key progress.entries
    else Entries.openTable span above key progress.entries
  match opened with
  | .ok entries => return { entries, opened := path }
  | .error c => failAt before (.headerClash c)

def pair (total : Nat) (progress : Progress) : Reader Progress := do
  let before ← left
  let (path, key) := splitLast (← dottedKey (.expected "key"))
  require '=' (.expected "`.`, `=`")
  spaces
  let s ← setting total (total + 2) 0
  let span : Span := ⟨total - before, total - (← left)⟩
  match Entries.addTo span progress.opened path key s progress.entries with
  | .ok entries => return { progress with entries }
  | .error c => failAt before (.clash c)

def expressions (total : Nat) : Nat → Progress → Reader Entries
  | 0, progress => return progress.entries
  | fuel + 1, progress => do
    spaces
    let progress ← do
      match ← peek with
      | none => pure progress
      | some '[' => header total progress
      | some c =>
        if c = '#' ∨ c = '\n' ∨ c = '\r' then pure progress else pair total progress
    spaces
    comment
    if ← newline then expressions total fuel progress
    else
      if (← peek).isSome then fail (.expected "newline, `#`")
      return progress.entries

def parse (source : String) : Except Fault Entries :=
  let chars := source.toList
  let body := if chars.head? = some (Char.ofNat 0xFEFF) then chars.drop 1 else chars
  (expressions chars.length (chars.length + 1) {} body).map (·.1)

def report (source : String) (span : Span) (message : String) : String :=
  let before := source.toList.take span.start
  let number := before.count '\n' + 1
  let column := (before.reverse.takeWhile (· ≠ '\n')).length
  let content := ((source.splitOn "\n")[number - 1]?).getD ""
  let gutter := String.ofList (List.replicate ((toString number).length + 1) ' ')
  let marks := max 1 (min span.stop (span.start + content.utf8ByteSize) - span.start)
  s!"TOML parse error at line {number}, column {column + 1}\n{gutter}|\n{number} | {content}\n{gutter}|" ++
    String.ofList (List.replicate (column + 1) ' ') ++ String.ofList (List.replicate marks '^') ++
    "\n" ++ message ++ "\n"

def Fault.message (source : String) (fault : Fault) : String :=
  let start := source.length - fault.left
  report source ⟨start, start + 1⟩ fault.cause.message

end HostBoundary.Toml
