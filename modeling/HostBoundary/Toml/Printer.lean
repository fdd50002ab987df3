import HostBoundary.Text.Hex

namespace HostBoundary.Toml

inductive TextStyle where
  | basic
  | literal
  | basicBlock
  | literalBlock
  deriving DecidableEq

def longestRow (quote : Char) (current longest : Nat) : List Char → Nat
  | [] => max current longest
  | c :: rest =>
    if c = quote then longestRow quote (current + 1) longest rest
    else longestRow quote 0 (max current longest) rest

def needsEscape (c : Char) : Bool := (c.toNat < 32 && c ≠ '\t' && c ≠ '\n') || c.toNat = 127

namespace TextStyle

def of (chars : List Char) : TextStyle :=
  let control := chars.any needsEscape
  let backslash := chars.contains '\\'
  let newline := chars.contains '\n'
  let doubles := longestRow '"' 0 0 chars
  let singles := longestRow '\'' 0 0 chars
  if !control && !backslash && !newline && doubles = 0 then .basic
  else if !control && !newline && singles = 0 then .literal
  else if !control && !backslash && doubles ≤ 2 then .basicBlock
  else if !control && singles ≤ 2 then .literalBlock
  else if newline then .basicBlock
  else .basic

def mark : TextStyle → List Char
  | .basic => ['"']
  | .literal => ['\'']
  | .basicBlock => ['"', '"', '"']
  | .literalBlock => ['\'', '\'', '\'']

def isBlock : TextStyle → Bool
  | .basicBlock => true
  | .literalBlock => true
  | _ => false

def isBasic : TextStyle → Bool
  | .basic => true
  | .basicBlock => true
  | _ => false

end TextStyle

def escapeChar (block : Bool) (c : Char) : List Char :=
  match c with
  | '\t' => ['\\', 't']
  | '\n' => if block then ['\n'] else ['\\', 'n']
  | '\r' => ['\\', 'r']
  | '\\' => ['\\', '\\']
  | _ =>
    if c.toNat = 8 then ['\\', 'b']
    else if c.toNat = 12 then ['\\', 'f']
    else if needsEscape c then '\\' :: 'u' :: (Hex.padded 4 c.toNat).toList.map Char.toUpper
    else [c]

-- The text between double quotes. Of double quotes in a row, as many as are allowed stand
-- plain, then one is escaped, and counting starts again.
def escapeText (block : Bool) (row : Nat) : List Char → List Char
  | [] => []
  | '"' :: rest =>
    if row < (if block then 2 else 0) then '"' :: escapeText block (row + 1) rest
    else '\\' :: '"' :: escapeText block 0 rest
  | c :: rest => escapeChar block c ++ escapeText block 0 rest

def quote (s : String) : String :=
  let chars := s.toList
  let style := TextStyle.of chars
  let start := if style.isBlock && chars.contains '\n' then ['\n'] else []
  let body := if style.isBasic then escapeText style.isBlock 0 chars else chars
  String.ofList (style.mark ++ start ++ body ++ style.mark)

end HostBoundary.Toml
