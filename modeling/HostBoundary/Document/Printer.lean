import HostBoundary.Document.Basic
import HostBoundary.Number.Shortest
import HostBoundary.Text.Hex

namespace HostBoundary.Document

def floatLayout : DecimalLayout := ⟨.even, some (-5, 16), true⟩

def floatText (x : Binary64) : String :=
  if !x.isFinite then "null"
  else if x.isZero then (if x.negative then "-0.0" else "0.0")
  else floatLayout.write x

def escapeChar (c : Char) : List Char :=
  match c with
  | '"' => ['\\', '"']
  | '\\' => ['\\', '\\']
  | '\n' => ['\\', 'n']
  | '\r' => ['\\', 'r']
  | '\t' => ['\\', 't']
  | _ =>
    if c.toNat = 8 then ['\\', 'b']
    else if c.toNat = 12 then ['\\', 'f']
    else if c.toNat < 32 then '\\' :: 'u' :: (Hex.padded 4 c.toNat).toList
    else [c]

def quote (s : String) : String :=
  "\"" ++ String.ofList (s.toList.flatMap escapeChar) ++ "\""

def indent (depth : Nat) : String := String.ofList (List.replicate (2 * depth) ' ')

def block (opening closing : String) (depth : Nat) (parts : List String) : String :=
  if parts.isEmpty then opening ++ closing
  else
    opening ++ "\n" ++ String.intercalate ",\n" (parts.map (indent (depth + 1) ++ ·)) ++ "\n" ++
      indent depth ++ closing

mutual

def prettyAt (depth : Nat) : Document → String
  | .null => "null"
  | .boolean b => if b then "true" else "false"
  | .integer n => toString n
  | .float x => floatText x
  | .text s => quote s
  | .array items => block "[" "]" depth (prettyItems (depth + 1) items)
  | .object entries => block "\x7b" "\x7d" depth (prettyEntries (depth + 1) entries)

def prettyItems (depth : Nat) : List Document → List String
  | [] => []
  | item :: rest => prettyAt depth item :: prettyItems depth rest

def prettyEntries (depth : Nat) : List (String × Document) → List String
  | [] => []
  | (key, value) :: rest =>
    (quote key ++ ": " ++ prettyAt depth value) :: prettyEntries depth rest

end

def pretty (d : Document) : String := prettyAt 0 d

end HostBoundary.Document
