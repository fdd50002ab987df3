import HostBoundary.Config.Schema
import HostBoundary.Toml.Printer
import HostBoundary.Toml.Reader

namespace HostBoundary.Config

open HostBoundary.Toml

inductive TomlFault where
  | grammar (fault : Toml.Fault)
  | mismatch (m : Mismatch) (span : Option Span)
  deriving DecidableEq

def TomlFault.message (source : String) : TomlFault → String
  | .grammar fault => fault.message source
  | .mismatch m (some span) => Toml.report source span m.message
  | .mismatch m none => m.message ++ "\n"

def ofSetting : Setting → Found × Option Span
  | .scalar span (.boolean b) => (.boolean b, some span)
  | .scalar span (.integer n) => (.integer n, some span)
  | .scalar span (.float digits) => (.float digits, some span)
  | .scalar span (.text s) => (.text s, some span)
  | .scalar span (.moment _) => (.table, some span)
  | .list span _ => (.list, some span)
  | .table span _ _ => (.table, some span)
  | .tables _ => (.list, none)

structure TomlMember (α : Type) where
  name : String
  read : α → Setting → Except TomlFault α

def positional {α : Type} : List (TomlMember α) → List Setting → α → Except TomlFault α
  | m :: rest, item :: items, record => do positional rest items (← m.read record item)
  | _, _, record => .ok record

def named {α : Type} (members : List (TomlMember α)) (entries : Entries) (record : α) :
    Except TomlFault α :=
  entries.foldlM (fun record (key, s) =>
    match members.find? (·.name = key) with
    | some m => m.read record s
    | none => .ok record) record

def readRecord {α : Type} (title : String) (members : List (TomlMember α)) (record : α) :
    Setting → Except TomlFault α
  | .table _ _ entries => named members entries record
  | .list _ items => positional members items record
  | .tables items => positional members items record
  | .scalar _ (.moment _) => .ok record
  | s => .error (.mismatch (.wrongType (ofSetting s).1 title) (ofSetting s).2)

def fieldMember {α : Type} (f : Field α) : TomlMember α where
  name := f.name
  read record s :=
    let (found, span) := ofSetting s
    match f.type.accept found with
    | .ok content => .ok (f.put record content)
    | .error m => .error (.mismatch m span)

def sectionMember (s : Section) : TomlMember Config where
  name := s.name
  read config setting := do
    return s.put config (← readRecord s.title (s.fields.map fieldMember) (s.get config) setting)

def ofToml (source : String) : Except TomlFault Config := do
  let entries ← (Toml.parse source).mapError .grammar
  named (sections.map sectionMember) entries {}

def settingText? : Document → Option String
  | .text s => some (Toml.quote s)
  | .boolean b => some (if b then "true" else "false")
  | .integer n => if n < 2 ^ 63 then some (toString n) else none
  | _ => none

def fieldText? {α : Type} (record : α) (f : Field α) : Option String :=
  (settingText? (contentDocument f.type (f.get record))).map fun text =>
    f.name ++ " = " ++ text ++ "\n"

def sectionText? (c : Config) (s : Section) : Option String := do
  let lines ← s.fields.mapM (fieldText? (s.get c))
  return "[" ++ s.name ++ "]\n" ++ String.join lines

-- All settings, section by section with an empty line between; nothing if one of them
-- cannot be written.
def toml? (c : Config) : Option String := do
  return String.intercalate "\n" (← sections.mapM (sectionText? c))

def unwritable : String := "out-of-range value for u64 type"

end HostBoundary.Config
