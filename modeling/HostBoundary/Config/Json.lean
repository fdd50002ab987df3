import HostBoundary.Config.Schema
import HostBoundary.Document.Script
import HostBoundary.Document.Skip

namespace HostBoundary.Config

inductive JsonCause where
  | grammar (cause : Document.Cause)
  | mismatch (m : Mismatch)
  deriving DecidableEq

def JsonCause.message : JsonCause → String
  | .grammar cause => cause.message
  | .mismatch m => m.message

structure JsonFault where
  cause : JsonCause
  offset : Nat
  deriving DecidableEq

def JsonFault.message (source : String) (fault : JsonFault) : String :=
  let (line, column) := Script.lineAndColumn (source.toUTF8.toList.take fault.offset)
  s!"{fault.cause.message} at line {line + 1} column {column}"

-- Settings are taken while the document is read, so that the first fault in the text is
-- the one reported, of whichever kind.
abbrev JsonReader := StateT Document.Cursor (Except JsonFault)

namespace JsonReader

open Document.Reader

instance : MonadLift Document.Reader JsonReader where
  monadLift reader := fun c =>
    (reader c).mapError fun fault => ⟨.grammar fault.cause, fault.offset⟩

def reject {α : Type} (m : Mismatch) : JsonReader α := fun c => .error ⟨.mismatch m, c.consumed⟩

def ofDocument : Document → Found
  | .null => .null
  | .boolean b => .boolean b
  | .integer n => .integer n
  | .float x => .float (Document.floatText x)
  | .text s => .text s
  | .array _ => .list
  | .object _ => .table

def found : JsonReader Found := do
  match ← (Document.leaf? : Document.Reader _) with
  | some document => return ofDocument document
  | none => return if (← peek) = some (Document.byteOf '[') then .list else .table

def content (t : SettingType) : JsonReader t.Content := do
  match t.accept (← found) with
  | .ok content => pure content
  | .error m => reject m

structure Member (α : Type) where
  name : String
  read : α → JsonReader α

def positional {α : Type} : Bool → List (Member α) → α → JsonReader α
  | _, [], record => do
    match ← peekSolid with
    | none => failNext .endInList
    | some byte =>
      if byte = Document.byteOf ',' then
        skip
        if (← peekSolid) = some (Document.byteOf ']') then failNext .trailingComma
        failNext .trailingCharacters
      else if byte ≠ Document.byteOf ']' then failNext .trailingCharacters
    skip
    return record
  | first, m :: rest, record => do
    if ← Document.nextItem first then positional false rest (← m.read record)
    else
      skip
      return record

def named {α : Type} (members : List (Member α)) : Nat → List String → Bool → α → JsonReader α
  | 0, _, _, _ => fail .endInObject
  | fuel + 1, seen, first, record => do
    match ← Document.nextKey first with
    | none =>
      skip
      return record
    | some key =>
      match members.find? (·.name = key) with
      | some m =>
        if seen.contains key then
          if (← peekSolid) = some (Document.byteOf '\x7d') then skip
          reject (.duplicate key)
        Document.colon
        let record ← m.read record
        named members fuel (key :: seen) false record
      | none =>
        Document.colon
        Document.Skip.value (Document.fuelFor (← get).rest)
        named members fuel seen false record

-- A record is a list of its members in order, or an object with their names.
def record {α : Type} (title : String) (members : List (Member α)) (start : α) :
    JsonReader α := do
  match ← found with
  | .list =>
    skip
    positional true members start
  | .table =>
    skip
    named members ((← get).rest.length + 1) [] true start
  | other => reject (.wrongType other title)

def fieldMember {α : Type} (f : Field α) : Member α where
  name := f.name
  read record := return f.put record (← content f.type)

def sectionMember (s : Section) : Member Config where
  name := s.name
  read config := do
    return s.put config (← record s.title (s.fields.map fieldMember) (s.get config))

end JsonReader

def ofJson (text : String) : Except JsonFault Config :=
  let reader : JsonReader Config := do
    let config ← JsonReader.record title (sections.map JsonReader.sectionMember) {}
    Document.ended
    return config
  (reader ⟨text.toUTF8.toList, 0⟩).map (·.1)

end HostBoundary.Config
