import HostBoundary.Config.Basic
import HostBoundary.Document.Printer

namespace HostBoundary.Config

inductive Found where
  | null
  | boolean (b : Bool)
  | integer (n : Int)
  | float (digits : String)
  | text (s : String)
  | list
  | table
  deriving DecidableEq

def shownChar (c : Char) : String :=
  match c with
  | '"' => "\\\""
  | '\\' => "\\\\"
  | '\n' => "\\n"
  | '\r' => "\\r"
  | '\t' => "\\t"
  | _ =>
    if c.toNat = 0 then "\\0"
    else if c.toNat < 32 ∨ c.toNat = 127 then "\\u\x7b" ++ Hex.padded 0 c.toNat ++ "\x7d"
    else c.toString

def Found.description : Found → String
  | .null => "null"
  | .boolean b => s!"boolean `{b}`"
  | .integer n => s!"integer `{n}`"
  | .float digits => s!"floating point `{digits}`"
  | .text s => "string \"" ++ String.join (s.toList.map shownChar) ++ "\""
  | .list => "sequence"
  | .table => "map"

inductive Mismatch where
  | wrongType (found : Found) (wanted : String)
  | outOfRange (found : Found) (wanted : String)
  | duplicate (field : String)
  deriving DecidableEq

def Mismatch.message : Mismatch → String
  | .wrongType found wanted => s!"invalid type: {found.description}, expected {wanted}"
  | .outOfRange found wanted => s!"invalid value: {found.description}, expected {wanted}"
  | .duplicate field => s!"duplicate field `{field}`"

inductive SettingType where
  | text
  | boolean
  | int32
  | size
  deriving DecidableEq

namespace SettingType

def Content : SettingType → Type
  | .text => String
  | .boolean => Bool
  | .int32 => Int32
  | .size => Nat

def name : SettingType → String
  | .text => "a string"
  | .boolean => "a boolean"
  | .int32 => "i32"
  | .size => "usize"

def accept : (t : SettingType) → Found → Except Mismatch t.Content
  | .text, .text s => .ok s
  | .boolean, .boolean b => .ok b
  | .int32, .integer n =>
    if -2 ^ 31 ≤ n ∧ n < 2 ^ 31 then .ok (Int32.ofInt n)
    else .error (.outOfRange (.integer n) SettingType.int32.name)
  | .size, .integer n =>
    if 0 ≤ n ∧ n < 2 ^ 64 then .ok n.toNat
    else .error (.outOfRange (.integer n) SettingType.size.name)
  | t, found => .error (.wrongType found t.name)

end SettingType

structure Field (α : Type) where
  name : String
  type : SettingType
  get : α → type.Content
  put : α → type.Content → α

structure Section where
  name : String
  title : String
  Record : Type
  fields : List (Field Record)
  get : Config → Record
  put : Config → Record → Config

def librarySection : Section where
  name := "library"
  title := "struct LibraryConfig"
  Record := LibrarySettings
  fields :=
    [{ name := "so_name", type := .text, get := (·.soName), put := fun r soName => { r with soName } },
      { name := "entry_symbol", type := .text, get := (·.entrySymbol),
        put := fun r entrySymbol => { r with entrySymbol } }]
  get := (·.library)
  put c library := { c with library }

def environmentSection : Section where
  name := "environment"
  title := "struct EnvironmentConfig"
  Record := EnvironmentSettings
  fields :=
    [{ name := "default_version", type := .int32, get := (·.defaultVersion),
       put := fun r defaultVersion => { r with defaultVersion } },
      { name := "utf8_strings", type := .boolean, get := (·.utf8Strings),
        put := fun r utf8Strings => { r with utf8Strings } }]
  get := (·.environment)
  put c environment := { c with environment }

def heapSection : Section where
  name := "heap"
  title := "struct HeapConfig"
  Record := HeapLimits
  fields :=
    [{ name := "gc_threshold", type := .size, get := (·.gcThreshold),
       put := fun r gcThreshold => { r with gcThreshold } },
      { name := "max_scope_depth", type := .size, get := (·.maxScopeDepth),
        put := fun r maxScopeDepth => { r with maxScopeDepth } },
      { name := "max_array_length", type := .size, get := (·.maxArrayLength),
        put := fun r maxArrayLength => { r with maxArrayLength } }]
  get := (·.heap)
  put c heap := { c with heap }

def sections : List Section := [librarySection, environmentSection, heapSection]

def title : String := "struct JsEnvConfig"

def contentDocument : (t : SettingType) → t.Content → Document
  | .text, s => .text s
  | .boolean, b => .boolean b
  | .int32, n => .integer (Int32.toInt n)
  | .size, n => .integer (Int.ofNat n)

def document (c : Config) : Document :=
  .object (sections.map fun s =>
    (s.name, .object (s.fields.map fun f => (f.name, contentDocument f.type (f.get (s.get c))))))

end HostBoundary.Config
