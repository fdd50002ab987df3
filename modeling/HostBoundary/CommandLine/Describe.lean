import HostBoundary.Document.Basic
import HostBoundary.Environment.Function
import HostBoundary.Environment.Reference

namespace HostBoundary.CommandLine

variable {σ : Type}

def summary (type : ValueType) : Document := .text ("[" ++ type.name ++ "]")

def describePrimitive (value : Tagged) : Document :=
  match value with
  | .null => .null
  | .boolean b => .boolean b
  | .int i => .integer i.toInt
  | .uint u => .integer u.toNat
  | .float x => .float x
  | .utf8 _ => .text (value.text?.getD "")
  | .utf16 _ => .text (value.text?.getD "")
  | .object _ _ => summary value.type

-- A value as a document. Arrays and plain objects are taken apart, to the given depth;
-- other objects, and those below, are summarized.
def describe (host : Host σ) (n : EnvironmentId) (flags : Flags) : Nat → Tagged → Act σ Document
  | depth, value => do
    let some handle := value.handle? | return describePrimitive value
    let type ← Environment.objectType n handle
    match depth with
    | 0 => return summary type
    | depth + 1 =>
      match type with
      | .object .array => do
        let size ← Environment.length n handle
        let items ← (List.range (size % 2 ^ 32)).mapM fun index => do
          match ← Environment.getIndex host n handle (UInt32.ofNat index) flags with
          | some item => describe host n flags depth item
          | none => return .null
        return .array items
      | .object .plain => do
        let some names ← Environment.propertyNames host n handle | return .object []
        let size ← Environment.length n names
        let entries ← (List.range (size % 2 ^ 32)).filterMapM fun index => do
          let some name ← Environment.getIndex host n names (UInt32.ofNat index) flags | return none
          match ← Environment.getProperty host n handle name flags with
          | some property => return some (name.text?.getD "", ← describe host n flags depth property)
          | none => return some (name.text?.getD "", .null)
        return .object (Directory.ofEntries entries)
      | type => return summary type

end HostBoundary.CommandLine
