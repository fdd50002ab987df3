import HostBoundary.Number.Numeral
import HostBoundary.Value

namespace HostBoundary

-- A property key. Texts that write an array index the one canonical way are indices;
-- the largest 32-bit number is no index.
inductive Key where
  | index (n : UInt32)
  | name (text : String)
  deriving DecidableEq

namespace Key

def maxIndex : Nat := 2 ^ 32 - 1

def ofName (text : String) : Key :=
  match Numeral.natural? text.toList with
  | some n => if n < maxIndex ∧ toString n = text then .index (UInt32.ofNat n) else .name text
  | none => .name text

def text : Key → String
  | .index n => toString n.toNat
  | .name text => text

def toValue (key : Key) : Value := .text key.text

def is (key : Key) (text : String) : Bool := key = .name text

def index? : Key → Option UInt32
  | .index n => some n
  | .name _ => none

end Key

end HostBoundary
