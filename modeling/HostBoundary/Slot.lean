import HostBoundary.Number.Power

namespace HostBoundary

-- Generations stay below `2 ^ 31`, so that a packed reference stays below `2 ^ 63`
-- and a handle word has a bit to spare.
def maxGeneration : Nat := 2 ^ 31 - 1

inductive Store where
  | object
  | persistent
  | template
  deriving DecidableEq, Repr

-- A slot and one of its generations. Freeing a slot moves it to the next
-- generation, so an older reference never denotes what is stored there later.
structure SlotRef (store : Store) where
  index : UInt32
  generation : UInt32
  positive : 0 < generation.toNat
  bounded : generation.toNat ≤ maxGeneration
  deriving DecidableEq

abbrev ObjectRef := SlotRef .object

abbrev PersistentRef := SlotRef .persistent

abbrev TemplateRef := SlotRef .template

namespace SlotRef

variable {store : Store}

def ofParts? (index generation : UInt32) : Option (SlotRef store) :=
  if h : 0 < generation.toNat ∧ generation.toNat ≤ maxGeneration then
    some ⟨index, generation, h.1, h.2⟩
  else none

def first (index : UInt32) : SlotRef store := ⟨index, 1, by decide, by decide⟩

instance : Inhabited (SlotRef store) := ⟨first 0⟩

def next? (r : SlotRef store) : Option (SlotRef store) :=
  ofParts? r.index (r.generation + 1)

def position (r : SlotRef store) : Nat := r.index.toNat

def bits (r : SlotRef store) : UInt64 :=
  r.generation.toUInt64 <<< 32 ||| r.index.toUInt64

def ofBits? (word : UInt64) : Option (SlotRef store) :=
  ofParts? word.toUInt32 (word >>> 32).toUInt32

def text (r : SlotRef store) : String := s!"{r.index}v{r.generation}"

def ofText? (text : String) : Option (SlotRef store) :=
  match (text.splitOn "v").map String.toNat? with
  | [some index, some generation] => ofParts? (UInt32.ofNat index) (UInt32.ofNat generation)
  | _ => none

end SlotRef

end HostBoundary
