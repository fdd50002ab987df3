import HostBoundary.Slot

namespace HostBoundary

structure ArenaSlot (store : Store) (α : Type) where
  current : SlotRef store
  entry : Option α

structure Arena (store : Store) (α : Type) where
  slots : Array (ArenaSlot store α) := #[]
  free : List UInt32 := []

namespace Arena

variable {store : Store} {α : Type}

instance : Inhabited (Arena store α) := ⟨{}⟩

def get? (a : Arena store α) (r : SlotRef store) : Option α :=
  match a.slots[r.position]? with
  | some slot => if slot.current = r then slot.entry else none
  | none => none

def contains (a : Arena store α) (r : SlotRef store) : Bool := (a.get? r).isSome

def entries (a : Arena store α) : List α := a.slots.toList.filterMap (·.entry)

def append (a : Arena store α) (x : α) : SlotRef store × Arena store α :=
  let r := SlotRef.first (UInt32.ofNat a.slots.size)
  (r, { a with slots := a.slots.push ⟨r, some x⟩ })

def insert (a : Arena store α) (x : α) : SlotRef store × Arena store α :=
  match a.free with
  | [] => a.append x
  | index :: rest =>
    match a.slots[index.toNat]? with
    | some slot =>
      (slot.current,
        { slots := a.slots.setIfInBounds index.toNat { slot with entry := some x }, free := rest })
    | none => { a with free := rest }.append x

def modify (a : Arena store α) (r : SlotRef store) (f : α → α) : Arena store α :=
  { a with slots := a.slots.modify r.position fun slot =>
      if slot.current = r then { slot with entry := slot.entry.map f } else slot }

-- Empties the slot at a position and moves it to its next generation. A slot whose
-- generations are used up is never used again.
def vacate (a : Arena store α) (position : Nat) : Arena store α :=
  match a.slots[position]? with
  | none => a
  | some slot =>
    match slot.current.next? with
    | some next =>
      { slots := a.slots.setIfInBounds position ⟨next, none⟩,
        free := UInt32.ofNat position :: a.free }
    | none => { a with slots := a.slots.setIfInBounds position ⟨slot.current, none⟩ }

def remove (a : Arena store α) (r : SlotRef store) : Bool × Arena store α :=
  if a.contains r then (true, a.vacate r.position) else (false, a)

def retire (a : Arena store α) (r : SlotRef store) : Arena store α :=
  { a with slots := a.slots.modify r.position fun slot =>
      if slot.current = r then ⟨slot.current.next?.getD slot.current, none⟩ else slot }

end Arena

end HostBoundary
