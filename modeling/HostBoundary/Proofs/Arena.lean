import HostBoundary.Heap.Arena
import Mathlib.Data.List.Nodup

namespace HostBoundary

variable {β : Type}

namespace SlotRef

variable {store : Store}

lemma position_lt (r : SlotRef store) : r.position < 2 ^ 32 := r.index.toNat_lt

lemma first_position (i : Nat) (hi : i < 2 ^ 32) :
    (first (UInt32.ofNat i) : SlotRef store).position = i := by
  simp only [position, first]
  exact UInt32.toNat_ofNat_of_lt' hi

-- Generations stay below `2 ^ 31`, so the addition does not wrap.
lemma toNat_generation_succ (r : SlotRef store) :
    (r.generation + 1).toNat = r.generation.toNat + 1 := by
  have hb := r.bounded
  simp only [maxGeneration] at hb
  rw [UInt32.toNat_add]
  simp only [UInt32.reduceToNat]
  omega

lemma next?_eq_some (r s : SlotRef store) (h : r.next? = some s) :
    s.index = r.index ∧ s.generation.toNat = r.generation.toNat + 1 := by
  simp only [next?, ofParts?] at h
  split at h
  · obtain rfl := Option.some.inj h
    exact ⟨rfl, toNat_generation_succ r⟩
  · cases h

end SlotRef

namespace ArenaSlot

variable {store : Store} {α : Type}

def emptied (slot : ArenaSlot store α) : ArenaSlot store α :=
  ⟨slot.current.next?.getD slot.current, none⟩

def shape (slot : ArenaSlot store α) : SlotRef store × Bool := (slot.current, slot.entry.isSome)

lemma emptied_index (slot : ArenaSlot store α) :
    slot.emptied.current.index = slot.current.index := by
  simp only [emptied]
  cases h : slot.current.next? with
  | none => rfl
  | some next => exact (SlotRef.next?_eq_some _ _ h).1

def swept (dead : α → Bool) (slot : ArenaSlot store α) : ArenaSlot store α :=
  if slot.entry.any dead then slot.emptied else slot

@[simp] lemma swept_swept (dead : α → Bool) (slot : ArenaSlot store α) :
    (slot.swept dead).swept dead = slot.swept dead := by
  by_cases h : slot.entry.any dead = true
  · simp [swept, h, emptied]
  · simp [swept, h]

end ArenaSlot

namespace Arena

variable {store : Store} {α : Type} {a : Arena store α} {r : SlotRef store}

section

variable (a : Arena store α) (r : SlotRef store)

lemma get?_eq_some_iff (x : α) :
    a.get? r = some x ↔
      ∃ slot, a.slots[r.position]? = some slot ∧ slot.current = r ∧ slot.entry = some x := by
  unfold get?
  split
  · rename_i slot hs
    simp only [hs, Option.some.injEq, exists_eq_left']
    by_cases hc : slot.current = r <;> simp [hc]
  · rename_i hs
    simp [hs]

lemma contains_iff :
    a.contains r = true ↔
      ∃ slot, a.slots[r.position]? = some slot ∧ slot.current = r ∧ slot.entry.isSome = true := by
  simp only [contains, Option.isSome_iff_exists, get?_eq_some_iff]
  constructor
  · rintro ⟨x, slot, hs, hc, hx⟩
    exact ⟨slot, hs, hc, x, hx⟩
  · rintro ⟨slot, hs, hc, x, hx⟩
    exact ⟨x, slot, hs, hc, hx⟩

lemma vacate_of_none (p : Nat) (h : a.slots[p]? = none) : a.vacate p = a := by
  simp [vacate, h]

lemma vacate_slots (p : Nat) (slot : ArenaSlot store α) (h : a.slots[p]? = some slot) :
    (a.vacate p).slots = a.slots.setIfInBounds p slot.emptied := by
  simp only [vacate, h, ArenaSlot.emptied]
  cases slot.current.next? <;> rfl

lemma slots_vacate (p i : Nat) :
    (a.vacate p).slots[i]? = if i = p then a.slots[i]?.map .emptied else a.slots[i]? := by
  cases hs : a.slots[p]? with
  | none =>
    rw [vacate_of_none a p hs]
    split
    · rename_i hi
      simp [hi, hs]
    · rfl
  | some slot =>
    have hlt : p < a.slots.size := (Array.getElem?_eq_some_iff.mp hs).1
    rw [vacate_slots a p slot hs, Array.getElem?_setIfInBounds, if_pos hlt]
    split
    · rename_i hi
      rw [← hi, if_pos rfl, hs, Option.map_some]
    · rename_i hi
      simp [Ne.symm hi]

lemma size_vacate (p : Nat) : (a.vacate p).slots.size = a.slots.size := by
  unfold vacate
  split
  · rfl
  · split <;> simp

lemma mem_free_vacate (p : Nat) (index : UInt32) (h : index ∈ (a.vacate p).free) :
    index ∈ a.free ∨ ∃ slot next, a.slots[p]? = some slot ∧ slot.current.next? = some next ∧
      index = UInt32.ofNat p := by
  unfold vacate at h
  split at h
  · exact .inl h
  · rename_i slot hs
    split at h
    · rename_i next hn
      rcases List.mem_cons.mp h with rfl | h
      · exact .inr ⟨slot, next, hs, hn, rfl⟩
      · exact .inl h
    · exact .inl h

lemma slots_modify (f : α → α) (i : Nat) :
    (a.modify r f).slots[i]? = a.slots[i]?.map fun slot =>
      if i = r.position ∧ slot.current = r then { slot with entry := slot.entry.map f } else slot := by
  simp only [modify, Array.getElem?_modify]
  by_cases hi : i = r.position
  · subst hi
    simp
  · simp [hi, Ne.symm hi]

end

-- The representation of an arena: a slot knows its own position, and the free list
-- names vacant slots only, each of them once.
structure WellFormed (a : Arena store α) : Prop where
  position : ∀ (i : Nat) (slot : ArenaSlot store α), a.slots[i]? = some slot →
    slot.current.position = i
  nodup : a.free.Nodup
  vacant : ∀ index ∈ a.free, ∃ slot, a.slots[index.toNat]? = some slot ∧ slot.entry = none

lemma wellFormed_empty : ({} : Arena store α).WellFormed where
  position := by simp
  nodup := List.nodup_nil
  vacant := by simp

-- A reference has been given out if its slot has moved on to a later generation, or is
-- in this one and not waiting for its first entry.
def Issued (a : Arena store α) (r : SlotRef store) : Prop :=
  ∃ slot, a.slots[r.position]? = some slot ∧
    (r.generation.toNat < slot.current.generation.toNat ∨ slot.current = r ∧ r.index ∉ a.free)

lemma WellFormed.issued_of_contains (hwf : a.WellFormed) (h : a.contains r = true) :
    a.Issued r := by
  obtain ⟨slot, hs, hc, he⟩ := (contains_iff a r).mp h
  refine ⟨slot, hs, .inr ⟨hc, ?_⟩⟩
  intro hfree
  obtain ⟨other, ho, hnone⟩ := hwf.vacant _ hfree
  have hsame : other = slot := Option.some.inj (ho.symm.trans hs)
  simp [← hsame, hnone] at he

-- What can happen to the references of an arena between two of its states, given those
-- that were handed out in between. Everything about identities follows from this.
structure Advance (a b : Arena store α) (fresh : List (SlotRef store)) : Prop where
  nodup : fresh.Nodup
  unissued : ∀ r ∈ fresh, ¬ a.Issued r
  keeps : ∀ r, a.Issued r → b.Issued r
  issues : ∀ r ∈ fresh, b.Issued r
  valid : ∀ r, b.contains r = true → a.contains r = true ∨ r ∈ fresh

namespace Advance

variable {a b c : Arena store α} {xs ys : List (SlotRef store)}

lemma refl (a : Arena store α) : Advance a a [] where
  nodup := List.nodup_nil
  unissued := by simp
  keeps _ h := h
  issues := by simp
  valid _ h := .inl h

lemma trans (hab : Advance a b xs) (hbc : Advance b c ys) : Advance a c (xs ++ ys) where
  nodup := by
    refine List.nodup_append.mpr ⟨hab.nodup, hbc.nodup, ?_⟩
    rintro r hx s hy rfl
    exact hbc.unissued r hy (hab.issues r hx)
  unissued := by
    intro r hr ha
    rcases List.mem_append.mp hr with hx | hy
    · exact hab.unissued r hx ha
    · exact hbc.unissued r hy (hab.keeps r ha)
  keeps r ha := hbc.keeps r (hab.keeps r ha)
  issues := by
    intro r hr
    rcases List.mem_append.mp hr with hx | hy
    · exact hbc.keeps r (hab.issues r hx)
    · exact hbc.issues r hy
  valid := by
    intro r hc
    rcases hbc.valid r hc with hb | hy
    · rcases hab.valid r hb with ha | hx
      · exact .inl ha
      · exact .inr (List.mem_append_left _ hx)
    · exact .inr (List.mem_append_right _ hy)

lemma stays_invalid (hab : Advance a b xs) (hi : a.Issued r) (hn : ¬ a.contains r = true) :
    ¬ b.contains r = true := by
  intro hb
  rcases hab.valid r hb with ha | hx
  · exact hn ha
  · exact hab.unissued r hx hi

end Advance

-- Two arenas that differ in what occupied slots hold, and in nothing else.
structure SameShape (a b : Arena store α) : Prop where
  free : b.free = a.free
  slots : ∀ i : Nat, b.slots[i]?.map ArenaSlot.shape = a.slots[i]?.map ArenaSlot.shape

namespace SameShape

variable {a b : Arena store α}

lemma refl (a : Arena store α) : SameShape a a := ⟨rfl, fun _ => rfl⟩

variable (h : SameShape a b)

include h

lemma symm : SameShape b a := ⟨h.free.symm, fun i => (h.slots i).symm⟩

lemma slot_of {i : Nat} {slot : ArenaSlot store α} (hs : a.slots[i]? = some slot) :
    ∃ other, b.slots[i]? = some other ∧ other.current = slot.current ∧
      other.entry.isSome = slot.entry.isSome := by
  have hi := h.slots i
  rw [hs, Option.map_some, Option.map_eq_some_iff] at hi
  obtain ⟨other, ho, he⟩ := hi
  exact ⟨other, ho, (Prod.mk.inj he).1, (Prod.mk.inj he).2⟩

lemma contains (hr : a.contains r = true) : b.contains r = true := by
  obtain ⟨slot, hs, hc, he⟩ := (contains_iff a r).mp hr
  obtain ⟨other, ho, hcur, hsome⟩ := h.slot_of hs
  exact (contains_iff b r).mpr ⟨other, ho, hcur.trans hc, hsome.trans he⟩

lemma issued (hr : a.Issued r) : b.Issued r := by
  obtain ⟨slot, hs, hor⟩ := hr
  obtain ⟨other, ho, hcur, -⟩ := h.slot_of hs
  exact ⟨other, ho, by rw [hcur, h.free]; exact hor⟩

lemma advance : Advance a b [] where
  nodup := List.nodup_nil
  unissued := by simp
  keeps _ hr := h.issued hr
  issues := by simp
  valid _ hr := .inl (h.symm.contains hr)

lemma wellFormed (hwf : a.WellFormed) : b.WellFormed where
  position := by
    intro i slot hs
    obtain ⟨other, ho, hcur, -⟩ := h.symm.slot_of hs
    rw [← hcur]
    exact hwf.position _ _ ho
  nodup := h.free ▸ hwf.nodup
  vacant := by
    intro index hi
    obtain ⟨slot, hs, hnone⟩ := hwf.vacant _ (h.free ▸ hi)
    obtain ⟨other, ho, -, hsome⟩ := h.slot_of hs
    refine ⟨other, ho, ?_⟩
    rw [hnone] at hsome
    simpa using hsome

end SameShape

lemma sameShape_modify (a : Arena store α) (r : SlotRef store) (f : α → α) :
    SameShape a (a.modify r f) where
  free := rfl
  slots i := by
    rw [slots_modify]
    cases a.slots[i]? with
    | none => rfl
    | some slot =>
      simp only [Option.map_some]
      split <;> simp [ArenaSlot.shape]

section Insert

variable (a : Arena store α) (x : α)

lemma append_position (hsize : a.slots.size < 2 ^ 32) : (a.append x).1.position = a.slots.size :=
  SlotRef.first_position _ hsize

lemma slots_append (i : Nat) :
    (a.append x).2.slots[i]? =
      if i = a.slots.size then some ⟨(a.append x).1, some x⟩ else a.slots[i]? := by
  simp only [append, Array.getElem?_push]

-- One slot is filled, under the reference it had if it was there. A well-formed free list had named
-- it, unless there was nothing on it.
structure Fills (i : Nat) (b : SlotRef store × Arena store α) : Prop where
  slots : ∀ j : Nat, b.2.slots[j]? = if j = i then some ⟨b.1, some x⟩ else a.slots[j]?
  current : ∀ slot, a.slots[i]? = some slot → slot.current = b.1
  free : b.2.free = a.free.tail
  vacant : a.WellFormed → ∀ slot, a.slots[i]? = some slot → slot.entry = none ∧ b.1.index ∈ a.free
  taken : a.WellFormed → ∀ index ∈ a.free, index ∈ b.2.free ∨ index.toNat = i
  position : a.WellFormed → a.slots.size < 2 ^ 32 → b.1.position = i
  unlisted : a.WellFormed → a.slots.size < 2 ^ 32 → b.1.index ∉ b.2.free

lemma fills_append (free : List UInt32) (hfree : free = a.free.tail)
    (hall : a.WellFormed → free = a.free) :
    a.Fills x a.slots.size (Arena.append { a with free } x) where
  slots := slots_append _ x
  current slot hs := by simp at hs
  free := hfree
  vacant _ slot hs := by simp at hs
  taken hwf index hi := .inl ((hall hwf).symm ▸ hi)
  position _ hsize := append_position { a with free } x hsize
  unlisted hwf hsize hmem := by
    obtain rfl := hall hwf
    obtain ⟨slot, hs, -⟩ := hwf.vacant _ hmem
    rw [show UInt32.toNat _ = _ from append_position a x hsize] at hs
    simp at hs

lemma fills_insert : ∃ i, a.Fills x i (a.insert x) := by
  unfold insert
  split
  · rename_i hnil
    exact ⟨_, a.fills_append x a.free (by rw [hnil]; rfl) fun _ => rfl⟩
  · rename_i index rest hfree
    split
    · rename_i slot hs
      have hlt : index.toNat < a.slots.size := (Array.getElem?_eq_some_iff.mp hs).1
      have hindex : a.WellFormed → slot.current.index = index := fun hwf =>
        UInt32.toNat_inj.mp (hwf.position _ _ hs)
      refine ⟨index.toNat, fun j => ?_, fun other ho => ?_, by rw [hfree]; rfl, fun hwf other ho => ?_,
        fun _ other ho => ?_, fun hwf _ => hwf.position _ _ hs, fun hwf _ => ?_⟩
      · simp only [Array.getElem?_setIfInBounds, if_pos hlt, eq_comm]
      · rw [Option.some.inj (ho.symm.trans hs)]
      · obtain ⟨vacant, hv, hnone⟩ := hwf.vacant index (by simp [hfree])
        rw [Option.some.inj (ho.symm.trans hv)]
        exact ⟨hnone, by simp [hfree, hindex hwf]⟩
      · rw [hfree, List.mem_cons] at ho
        exact ho.symm.imp_right (congrArg UInt32.toNat)
      · rw [hindex hwf]
        exact (List.nodup_cons.mp (hfree ▸ hwf.nodup)).1
    · rename_i hnone
      refine ⟨_, a.fills_append x rest (by rw [hfree]; rfl) fun hwf => ?_⟩
      obtain ⟨slot, hs, -⟩ := hwf.vacant index (by simp [hfree])
      exact absurd (hnone.symm.trans hs) (by simp)

lemma insert_wellFormed (hwf : a.WellFormed) (hsize : a.slots.size < 2 ^ 32) :
    (a.insert x).2.WellFormed := by
  obtain ⟨i, hf⟩ := a.fills_insert x
  refine ⟨fun j slot hs => ?_, hf.free ▸ hwf.nodup.tail, fun index hi => ?_⟩
  · rw [hf.slots] at hs
    split at hs
    · rename_i hj
      obtain rfl := Option.some.inj hs
      exact (hf.position hwf hsize).trans hj.symm
    · exact hwf.position _ _ hs
  · obtain ⟨slot, hs, hnone⟩ := hwf.vacant index (List.mem_of_mem_tail (hf.free ▸ hi))
    refine ⟨slot, ?_, hnone⟩
    rw [hf.slots, if_neg, hs]
    intro heq
    exact hf.unlisted hwf hsize (UInt32.toNat_inj.mp (heq.trans (hf.position hwf hsize).symm) ▸ hi)

lemma insert_advance (hwf : a.WellFormed) (hsize : a.slots.size < 2 ^ 32) :
    Advance a (a.insert x).2 [(a.insert x).1] := by
  obtain ⟨i, hf⟩ := a.fills_insert x
  have hpos := hf.position hwf hsize
  refine ⟨List.nodup_singleton _, ?_, ?_, ?_, ?_⟩
  · intro r hr
    obtain rfl := List.mem_singleton.mp hr
    rintro ⟨slot, hs, hor⟩
    rw [hpos] at hs
    rcases hor with hlt | ⟨-, hnot⟩
    · exact Nat.lt_irrefl _ (hf.current slot hs ▸ hlt)
    · exact hnot (hf.vacant hwf slot hs).2
  · rintro r ⟨slot, hs, hor⟩
    have hstill := hor.imp_right (And.imp_right fun hnot hmem =>
      hnot (List.mem_of_mem_tail (hf.free ▸ hmem)))
    by_cases hi : r.position = i
    · exact ⟨_, (hf.slots _).trans (if_pos hi), hf.current slot (hi ▸ hs) ▸ hstill⟩
    · exact ⟨slot, ((hf.slots _).trans (if_neg hi)).trans hs, hstill⟩
  · intro r hr
    obtain rfl := List.mem_singleton.mp hr
    exact ⟨_, (hf.slots _).trans (if_pos hpos), .inr ⟨rfl, hf.unlisted hwf hsize⟩⟩
  · intro r hr
    obtain ⟨slot, hs, hc, he⟩ := (contains_iff _ _).mp hr
    rw [hf.slots] at hs
    split at hs
    · obtain rfl := Option.some.inj hs
      exact .inr (List.mem_singleton.mpr hc.symm)
    · exact .inl ((contains_iff _ _).mpr ⟨slot, hs, hc, he⟩)

end Insert

section Vacate

variable (a : Arena store α) (p : Nat) (slot : ArenaSlot store α) (hwf : a.WellFormed)

include hwf

variable (hs : a.slots[p]? = some slot)

include hs

lemma ofNat_position_toNat : (UInt32.ofNat p).toNat = p := by
  have hlt := slot.current.position_lt
  rw [hwf.position _ _ hs] at hlt
  exact UInt32.toNat_ofNat_of_lt' hlt

lemma vacate_wellFormed (he : slot.entry.isSome = true) : (a.vacate p).WellFormed where
  position := by
    intro i other ho
    rw [slots_vacate] at ho
    split at ho
    · obtain ⟨before, hb, rfl⟩ := Option.map_eq_some_iff.mp ho
      simp only [SlotRef.position, ArenaSlot.emptied_index]
      exact hwf.position _ _ hb
    · exact hwf.position _ _ ho
  nodup := by
    simp only [vacate, hs]
    cases slot.current.next? with
    | none => exact hwf.nodup
    | some next =>
      refine List.nodup_cons.mpr ⟨?_, hwf.nodup⟩
      intro hmem
      obtain ⟨other, ho, hnone⟩ := hwf.vacant _ hmem
      rw [ofNat_position_toNat a p slot hwf hs, hs] at ho
      obtain rfl := Option.some.inj ho
      simp [hnone] at he
  vacant := by
    intro index hi
    by_cases hp : index.toNat = p
    · exact ⟨slot.emptied, by rw [slots_vacate, if_pos hp, hp, hs, Option.map_some], rfl⟩
    · rcases mem_free_vacate a p index hi with hmem | ⟨-, -, -, -, rfl⟩
      · obtain ⟨other, ho, hnone⟩ := hwf.vacant _ hmem
        exact ⟨other, by rw [slots_vacate, if_neg hp]; exact ho, hnone⟩
      · exact absurd (ofNat_position_toNat a p slot hwf hs) hp

lemma vacate_advance : Advance a (a.vacate p) [] where
  nodup := List.nodup_nil
  unissued := by simp
  keeps := by
    rintro r ⟨other, ho, hor⟩
    by_cases hp : r.position = p
    · obtain rfl : slot = other := Option.some.inj (hs.symm.trans (hp ▸ ho))
      refine ⟨slot.emptied, by rw [slots_vacate, if_pos hp, ho, Option.map_some], ?_⟩
      cases hn : slot.current.next? with
      | none =>
        simp only [ArenaSlot.emptied, hn, Option.getD_none, vacate, hs]
        exact hor
      | some next =>
        have hg := (SlotRef.next?_eq_some _ _ hn).2
        simp only [ArenaSlot.emptied, hn, Option.getD_some]
        rcases hor with hlt | ⟨rfl, -⟩ <;> exact .inl (by omega)
    · refine ⟨other, by rw [slots_vacate, if_neg hp]; exact ho, hor.imp_right (And.imp_right ?_)⟩
      intro hnot hmem
      rcases mem_free_vacate a p _ hmem with hfree | ⟨-, -, -, -, heq⟩
      · exact hnot hfree
      · apply hp
        rw [SlotRef.position, heq, ofNat_position_toNat a p slot hwf hs]
  issues := by simp
  valid := by
    intro r hr
    obtain ⟨other, ho, hc, he⟩ := (contains_iff _ _).mp hr
    rw [slots_vacate] at ho
    split at ho
    · obtain ⟨before, -, rfl⟩ := Option.map_eq_some_iff.mp ho
      simp [ArenaSlot.emptied] at he
    · exact .inl ((contains_iff _ _).mpr ⟨other, ho, hc, he⟩)

end Vacate

section Sweep

variable (dead : Nat → α → Bool)

def sweepAt (a : Arena store α) (p : Nat) : Arena store α :=
  match a.slots[p]?.bind (·.entry) with
  | none => a
  | some x => if dead p x then a.vacate p else a

def sweep (a : Arena store α) (positions : List Nat) : Arena store α :=
  positions.foldl (sweepAt dead) a

section

variable (a : Arena store α)

lemma slots_sweepAt (p i : Nat) :
    (a.sweepAt dead p).slots[i]? =
      if i = p then a.slots[i]?.map (·.swept (dead p)) else a.slots[i]? := by
  by_cases hi : i = p
  · subst hi
    cases hs : a.slots[i]? with
    | none => simp [sweepAt, hs]
    | some slot =>
      cases he : slot.entry with
      | none => simp [sweepAt, ArenaSlot.swept, hs, he]
      | some x => by_cases hd : dead i x = true <;>
          simp [sweepAt, slots_vacate, ArenaSlot.swept, hs, he, hd]
  · rw [if_neg hi]
    unfold sweepAt
    repeat' split
    all_goals simp [slots_vacate, hi]

lemma slots_sweep (positions : List Nat) (i : Nat) :
    (a.sweep dead positions).slots[i]? =
      if i ∈ positions then a.slots[i]?.map (·.swept (dead i)) else a.slots[i]? := by
  induction positions generalizing a with
  | nil => simp [sweep]
  | cons p rest ih =>
    have hrest := ih (a.sweepAt dead p)
    simp only [sweep, List.foldl_cons] at hrest ⊢
    rw [hrest, slots_sweepAt]
    by_cases hi : i = p
    · subst hi
      cases a.slots[i]? <;> simp
    · simp [hi]

lemma sweepAt_advance (p : Nat) (hwf : a.WellFormed) :
    (a.sweepAt dead p).WellFormed ∧ Advance a (a.sweepAt dead p) [] := by
  unfold sweepAt
  split
  · exact ⟨hwf, .refl a⟩
  · rename_i x hx
    obtain ⟨slot, hs, he⟩ := Option.bind_eq_some_iff.mp hx
    split
    · exact ⟨vacate_wellFormed a p slot hwf hs (by simp [he]), vacate_advance a p slot hwf hs⟩
    · exact ⟨hwf, .refl a⟩

lemma sweep_advance (positions : List Nat) (hwf : a.WellFormed) :
    (a.sweep dead positions).WellFormed ∧ Advance a (a.sweep dead positions) [] := by
  induction positions generalizing a with
  | nil => exact ⟨hwf, .refl a⟩
  | cons p rest ih =>
    obtain ⟨hstep, hfirst⟩ := sweepAt_advance dead a p hwf
    exact ⟨(ih _ hstep).1, hfirst.trans (ih _ hstep).2⟩

lemma get?_sweep (r : SlotRef store) :
    (a.sweep dead (List.range a.slots.size)).get? r =
      (a.get? r).filter fun x => !dead r.position x := by
  have hslot : (a.sweep dead (List.range a.slots.size)).slots[r.position]? =
      a.slots[r.position]?.map (·.swept (dead r.position)) := by
    rw [slots_sweep]
    split
    · rfl
    · rename_i hout
      simp [Array.getElem?_eq_none (Nat.le_of_not_lt (mt List.mem_range.mpr hout))]
  unfold get?
  rw [hslot]
  cases hs : a.slots[r.position]? with
  | none => rfl
  | some slot =>
    obtain ⟨current, entry⟩ := slot
    cases entry with
    | none => simp [ArenaSlot.swept]
    | some x =>
      by_cases hd : dead r.position x = true
      · by_cases hc : current = r <;>
          simp [ArenaSlot.swept, ArenaSlot.emptied, Option.filter, hd, hc]
      · by_cases hc : current = r <;> simp [ArenaSlot.swept, Option.filter, hd, hc]

end

def dying (a : Arena store α) (positions : List Nat) : List α :=
  positions.filterMap fun p => (a.slots[p]?.bind (·.entry)).filter (dead p)

def sweepLogAt {β : Type} (log : β → α → β) (acc : Arena store α × β) (p : Nat) :
    Arena store α × β :=
  match acc.1.slots[p]?.bind (·.entry) with
  | none => acc
  | some x => if dead p x then (acc.1.vacate p, log acc.2 x) else acc

-- No position comes twice, so what is freed at one was there from the start.
lemma foldl_sweepLogAt (log : β → α → β) (a : Arena store α) (out : β) (positions : List Nat)
    (hn : positions.Nodup) :
    positions.foldl (sweepLogAt dead log) (a, out) =
      (a.sweep dead positions, (a.dying dead positions).foldl log out) := by
  induction positions generalizing a out with
  | nil => rfl
  | cons p rest ih =>
    obtain ⟨hp, hrest⟩ := List.nodup_cons.mp hn
    have hsame : (a.sweepAt dead p).dying dead rest = a.dying dead rest := by
      apply List.filterMap_congr
      intro q hq
      rw [slots_sweepAt, if_neg (fun he : q = p => hp (he ▸ hq))]
    have hstep : sweepLogAt dead log (a, out) p =
        (a.sweepAt dead p, (a.dying dead [p]).foldl log out) := by
      simp only [sweepLogAt, sweepAt, dying, List.filterMap_cons, List.filterMap_nil]
      cases a.slots[p]?.bind (·.entry) with
      | none => rfl
      | some x =>
        by_cases hd : dead p x = true <;> simp [Option.filter, hd]
    have hsplit : a.dying dead (p :: rest) = a.dying dead [p] ++ a.dying dead rest := by
      simp only [dying, ← List.filterMap_append, List.cons_append, List.nil_append]
    rw [List.foldl_cons, hstep, ih _ _ hrest, hsame, hsplit, List.foldl_append]
    rfl

lemma foldl_of_sweepLogAt {γ : Type} (log : β → α → β) (place : Arena store α × β → γ)
    (step : γ → Nat → γ) (hstep : ∀ s p, step (place s) p = place (sweepLogAt dead log s p))
    (a : Arena store α) (out : β) (positions : List Nat) (hn : positions.Nodup) :
    positions.foldl step (place (a, out)) =
      place (a.sweep dead positions, (a.dying dead positions).foldl log out) := by
  rw [List.foldl_hom place hstep, foldl_sweepLogAt dead log a out positions hn]

end Sweep

section Lookup

variable (a : Arena store α)

lemma get?_insert_of_get? (hwf : a.WellFormed) (x y : α) (r : SlotRef store)
    (h : a.get? r = some y) : (a.insert x).2.get? r = some y := by
  obtain ⟨slot, hs, hc, he⟩ := (get?_eq_some_iff a r y).mp h
  obtain ⟨i, hf⟩ := a.fills_insert x
  refine (get?_eq_some_iff _ r y).mpr ⟨slot, ?_, hc, he⟩
  rw [hf.slots, if_neg, hs]
  intro hi
  simp [(hf.vacant hwf slot (hi ▸ hs)).1] at he

lemma get?_insert_self (hwf : a.WellFormed) (hsize : a.slots.size < 2 ^ 32) (x : α) :
    (a.insert x).2.get? (a.insert x).1 = some x := by
  obtain ⟨i, hf⟩ := a.fills_insert x
  exact (get?_eq_some_iff _ _ x).mpr
    ⟨_, (hf.slots _).trans (if_pos (hf.position hwf hsize)), rfl, rfl⟩

lemma get?_insert_ne (x : α) (r : SlotRef store) (hr : r ≠ (a.insert x).1) :
    (a.insert x).2.get? r = a.get? r := by
  obtain ⟨i, hf⟩ := a.fills_insert x
  simp only [get?, hf.slots]
  by_cases hi : r.position = i
  · cases hs : a.slots[i]? with
    | none => simp [hi, hs, hr.symm]
    | some slot => simp [hi, hs, hf.current slot hs, hr.symm]
  · rw [if_neg hi]

-- With no condition on the arena: what is found afterwards was there, or was inserted.
lemma get?_insert (x : α) (r : SlotRef store) (y : α) (h : (a.insert x).2.get? r = some y) :
    y = x ∨ a.get? r = some y := by
  obtain ⟨slot, hs, hc, he⟩ := (get?_eq_some_iff _ r y).mp h
  obtain ⟨i, hf⟩ := a.fills_insert x
  rw [hf.slots] at hs
  split at hs
  · obtain rfl := Option.some.inj hs
    exact .inl (Option.some.inj he).symm
  · exact .inr ((get?_eq_some_iff a r y).mpr ⟨slot, hs, hc, he⟩)

lemma get?_modify (r s : SlotRef store) (f : α → α) :
    (a.modify r f).get? s = if s = r then (a.get? s).map f else a.get? s := by
  unfold get?
  rw [slots_modify]
  cases hs : a.slots[s.position]? with
  | none => simp
  | some slot =>
    by_cases hsr : s = r
    · subst hsr
      by_cases hc : slot.current = s <;> simp [hc]
    · by_cases hc : slot.current = r
      · have hcs : ¬ r = s := fun heq => hsr heq.symm
        by_cases hp : s.position = r.position <;> simp [hc, hcs, hsr, hp]
      · simp [hc, hsr]

lemma get?_remove (r s : SlotRef store) :
    (a.remove r).2.get? s = if s = r then none else a.get? s := by
  unfold remove
  split
  · rename_i hr
    obtain ⟨slot, hs, hc, -⟩ := (contains_iff a r).mp hr
    unfold get?
    rw [slots_vacate]
    by_cases hp : s.position = r.position
    · have hother : s ≠ r → slot.current ≠ s := fun hne heq => hne (heq.symm.trans hc)
      by_cases hsr : s = r
      · simp [hsr, hs, ArenaSlot.emptied]
      · simp [hsr, hp, hs, ArenaSlot.emptied, hother hsr]
    · have hsr : s ≠ r := fun heq => hp (heq ▸ rfl)
      simp [hp, hsr]
  · rename_i hr
    split
    · rename_i hsr
      subst hsr
      simpa [contains] using hr
    · rfl

end Lookup

section Entries

variable (a : Arena store α)

lemma mem_entries_of_get? (r : SlotRef store) (x : α) (h : a.get? r = some x) : x ∈ a.entries := by
  obtain ⟨slot, hs, -, he⟩ := (get?_eq_some_iff a r x).mp h
  exact List.mem_filterMap.mpr ⟨slot, Array.mem_toList_iff.mpr (Array.mem_of_getElem? hs), he⟩

lemma entries_set (i : Nat) (slot : ArenaSlot store α) (hs : a.slots[i]? = some slot) :
    ∃ pre post, a.entries = pre ++ slot.entry.toList ++ post ∧
      ∀ (other : ArenaSlot store α) (free : List UInt32),
        (Arena.mk (a.slots.setIfInBounds i other) free).entries = pre ++ other.entry.toList ++ post := by
  obtain ⟨hlt, hget⟩ := Array.getElem?_eq_some_iff.mp hs
  have hlist : i < a.slots.toList.length := hlt
  have hone : ∀ other : ArenaSlot store α, [other].filterMap (·.entry) = other.entry.toList := by
    intro other
    cases he : other.entry <;> simp [he]
  refine ⟨(a.slots.toList.take i).filterMap (·.entry),
    (a.slots.toList.drop (i + 1)).filterMap (·.entry), ?_, ?_⟩
  · have hsplit : a.slots.toList = a.slots.toList.take i ++ [slot] ++ a.slots.toList.drop (i + 1) := by
      rw [List.append_assoc, List.singleton_append, ← hget, ← Array.getElem_toList,
        List.getElem_cons_drop, List.take_append_drop]
    rw [entries, hsplit, List.filterMap_append, List.filterMap_append, hone, ← hsplit]
  · intro other free
    rw [entries, Array.toList_setIfInBounds, List.set_eq_take_append_cons_drop, if_pos hlist,
      ← List.singleton_append, List.filterMap_append, List.filterMap_append, hone, List.append_assoc]

lemma entries_insert (x : α) :
    ∃ pre old post, a.entries = pre ++ old ++ post ∧ (a.insert x).2.entries = pre ++ [x] ++ post := by
  have happend : ∀ b : Arena store α, b.slots = a.slots →
      (b.append x).2.entries = a.entries ++ [x] ++ [] := by
    intro b hb
    simp [append, entries, hb]
  unfold insert
  split
  · exact ⟨a.entries, [], [], by simp, happend a rfl⟩
  · split
    · rename_i slot hs
      obtain ⟨pre, post, hpre, hset⟩ := a.entries_set _ slot hs
      exact ⟨pre, _, post, hpre, hset _ _⟩
    · exact ⟨a.entries, [], [], by simp, happend _ rfl⟩

lemma contains_insert (x : α) (r : SlotRef store) (h : a.contains r = true) :
    (a.insert x).2.contains r = true := by
  obtain ⟨slot, hs, hc, he⟩ := (contains_iff a r).mp h
  obtain ⟨i, hf⟩ := a.fills_insert x
  refine (contains_iff _ r).mpr ?_
  by_cases hi : r.position = i
  · exact ⟨_, (hf.slots _).trans (if_pos hi), (hf.current slot (hi ▸ hs)).symm.trans hc, rfl⟩
  · exact ⟨slot, ((hf.slots _).trans (if_neg hi)).trans hs, hc, he⟩

lemma entries_remove (r : SlotRef store) :
    ∃ pre old post, a.entries = pre ++ old ++ post ∧ (a.remove r).2.entries = pre ++ post := by
  unfold remove
  split
  · rename_i hr
    obtain ⟨slot, hs, -⟩ := (contains_iff a r).mp hr
    obtain ⟨pre, post, hpre, hset⟩ := a.entries_set _ slot hs
    refine ⟨pre, _, post, hpre, ?_⟩
    have hv := hset slot.emptied (a.vacate r.position).free
    rw [← vacate_slots a _ slot hs] at hv
    simpa [ArenaSlot.emptied] using hv
  · exact ⟨a.entries, [], [], by simp, by simp⟩

lemma entries_modify (r : SlotRef store) (f : α → α) (x : α) (h : a.get? r = some x) :
    ∃ pre post, a.entries = pre ++ [x] ++ post ∧ (a.modify r f).entries = pre ++ [f x] ++ post := by
  obtain ⟨slot, hs, hc, he⟩ := (get?_eq_some_iff a r x).mp h
  obtain ⟨pre, post, hpre, hset⟩ := a.entries_set _ slot hs
  refine ⟨pre, post, by simpa [he] using hpre, ?_⟩
  have hmod : (a.modify r f).slots =
      a.slots.setIfInBounds r.position { slot with entry := slot.entry.map f } := by
    apply Array.ext_getElem?
    intro i
    have hlt : r.position < a.slots.size := (Array.getElem?_eq_some_iff.mp hs).1
    rw [slots_modify, Array.getElem?_setIfInBounds, if_pos hlt]
    by_cases hi : r.position = i
    · simp [← hi, hs, hc]
    · simp [hi, Ne.symm hi]
  have hv := hset { slot with entry := slot.entry.map f } (a.modify r f).free
  rw [← hmod] at hv
  simpa [he] using hv

lemma mem_entries_iff (x : α) :
    x ∈ a.entries ↔ ∃ i : Nat, ∃ slot, a.slots[i]? = some slot ∧ slot.entry = some x := by
  simp only [entries, List.mem_filterMap, Array.mem_toList_iff, Array.mem_iff_getElem?]
  constructor
  · rintro ⟨slot, ⟨i, hs⟩, he⟩
    exact ⟨i, slot, hs, he⟩
  · rintro ⟨i, slot, hs, he⟩
    exact ⟨slot, ⟨i, hs⟩, he⟩

lemma mem_entries_modify (r : SlotRef store) (f : α → α) (x : α)
    (h : x ∈ (a.modify r f).entries) : x ∈ a.entries ∨ ∃ y, a.get? r = some y ∧ f y = x := by
  cases hr : a.get? r with
  | some y =>
    obtain ⟨pre, post, hold, hnew⟩ := a.entries_modify r f y hr
    simp only [hnew, List.mem_append, List.mem_singleton] at h
    rcases h with (h | rfl) | h
    · exact .inl (by simp [hold, h])
    · exact .inr ⟨y, rfl, rfl⟩
    · exact .inl (by simp [hold, h])
  | none =>
    obtain ⟨i, slot, hs, he⟩ := ((a.modify r f).mem_entries_iff x).mp h
    rw [slots_modify] at hs
    obtain ⟨before, hb, rfl⟩ := Option.map_eq_some_iff.mp hs
    refine .inl ((a.mem_entries_iff x).mpr ⟨i, before, hb, ?_⟩)
    split at he
    · rename_i hcond
      obtain ⟨y, hy, -⟩ := Option.map_eq_some_iff.mp he
      have hget : a.get? r = some y :=
        (get?_eq_some_iff a r y).mpr ⟨before, hcond.1 ▸ hb, hcond.2, hy⟩
      exact absurd hget (by simp [hr])
    · exact he

lemma mem_entries_retire (r : SlotRef store) (x : α) (h : x ∈ (a.retire r).entries) :
    x ∈ a.entries := by
  obtain ⟨i, slot, hs, he⟩ := ((a.retire r).mem_entries_iff x).mp h
  rw [retire, Array.getElem?_modify] at hs
  split at hs
  · obtain ⟨before, hb, rfl⟩ := Option.map_eq_some_iff.mp hs
    split at he
    · cases he
    · exact (a.mem_entries_iff x).mpr ⟨i, before, hb, he⟩
  · exact (a.mem_entries_iff x).mpr ⟨i, slot, hs, he⟩

lemma entries_sweep (dead : α → Bool) :
    (a.sweep (fun _ => dead) (List.range a.slots.size)).entries = a.entries.filter (!dead ·) := by
  have hslots : (a.sweep (fun _ => dead) (List.range a.slots.size)).slots =
      a.slots.map (·.swept dead) := by
    apply Array.ext_getElem?
    intro i
    rw [slots_sweep, Array.getElem?_map]
    split
    · rfl
    · rename_i hout
      simp [Array.getElem?_eq_none (Nat.le_of_not_lt (mt List.mem_range.mpr hout))]
  rw [entries, hslots, Array.toList_map, List.filterMap_map, entries, List.filter_filterMap]
  apply List.filterMap_congr
  intro slot _
  cases he : slot.entry with
  | none => simp [ArenaSlot.swept, he]
  | some x => cases hd : dead x <;> simp [ArenaSlot.swept, ArenaSlot.emptied, Option.filter, he, hd]

lemma sublist_entries_sweep (dead : Nat → α → Bool) (positions : List Nat) :
    (a.sweep dead positions).entries.Sublist a.entries := by
  induction positions generalizing a with
  | nil => exact .refl _
  | cons p rest ih =>
    refine (ih (a.sweepAt dead p)).trans ?_
    unfold sweepAt
    split
    · exact .refl _
    · rename_i x hx
      obtain ⟨slot, hs, -⟩ := Option.bind_eq_some_iff.mp hx
      split
      · obtain ⟨pre, post, hpre, hset⟩ := a.entries_set p slot hs
        have hv := hset slot.emptied (a.vacate p).free
        rw [← vacate_slots a p slot hs] at hv
        rw [hpre, show (a.vacate p).entries = _ from hv]
        simp [ArenaSlot.emptied]
      · exact .refl _

lemma modify_of_get?_eq_none (r : SlotRef store) (f : α → α) (h : a.get? r = none) :
    a.modify r f = a := by
  have hslots : (a.modify r f).slots = a.slots := by
    apply Array.ext_getElem?
    intro i
    rw [slots_modify]
    cases hs : a.slots[i]? with
    | none => rfl
    | some slot =>
      rw [Option.map_some]
      split
      · rename_i hand
        obtain ⟨rfl, hc⟩ := hand
        have hempty : slot.entry = none := by simpa [get?, hs, hc] using h
        rw [hempty, Option.map_none, ← hempty]
      · rfl
  exact congrArg (Arena.mk · a.free) hslots

lemma dying_eq_filter (dead : α → Bool) :
    a.dying (fun _ => dead) (List.range a.slots.size) = a.entries.filter dead := by
  have hslots : (List.range a.slots.size).map (a.slots[·]?) = a.slots.toList.map some := by
    apply List.ext_getElem
    · simp
    · intro i hi _
      have hlt : i < a.slots.size := by simpa using hi
      simp [hlt]
  have hdying : a.dying (fun _ => dead) (List.range a.slots.size) =
      ((List.range a.slots.size).map (a.slots[·]?)).filterMap
        fun slot => (slot.bind (·.entry)).filter dead := by
    rw [dying, List.filterMap_map]
    rfl
  rw [hdying, hslots, List.filterMap_map, entries, List.filter_filterMap]
  rfl

end Entries

-- The four ways in which an arena is changed, with the references that each hands out.
inductive Step (a : Arena store α) : Arena store α → List (SlotRef store) → Prop where
  | same {b : Arena store α} (h : SameShape a b) : Step a b []
  | insert (x : α) : Step a (a.insert x).2 [(a.insert x).1]
  | remove (r : SlotRef store) : Step a (a.remove r).2 []
  | sweep (dead : Nat → α → Bool) (positions : List Nat) : Step a (a.sweep dead positions) []

lemma Step.refl (a : Arena store α) : Step a a [] := .same (.refl a)

-- An arena that has not run out of positions moves on like this in every operation.
structure Progress (a b : Arena store α) (fresh : List (SlotRef store)) : Prop where
  size : a.slots.size ≤ b.slots.size
  wellFormed : a.WellFormed → b.slots.size < 2 ^ 32 → b.WellFormed
  advance : a.WellFormed → b.slots.size < 2 ^ 32 → Advance a b fresh

namespace Progress

variable {a b c : Arena store α} {xs ys : List (SlotRef store)}

lemma refl (a : Arena store α) : Progress a a [] :=
  ⟨Nat.le_refl _, fun hwf _ => hwf, fun _ _ => .refl a⟩

lemma trans (hab : Progress a b xs) (hbc : Progress b c ys) : Progress a c (xs ++ ys) where
  size := Nat.le_trans hab.size hbc.size
  wellFormed hwf hsize :=
    hbc.wellFormed (hab.wellFormed hwf (Nat.lt_of_le_of_lt hbc.size hsize)) hsize
  advance hwf hsize := by
    have hb : b.slots.size < 2 ^ 32 := Nat.lt_of_le_of_lt hbc.size hsize
    exact (hab.advance hwf hb).trans (hbc.advance (hab.wellFormed hwf hb) hsize)

lemma of_sameShape (h : SameShape a b) : Progress a b [] where
  size := by
    by_contra hlt
    have hs : a.slots[b.slots.size]? = some (a.slots[b.slots.size]) :=
      Array.getElem?_eq_getElem (by omega)
    obtain ⟨other, ho, -⟩ := h.slot_of hs
    simp at ho
  wellFormed hwf _ := h.wellFormed hwf
  advance _ _ := h.advance

lemma insert (a : Arena store α) (x : α) : Progress a (a.insert x).2 [(a.insert x).1] := by
  have hsize : a.slots.size ≤ (a.insert x).2.slots.size := by
    unfold Arena.insert
    repeat' split
    all_goals simp [append]
  refine ⟨hsize, fun hwf hlt => ?_, fun hwf hlt => ?_⟩
  · exact insert_wellFormed a x hwf (Nat.lt_of_le_of_lt hsize hlt)
  · exact insert_advance a x hwf (Nat.lt_of_le_of_lt hsize hlt)

lemma remove (a : Arena store α) (r : SlotRef store) : Progress a (a.remove r).2 [] := by
  unfold Arena.remove
  split
  · rename_i hr
    obtain ⟨slot, hs, -, he⟩ := (contains_iff a r).mp hr
    exact ⟨Nat.le_of_eq (size_vacate a _).symm, fun hwf _ => vacate_wellFormed a _ slot hwf hs he,
      fun hwf _ => vacate_advance a _ slot hwf hs⟩
  · exact .refl a

lemma sweep (a : Arena store α) (dead : Nat → α → Bool) (positions : List Nat) :
    Progress a (a.sweep dead positions) [] where
  size := by
    by_contra hlt
    have hs := slots_sweep dead a positions (a.sweep dead positions).slots.size
    rw [Array.getElem?_eq_none (Nat.le_refl _),
      Array.getElem?_eq_getElem (show (a.sweep dead positions).slots.size < a.slots.size by omega)] at hs
    split at hs <;> simp at hs
  wellFormed hwf _ := (sweep_advance dead a positions hwf).1
  advance hwf _ := (sweep_advance dead a positions hwf).2

lemma of_step (h : Step a b xs) : Progress a b xs := by
  cases h with
  | same h => exact .of_sameShape h
  | insert x => exact .insert a x
  | remove r => exact .remove a r
  | sweep dead positions => exact .sweep a dead positions

lemma stays_invalid (hab : Progress a b xs) (hbc : Progress b c ys) (hwf : a.WellFormed)
    (hsize : c.slots.size < 2 ^ 32) (ha : a.contains r = true) (hb : ¬ b.contains r = true) :
    ¬ c.contains r = true := by
  have hmid : b.slots.size < 2 ^ 32 := Nat.lt_of_le_of_lt hbc.size hsize
  have hissued : b.Issued r := (hab.advance hwf hmid).keeps r (hwf.issued_of_contains ha)
  exact (hbc.advance (hab.wellFormed hwf hmid) hsize).stays_invalid hissued hb

lemma stays_dead {d : Arena store α} {zs : List (SlotRef store)} (hab : Progress a b xs)
    (hbc : Progress b c ys) (hcd : Progress c d zs) (hwf : a.WellFormed)
    (hsize : d.slots.size < 2 ^ 32) (hb : b.contains r = true) (hc : c.contains r = false) :
    d.contains r = false := by
  have hmid := hab.wellFormed hwf (Nat.lt_of_le_of_lt (Nat.le_trans hbc.size hcd.size) hsize)
  exact Bool.eq_false_iff.mpr (hbc.stays_invalid hcd hmid hsize hb (Bool.eq_false_iff.mp hc))

end Progress

end Arena

end HostBoundary
