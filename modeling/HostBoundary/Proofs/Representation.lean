import HostBoundary.Proofs.CallSites
import HostBoundary.Proofs.WeakReclaim

namespace HostBoundary

variable {h : Heap} {objects : List ObjectRef} {slots : List PersistentRef}

-- The last generation of a slot has been given out. Once vacant, it cannot be used again.
def ArenaSlot.Exhausted {store : Store} {α : Type} (slot : ArenaSlot store α)
    (given : List (SlotRef store)) : Prop :=
  slot.current.next? = none ∧ slot.current ∈ given

namespace Arena

variable {store : Store} {α : Type} {a b : Arena store α} {slot : ArenaSlot store α}

def Positioned (a : Arena store α) : Prop :=
  ∀ (i : Nat) (slot : ArenaSlot store α), a.slots[i]? = some slot → slot.current.position = i

lemma Positioned.append (hp : a.Positioned) (x : α) (hsize : a.slots.size < 2 ^ 32) :
    (a.append x).2.Positioned := by
  intro i slot hs
  rw [slots_append] at hs
  split at hs
  · rename_i hi
    obtain rfl := Option.some.inj hs
    exact (append_position a x hsize).trans hi.symm
  · exact hp i slot hs

lemma Positioned.modify (hp : a.Positioned) (r : SlotRef store) (f : α → α) :
    (a.modify r f).Positioned := by
  intro i slot hs
  rw [slots_modify] at hs
  obtain ⟨before, hb, rfl⟩ := Option.map_eq_some_iff.mp hs
  have hbefore := hp i before hb
  split <;> exact hbefore

lemma Positioned.retire (hp : a.Positioned) (r : SlotRef store) : (a.retire r).Positioned := by
  intro i slot hs
  rw [Arena.retire, Array.getElem?_modify] at hs
  split at hs
  · obtain ⟨before, hb, rfl⟩ := Option.map_eq_some_iff.mp hs
    have hbefore := hp i before hb
    split
    · have hindex := before.emptied_index
      simp only [SlotRef.position] at hbefore ⊢
      rw [← hbefore]
      exact congrArg UInt32.toNat hindex
    · exact hbefore
  · exact hp i slot hs

-- An arena and the references that were given out from it so far. The free list names,
-- each once, exactly the vacant slots that can be used again.
structure Represents (a : Arena store α) (given : List (SlotRef store)) : Prop where
  position : a.Positioned
  nodup : a.free.Nodup
  free : ∀ index, index ∈ a.free ↔
    ∃ slot, a.slots[index.toNat]? = some slot ∧ slot.entry = none ∧ ¬ slot.Exhausted given
  occupied : ∀ (i : Nat) (slot : ArenaSlot store α), a.slots[i]? = some slot →
    slot.entry.isSome = true → slot.current ∈ given
  issued : ∀ r ∈ given, a.Issued r

namespace Represents

variable {a : Arena store α} {given : List (SlotRef store)}

lemma wellFormed (h : a.Represents given) : a.WellFormed where
  position := h.position
  nodup := h.nodup
  vacant := by
    intro index hi
    obtain ⟨slot, hs, hnone, -⟩ := (h.free index).mp hi
    exact ⟨slot, hs, hnone⟩

lemma empty : ({} : Arena store α).Represents [] where
  position := by simp [Positioned]
  nodup := List.nodup_nil
  free := by simp
  occupied := by simp
  issued := by simp

lemma single (r : SlotRef store) (x : α) (hr : r.position = 0) :
    ({ slots := #[⟨r, some x⟩] } : Arena store α).Represents [r] := by
  have hone : ∀ (i : Nat) (slot : ArenaSlot store α),
      #[(⟨r, some x⟩ : ArenaSlot store α)][i]? = some slot → i = 0 ∧ slot = ⟨r, some x⟩ := by
    intro i slot hs
    cases i with
    | zero => exact ⟨rfl, (Option.some.inj hs).symm⟩
    | succ i => simp at hs
  refine ⟨?_, List.nodup_nil, fun index => ⟨by simp, ?_⟩, ?_, ?_⟩
  · intro i slot hs
    obtain ⟨rfl, rfl⟩ := hone i slot hs
    exact hr
  · rintro ⟨slot, hs, hnone, -⟩
    obtain ⟨-, rfl⟩ := hone _ slot hs
    cases hnone
  · intro i slot hs _
    obtain ⟨-, rfl⟩ := hone i slot hs
    exact List.mem_singleton.mpr rfl
  · intro s hs
    obtain rfl := List.mem_singleton.mp hs
    exact ⟨⟨s, some x⟩, by simp [hr], .inr ⟨rfl, by simp⟩⟩

-- A slot that is not on the free list was given out under its current reference, and if it
-- is vacant all the same, there is no next one.
lemma off_list (h : a.Represents given) {i : Nat} (hs : a.slots[i]? = some slot)
    (hoff : slot.current.index ∉ a.free) :
    slot.current ∈ given ∧ (slot.entry = none → slot.current.next? = none) := by
  have hpos : slot.current.index.toNat = i := h.position i slot hs
  cases he : slot.entry with
  | some x => exact ⟨h.occupied i slot hs (by simp [he]), by simp⟩
  | none =>
    have hexhausted : slot.Exhausted given := by
      by_contra hnot
      exact hoff ((h.free _).mpr ⟨slot, hpos ▸ hs, he, hnot⟩)
    exact ⟨hexhausted.2, fun _ => hexhausted.1⟩

-- What has to be known of a well-formed arena. The free list is the right one because a
-- reference that waits on it has not been given out.
lemma of_wellFormed (hwf : a.WellFormed) (hissued : ∀ r ∈ given, a.Issued r)
    (hoff : ∀ (i : Nat) (slot : ArenaSlot store α), a.slots[i]? = some slot →
      slot.current.index ∉ a.free →
      slot.current ∈ given ∧ (slot.entry = none → slot.current.next? = none)) :
    a.Represents given where
  position := hwf.position
  nodup := hwf.nodup
  free := by
    intro index
    constructor
    · intro hi
      obtain ⟨slot, hs, hnone⟩ := hwf.vacant index hi
      have hindex : slot.current.index = index := UInt32.toNat_inj.mp (hwf.position _ slot hs)
      refine ⟨slot, hs, hnone, fun hexhausted => ?_⟩
      obtain ⟨other, ho, hor⟩ := hissued _ hexhausted.2
      have hsame : other = slot := by
        have hpos : slot.current.position = index.toNat := hwf.position _ slot hs
        rw [hpos, hs] at ho
        exact (Option.some.inj ho).symm
      rcases hor with hlt | ⟨-, hnot⟩
      · exact Nat.lt_irrefl _ (hsame ▸ hlt)
      · exact hnot (hindex ▸ hi)
    · rintro ⟨slot, hs, hnone, hnot⟩
      have hindex : slot.current.index = index := UInt32.toNat_inj.mp (hwf.position _ slot hs)
      by_contra hi
      obtain ⟨hgiven, hlast⟩ := hoff _ slot hs (hindex ▸ hi)
      exact hnot ⟨hlast hnone, hgiven⟩
  occupied := by
    intro i slot hs he
    refine (hoff i slot hs fun hfree => ?_).1
    obtain ⟨other, ho, hnone⟩ := hwf.vacant _ hfree
    have hpos : slot.current.index.toNat = i := hwf.position i slot hs
    rw [hpos, hs] at ho
    rw [Option.some.inj ho, hnone] at he
    cases he
  issued := hissued

lemma sameShape (h : a.Represents given) (hab : SameShape a b) : b.Represents given := by
  refine .of_wellFormed (hab.wellFormed h.wellFormed) (fun r hr => hab.issued (h.issued r hr)) ?_
  intro i slot hs hoff
  obtain ⟨before, hb, hcur, hsome⟩ := hab.symm.slot_of hs
  have hbefore := h.off_list hb (by rw [hcur, ← hab.free]; exact hoff)
  rw [hcur] at hbefore
  refine ⟨hbefore.1, fun hnone => hbefore.2 ?_⟩
  simpa [hnone] using hsome

lemma insert (h : a.Represents given) (x : α) (hsize : a.slots.size < 2 ^ 32) :
    (a.insert x).2.Represents (given ++ [(a.insert x).1]) := by
  have hadvance := insert_advance a x h.wellFormed hsize
  obtain ⟨i, hf⟩ := a.fills_insert x
  refine .of_wellFormed (insert_wellFormed a x h.wellFormed hsize) ?_ ?_
  · intro r hr
    rcases List.mem_append.mp hr with hgiven | hnew
    · exact hadvance.keeps r (h.issued r hgiven)
    · exact hadvance.issues r hnew
  · intro j slot hs hoff
    -- A slot that was there before is in the old list of references.
    have hold : a.slots[j]? = some slot → slot.current.index ∉ a.free →
        slot.current ∈ given ++ [(a.insert x).1] ∧ (slot.entry = none → slot.current.next? = none) :=
      fun hb hnot => ⟨List.mem_append_left _ (h.off_list hb hnot).1, (h.off_list hb hnot).2⟩
    rw [hf.slots] at hs
    split at hs
    · obtain rfl := Option.some.inj hs
      simp
    · rename_i hne
      refine hold hs fun hfree => (hf.taken h.wellFormed _ hfree).elim hoff fun hi => hne ?_
      exact (h.position j slot hs).symm.trans hi

-- An occupied slot that is freed goes to the free list under its next reference, which has
-- not been given out; without a next one it stays off the list.
lemma vacate (h : a.Represents given) {p : Nat} (hs : a.slots[p]? = some slot)
    (he : slot.entry.isSome = true) : (a.vacate p).Represents given := by
  have hadvance := vacate_advance a p slot h.wellFormed hs
  refine .of_wellFormed (vacate_wellFormed a p slot h.wellFormed hs he)
    (fun r hr => hadvance.keeps r (h.issued r hr)) ?_
  intro i other ho hoff
  have hkept : ∀ index ∈ a.free, index ∈ (a.vacate p).free := by
    intro index hi
    simp only [Arena.vacate, hs]
    cases slot.current.next? with
    | none => exact hi
    | some next => exact List.mem_cons_of_mem _ hi
  rw [slots_vacate] at ho
  split at ho
  · rename_i hi
    rw [hi, hs, Option.map_some] at ho
    obtain rfl := Option.some.inj ho
    cases hnext : slot.current.next? with
    | none =>
      have hcur : slot.emptied.current = slot.current := by simp [ArenaSlot.emptied, hnext]
      rw [hcur]
      exact ⟨h.occupied p slot hs he, fun _ => hnext⟩
    | some next =>
      -- The slot is on the list now.
      have hindex : slot.emptied.current.index = UInt32.ofNat p := by
        have hpos : slot.current.index.toNat = p := h.position p slot hs
        rw [ArenaSlot.emptied_index, ← hpos, UInt32.ofNat_toNat]
      exact absurd (by simp [Arena.vacate, hs, hnext, hindex]) hoff
  · exact h.off_list ho fun hfree => hoff (hkept _ hfree)

lemma sweepAt (h : a.Represents given) (dead : Nat → α → Bool) (p : Nat) :
    (a.sweepAt dead p).Represents given := by
  unfold Arena.sweepAt
  split
  · exact h
  · rename_i x hx
    obtain ⟨slot, hs, he⟩ := Option.bind_eq_some_iff.mp hx
    split
    · exact h.vacate hs (by simp [he])
    · exact h

lemma sweep (h : a.Represents given) (dead : Nat → α → Bool) (positions : List Nat) :
    (a.sweep dead positions).Represents given := by
  induction positions generalizing a with
  | nil => exact h
  | cons p rest ih => exact ih (h.sweepAt dead p)

lemma step (h : a.Represents given) {fresh : List (SlotRef store)} (hab : Step a b fresh)
    (hsize : b.slots.size < 2 ^ 32) : b.Represents (given ++ fresh) := by
  have hle : a.slots.size ≤ b.slots.size := (Progress.of_step hab).size
  cases hab with
  | same hshape => simpa using h.sameShape hshape
  | insert x => exact h.insert x (by omega)
  | remove r =>
    rw [List.append_nil]
    unfold Arena.remove
    split
    · rename_i hr
      obtain ⟨slot, hs, -, he⟩ := (contains_iff a r).mp hr
      exact h.vacate hs he
    · exact h
  | sweep dead positions => simpa using h.sweep dead positions

end Represents

end Arena

namespace Heap

-- The representation of a heap, with the references to objects and the persistent
-- references that were given out so far.
structure Represents (h : Heap) (objects : List ObjectRef) (slots : List PersistentRef) : Prop where
  objects : h.objects.Represents objects
  persistents : h.persistents.Represents slots
  templates : h.templates.Positioned
  targets : h.TargetsLive

structure Spacious (h : Heap) : Prop where
  objects : h.objects.slots.size < 2 ^ 32
  persistents : h.persistents.slots.size < 2 ^ 32
  templates : h.templates.slots.size < 2 ^ 32

lemma represents_initial (limits : HeapLimits) : (initial limits).Represents [] [] where
  objects := .empty
  persistents := .empty
  templates := by simp [Arena.Positioned, initial]
  targets entry he := absurd he (by simp [initial, Arena.entries])

lemma templates_cases (h : Heap) (op : Operation) :
    (h.apply op).2.templates = h.templates ∨
    (∃ t, (h.apply op).2.templates = (h.templates.append t).2) ∨
    (∃ r change, (h.apply op).2.templates = h.templates.modify r change) ∨
    ∃ r, (h.apply op).2.templates = h.templates.retire r := by
  cases op with
  | addTemplate t => exact .inr (.inl ⟨t, rfl⟩)
  | mutateTemplate r change => exact .inr (.inr (.inl ⟨r, change, rfl⟩))
  | discardTemplate r => exact .inr (.inr (.inr ⟨r, rfl⟩))
  | allocate | root | pushScope | popScope | persist | target | weaken =>
    exact .inl (by simp [apply])
  | collect => exact .inl (by simp [apply, collect_eq])
  | mutate | setGlobal | dispose | enqueue | dequeue | drainReleases => exact .inl rfl

lemma size_templates_le (h : Heap) (op : Operation) :
    h.templates.slots.size ≤ (h.apply op).2.templates.slots.size := by
  rcases h.templates_cases op with heq | ⟨t, heq⟩ | ⟨r, change, heq⟩ | ⟨r, heq⟩ <;>
    simp [heq, Arena.append, Arena.modify, Arena.retire]

lemma apply_positioned (h : Heap) (op : Operation) (hp : h.templates.Positioned)
    (hsize : (h.apply op).2.templates.slots.size < 2 ^ 32) :
    (h.apply op).2.templates.Positioned := by
  have hle := h.size_templates_le op
  rcases h.templates_cases op with heq | ⟨t, heq⟩ | ⟨r, change, heq⟩ | ⟨r, heq⟩ <;> rw [heq]
  · exact hp
  · exact hp.append t (by omega)
  · exact hp.modify r change
  · exact hp.retire r

-- Positions are never given back, so a heap that has some left had some left before.
lemma Spacious.before {op : Operation} (hs : (h.apply op).2.Spacious) : h.Spacious where
  objects := Nat.lt_of_le_of_lt (apply_objects h op).size hs.objects
  persistents := Nat.lt_of_le_of_lt (apply_persistents h op).size hs.persistents
  templates := Nat.lt_of_le_of_lt (h.size_templates_le op) hs.templates

lemma Spacious.of_after {ops : List Operation} (hs : (h.after ops).Spacious) : h.Spacious := by
  induction ops generalizing h with
  | nil => exact hs
  | cons op rest ih => exact (ih hs).before

lemma apply_represents (h : Heap) (op : Operation) (hr : h.Represents objects slots)
    (hs : (h.apply op).2.Spacious) :
    (h.apply op).2.Represents (objects ++ (h.apply op).1.object?.toList)
      (slots ++ (h.apply op).1.slot?.toList) where
  objects := hr.objects.step (apply_objects_step h op) hs.objects
  persistents := hr.persistents.step (apply_persistents_step h op) hs.persistents
  templates := apply_positioned h op hr.templates hs.templates
  targets := apply_targetsLive h op hr.targets

lemma after_represents (h : Heap) (ops : List Operation) (hr : h.Represents objects slots)
    (hs : (h.after ops).Spacious) :
    (h.after ops).Represents (objects ++ h.allocated ops) (slots ++ h.persisted ops) := by
  induction ops generalizing h objects slots with
  | nil => simpa [allocated, persisted, log] using hr
  | cons op rest ih =>
    have hstep : (h.apply op).2.Spacious := Spacious.of_after hs
    have hrest := ih (h.apply op).2 (apply_represents h op hr hstep) hs
    simpa [allocated_cons, persisted_cons] using hrest

-- The representation invariant holds of every heap that any run leads to, and every single
-- operation keeps it.
theorem representation_invariant (limits : HeapLimits) :
    (∀ ops, ((initial limits).after ops).Spacious →
      ((initial limits).after ops).Represents ((initial limits).allocated ops)
        ((initial limits).persisted ops)) ∧
    ∀ (h : Heap) (objects : List ObjectRef) (slots : List PersistentRef) (op : Operation),
      h.Represents objects slots → (h.apply op).2.Spacious →
      (h.apply op).2.Represents (objects ++ (h.apply op).1.object?.toList)
        (slots ++ (h.apply op).1.slot?.toList) := by
  constructor
  · intro ops hs
    exact after_represents (initial limits) ops (represents_initial limits) hs
  · intro h objects slots op hr hs
    exact apply_represents h op hr hs

-- A run that frees a slot of each kind and takes both again, and a persistent slot freed in its
-- last generation.
theorem representation_invariant_at_last_generation :
    let ops : List Operation :=
      [.pushScope, .allocate (.ofBody .plain), .persist (.first 0), .addTemplate {}, .dispose (.first 0),
        .popScope, .collect, .allocate (.ofBody .plain), .persist ⟨0, 2, by decide, by decide⟩,
        .discardTemplate (.first 0)]
    let last : PersistentRef := ⟨0, 2147483647, by decide, by decide⟩
    let full : Heap :=
      { objects := { slots := #[⟨.first 0, some (.ofBody .plain)⟩] }
        persistents := { slots := #[⟨last, some { target := .first 0 }⟩] } }
    ((initial {}).after ops).Represents [.first 0, ⟨0, 2, by decide, by decide⟩]
      [.first 0, ⟨0, 2, by decide, by decide⟩] ∧
    full.Represents [.first 0] [last] ∧
    (full.apply (.dispose last)).2.Represents [.first 0] [last] ∧
    (full.apply (.dispose last)).2.persistents.contains last = false ∧
    (full.apply (.dispose last)).2.persistents.free = [] := by
  intro ops last full
  have hfull : full.Represents [.first 0] [last] := by
    refine ⟨.single _ _ rfl, .single _ _ rfl, by simp [Arena.Positioned, full], ?_⟩
    intro entry he
    obtain rfl : entry = { target := .first 0 } := by simpa [full, Arena.entries] using he
    decide +kernel
  have hobjects : (initial {}).allocated ops = [.first 0, ⟨0, 2, by decide, by decide⟩] := by cbv
  have hslots : (initial {}).persisted ops = [.first 0, ⟨0, 2, by decide, by decide⟩] := by cbv
  have hrun := (representation_invariant {}).1 ops ⟨by cbv, by cbv, by cbv⟩
  have hstep := (representation_invariant {}).2 full _ _ (.dispose last) hfull
    ⟨by decide +kernel, by decide +kernel, by decide +kernel⟩
  exact ⟨hslots ▸ hobjects ▸ hrun, hfull, hstep, by decide +kernel, by decide +kernel⟩

end Heap

end HostBoundary
