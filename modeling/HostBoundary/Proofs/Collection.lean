import HostBoundary.Proofs.Reachability
import Mathlib.Data.Set.Card

namespace HostBoundary.Heap

open Arena

def deadObject (marked : Array Bool) (p : Nat) (_ : HeapObject) : Bool := !(marked[p]?.getD false)

-- Whether a persistent slot goes: it is weak, and its target carries no mark.
def deadWeak (marked : Array Bool) (entry : Persistent) : Bool :=
  entry.weak && !(marked[entry.target.position]?.getD false)

def farewell (h : Heap) (entry : Persistent) : Option (ReclaimHook × Fields) :=
  entry.hook.map (·, h.fieldsOf entry.target)

def logHook (h : Heap) (out : Reclaimed) (entry : Persistent) : Reclaimed :=
  { out with hooks := out.hooks ++ (h.farewell entry).toList }

def logObject (out : Reclaimed) (object : HeapObject) : Reclaimed :=
  { out with releases := out.releases ++ (releaseOf object).toList, freed := out.freed + 1 }

lemma foldl_logHook (h : Heap) (out : Reclaimed) (entries : List Persistent) :
    entries.foldl h.logHook out =
      { out with hooks := out.hooks ++ entries.filterMap h.farewell } := by
  induction entries generalizing out with
  | nil => simp
  | cons entry rest ih =>
    rw [List.foldl_cons, ih, List.filterMap_cons]
    cases hf : h.farewell entry <;> simp [logHook, hf]

lemma foldl_logObject (out : Reclaimed) (objects : List HeapObject) :
    objects.foldl logObject out =
      { out with
        releases := out.releases ++ objects.filterMap releaseOf
        freed := out.freed + objects.length } := by
  induction objects generalizing out with
  | nil => simp
  | cons object rest ih =>
    rw [List.foldl_cons, ih, List.filterMap_cons, List.length_cons, Nat.add_comm rest.length 1,
      ← Nat.add_assoc]
    cases hr : releaseOf object <;> simp [logObject, hr]

lemma foldl_sweepPersistent (h : Heap) (marked : Array Bool) (out : Reclaimed)
    (positions : List Nat) (hn : positions.Nodup) :
    positions.foldl (sweepPersistent marked) (h, out) =
      ({ h with persistents := h.persistents.sweep (fun _ => deadWeak marked) positions },
        (h.persistents.dying (fun _ => deadWeak marked) positions).foldl h.logHook out) := by
  let place : Arena .persistent Persistent × Reclaimed → Heap × Reclaimed :=
    fun s => ({ h with persistents := s.1 }, s.2)
  have hstep : ∀ s p, sweepPersistent marked (place s) p =
      place (sweepLogAt (fun _ => deadWeak marked) h.logHook s p) := by
    intro s p
    cases he : s.1.slots[p]?.bind (·.entry) with
    | none => simp [place, sweepPersistent, sweepLogAt, he]
    | some entry =>
      cases hd : deadWeak marked entry with
      | false =>
        simp only [place, sweepPersistent, sweepLogAt, he, hd]
        simp only [deadWeak] at hd
        simp [hd]
      | true =>
        simp only [place, sweepPersistent, sweepLogAt, he, hd]
        simp only [deadWeak] at hd
        cases hk : entry.hook <;> simp [logHook, farewell, fieldsOf, object?, hk, hd]
  exact foldl_of_sweepLogAt _ _ place _ hstep h.persistents out positions hn

lemma foldl_sweepObject (h : Heap) (marked : Array Bool) (out : Reclaimed) (positions : List Nat)
    (hn : positions.Nodup) :
    positions.foldl (sweepObject marked) (h, out) =
      ({ h with objects := h.objects.sweep (deadObject marked) positions },
        (h.objects.dying (deadObject marked) positions).foldl logObject out) := by
  let place : Arena .object HeapObject × Reclaimed → Heap × Reclaimed :=
    fun s => ({ h with objects := s.1 }, s.2)
  have hstep : ∀ s p, sweepObject marked (place s) p =
      place (sweepLogAt (deadObject marked) logObject s p) := by
    intro s p
    cases he : s.1.slots[p]?.bind (·.entry) with
    | none => simp [place, sweepObject, sweepLogAt, he]
    | some object =>
      cases hm : marked[p]?.getD false <;>
        simp [place, sweepObject, sweepLogAt, he, deadObject, hm, logObject]
  exact foldl_of_sweepLogAt _ _ place _ hstep h.objects out positions hn

def dyingWeak (h : Heap) : List Persistent := h.persistents.entries.filter (deadWeak h.marks)

def dyingObjects (h : Heap) : List HeapObject :=
  h.objects.dying (deadObject h.marks) (List.range h.objects.slots.size)

section

variable (h : Heap)

-- All that a collection does. Every other statement about collections rests on this one.
lemma collect_eq :
    h.collect =
      ({ hooks := h.dyingWeak.filterMap h.farewell
         releases := h.dyingObjects.filterMap releaseOf
         freed := h.dyingObjects.length },
        { h with
          objects := h.objects.sweep (deadObject h.marks) (List.range h.objects.slots.size)
          persistents :=
            h.persistents.sweep (fun _ => deadWeak h.marks) (List.range h.persistents.slots.size)
          allocations := 0 }) := by
  simp only [collect, foldl_sweepPersistent _ _ _ _ List.nodup_range,
    foldl_sweepObject _ _ _ _ List.nodup_range, foldl_logHook, foldl_logObject, dyingWeak,
    dyingObjects, dying_eq_filter]
  simp

lemma getD_marks (i : Nat) : h.marks[i]?.getD false = true ↔ h.Reached i := by
  rw [← marks_iff]
  cases h.marks[i]? <;> simp

variable (r : ObjectRef)

-- For a live reference the mark at its position tells whether it is reachable.
lemma reached_position_iff (ha : h.isAlive r = true) : h.Reached r.position ↔ h.Reachable r := by
  constructor
  · rintro ⟨s, hs, hlive, hp⟩
    exact eq_of_alive h s r hlive ha hp ▸ hs
  · intro hr
    exact ⟨r, hr, ha, rfl⟩

lemma object?_collect :
    h.collect.2.object? r = (h.object? r).filter fun _ => h.marks[r.position]?.getD false := by
  rw [collect_eq]
  simp only [object?, get?_sweep, deadObject, Bool.not_not]

lemma isAlive_iff : h.isAlive r = true ↔ ∃ o, h.object? r = some o := by
  simp only [isAlive, contains, object?, Option.isSome_iff_exists]

lemma isAlive_collect_iff : h.collect.2.isAlive r = true ↔ h.isAlive r = true ∧ h.Reachable r := by
  rw [isAlive_iff, object?_collect]
  constructor
  · rintro ⟨o, ho⟩
    obtain ⟨hobj, hmark⟩ := Option.filter_eq_some_iff.mp ho
    have ha := isAlive_of_object? h r o hobj
    exact ⟨ha, (reached_position_iff h r ha).mp ((getD_marks h _).mp hmark)⟩
  · rintro ⟨ha, hr⟩
    obtain ⟨o, ho⟩ := (isAlive_iff h r).mp ha
    have hmark := (getD_marks h _).mpr ((reached_position_iff h r ha).mpr hr)
    exact ⟨o, Option.filter_eq_some_iff.mpr ⟨ho, hmark⟩⟩

lemma object?_collect_of_alive (ha : h.collect.2.isAlive r = true) :
    h.collect.2.object? r = h.object? r := by
  obtain ⟨o, ho⟩ := (isAlive_iff _ r).mp ha
  rw [ho]
  rw [object?_collect] at ho
  exact (Option.filter_eq_some_iff.mp ho).1.symm

end

-- The slot at a position holds an object that nothing reachable denotes.
def Unreached (h : Heap) (i : Nat) : Prop :=
  (∃ o, h.objects.slots[i]?.bind (·.entry) = some o) ∧ ¬ h.Reached i

lemma dying_isSome_iff (h : Heap) (i : Nat) :
    ((h.objects.slots[i]?.bind (·.entry)).filter (deadObject h.marks i)).isSome = true ↔
      h.Unreached i := by
  rw [Option.isSome_iff_exists]
  constructor
  · rintro ⟨o, ho⟩
    obtain ⟨hobj, hdead⟩ := Option.filter_eq_some_iff.mp ho
    refine ⟨⟨o, hobj⟩, fun hr => ?_⟩
    simp [deadObject, (getD_marks h i).mpr hr] at hdead
  · rintro ⟨⟨o, ho⟩, hnot⟩
    refine ⟨o, Option.filter_eq_some_iff.mpr ⟨ho, ?_⟩⟩
    simpa [deadObject] using mt (getD_marks h i).mp hnot

lemma length_dyingObjects (h : Heap) : h.dyingObjects.length = {i | h.Unreached i}.ncard := by
  let goes (i : Nat) : Bool :=
    ((h.objects.slots[i]?.bind (·.entry)).filter (deadObject h.marks i)).isSome
  have hlen : h.dyingObjects.length = ((List.range h.objects.slots.size).filter goes).length := by
    rw [dyingObjects, dying, List.length_filterMap_eq_countP, List.countP_eq_length_filter]
  have hset : {i | h.Unreached i} =
      (((List.range h.objects.slots.size).filter goes).toFinset : Set Nat) := by
    ext i
    simp only [Set.mem_ofPred_eq, List.coe_toFinset, List.mem_filter, List.mem_range, goes,
      dying_isSome_iff]
    refine ⟨fun hi => ⟨?_, hi⟩, fun hi => hi.2⟩
    obtain ⟨⟨o, ho⟩, -⟩ := hi
    obtain ⟨slot, hs, -⟩ := Option.bind_eq_some_iff.mp ho
    exact (Array.getElem?_eq_some_iff.mp hs).1
  rw [hlen, hset, Set.ncard_coe_finset, List.toFinset_card_of_nodup (List.nodup_range.filter _)]

-- A collection is exact: of the live objects it keeps those that the roots lead to, as they are,
-- and frees the others.
theorem collect_exact (h : Heap) :
    (∀ r, h.isAlive r = true → (h.collect.2.isAlive r = true ↔ h.Reachable r)) ∧
    (∀ r, h.collect.2.isAlive r = true → h.collect.2.object? r = h.object? r) ∧
    h.collect.1.freed = {i | h.Unreached i}.ncard ∧
    ∃ turns, h.markTurn^[turns] (Array.replicate h.objects.slots.size false, h.roots) =
      (h.marks, []) := by
  refine ⟨?_, object?_collect_of_alive h, ?_, exists_turns h _ _⟩
  · intro r ha
    rw [isAlive_collect_iff]
    exact and_iff_right ha
  · rw [collect_eq]
    exact length_dyingObjects h

end HostBoundary.Heap
