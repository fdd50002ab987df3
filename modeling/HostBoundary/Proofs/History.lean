import HostBoundary.Proofs.Collection
import Mathlib

namespace HostBoundary.Heap

abbrev WellFormed (h : Heap) : Prop := h.objects.WellFormed

-- Everything that can be done to a heap. A live object, and a template that is there, can
-- be changed in any way.
inductive Operation where
  | allocate (object : HeapObject)
  | mutate (r : ObjectRef) (change : HeapObject → HeapObject)
  | root (r : ObjectRef)
  | setGlobal (r : ObjectRef)
  | pushScope
  | popScope
  | persist (target : ObjectRef)
  | target (slot : PersistentRef)
  | weaken (slot : PersistentRef) (hook : Option ReclaimHook)
  | dispose (slot : PersistentRef)
  | addTemplate (template : Template)
  | mutateTemplate (r : TemplateRef) (change : Template → Template)
  | discardTemplate (r : TemplateRef)
  | enqueue (jobs : List Job)
  | dequeue
  | collect
  | drainReleases

inductive Outcome where
  | done
  | due (collect : Bool)
  | allocated (r : ObjectRef)
  | persisted (slot : Option PersistentRef)
  | resolved (r : Option ObjectRef)
  | answered (success : Bool)
  | template (r : TemplateRef)
  | reclaimed (out : Reclaimed)
  | releases (hooks : List (ReleaseHook × HostMemory))

def apply (h : Heap) : Operation → Outcome × Heap
  | .allocate object => (h.allocate object).map .allocated id
  | .mutate r change => (.done, h.modifyObject r change)
  | .root r => (.done, h.root r)
  | .setGlobal r => (.done, { h with global := some r })
  | .pushScope => (.done, h.pushScope)
  | .popScope => h.popScope.map .due id
  | .persist target => (h.persist target).map .persisted id
  | .target slot => (h.target slot).map .resolved id
  | .weaken slot hook => (h.weaken slot hook).map .answered id
  | .dispose slot => (h.dispose slot).map .answered id
  | .addTemplate template => (h.addTemplate template).map .template id
  | .mutateTemplate r change => (.done, h.modifyTemplate r change)
  | .discardTemplate r => (.done, h.discardTemplate r)
  | .enqueue jobs => (.done, h.enqueue jobs)
  | .dequeue => (.done, { h with jobs := h.jobs.tail })
  | .collect => h.collect.map .reclaimed id
  | .drainReleases => h.drainReleases.map .releases id

def after (h : Heap) (ops : List Operation) : Heap := ops.foldl (fun h op => (h.apply op).2) h

def log (h : Heap) : List Operation → List (Operation × Outcome)
  | [] => []
  | op :: rest => (op, (h.apply op).1) :: log (h.apply op).2 rest

@[simp] lemma after_nil (h : Heap) : h.after [] = h := rfl

@[simp] lemma after_cons (h : Heap) (op : Operation) (rest : List Operation) :
    h.after (op :: rest) = (h.apply op).2.after rest := rfl

lemma after_append (h : Heap) (before later : List Operation) :
    h.after (before ++ later) = (h.after before).after later :=
  List.foldl_append

def Outcome.object? : Outcome → Option ObjectRef
  | .allocated r => some r
  | _ => none

def Outcome.slot? : Outcome → Option PersistentRef
  | .persisted slot => slot
  | _ => none

def allocated (h : Heap) (ops : List Operation) : List ObjectRef :=
  (h.log ops).filterMap (·.2.object?)

def persisted (h : Heap) (ops : List Operation) : List PersistentRef :=
  (h.log ops).filterMap (·.2.slot?)

section Frame

variable (h : Heap)

@[simp] lemma root_objects (r : ObjectRef) : (h.root r).objects = h.objects := by
  unfold root
  split <;> rfl

@[simp] lemma root_persistents (r : ObjectRef) : (h.root r).persistents = h.persistents := by
  unfold root
  split <;> rfl

@[simp] lemma pushScope_objects : h.pushScope.objects = h.objects := by
  unfold pushScope
  split <;> rfl

@[simp] lemma pushScope_persistents : h.pushScope.persistents = h.persistents := by
  unfold pushScope
  split <;> rfl

@[simp] lemma popScope_objects : h.popScope.2.objects = h.objects := by
  unfold popScope
  repeat' split
  all_goals rfl

@[simp] lemma popScope_persistents : h.popScope.2.persistents = h.persistents := by
  unfold popScope
  repeat' split
  all_goals rfl

@[simp] lemma target_objects (slot : PersistentRef) : (h.target slot).2.objects = h.objects := by
  unfold target
  repeat' split
  all_goals simp

@[simp] lemma target_persistents (slot : PersistentRef) :
    (h.target slot).2.persistents = h.persistents := by
  unfold target
  repeat' split
  all_goals simp

@[simp] lemma persist_objects (target : ObjectRef) : (h.persist target).2.objects = h.objects := by
  unfold persist
  split <;> rfl

@[simp] lemma weaken_objects (slot : PersistentRef) (hook : Option ReclaimHook) :
    (h.weaken slot hook).2.objects = h.objects := by
  unfold weaken
  split <;> rfl

@[simp] lemma allocate_persistents (object : HeapObject) :
    (h.allocate object).2.persistents = h.persistents := by
  simp [allocate]

@[simp] lemma allocate_objects (object : HeapObject) :
    (h.allocate object).2.objects = (h.objects.insert object).2 := by
  simp [allocate]

lemma sameShape_drainReleases : Arena.SameShape h.objects h.drainReleases.2.objects where
  free := rfl
  slots i := by
    simp only [drainReleases, Array.getElem?_map, Option.map_map]
    congr 1
    funext slot
    simp [ArenaSlot.shape]

end Frame

lemma apply_objects_step (h : Heap) (op : Operation) :
    Arena.Step h.objects (h.apply op).2.objects (h.apply op).1.object?.toList := by
  cases op with
  | allocate object =>
    simp only [apply, Prod.map, id, allocate_objects]
    exact .insert object
  | mutate r change => exact .same (Arena.sameShape_modify _ _ _)
  | root | pushScope | popScope | persist | target | weaken =>
    simp only [apply, Prod.map, id, root_objects, pushScope_objects, popScope_objects, persist_objects,
      target_objects, weaken_objects]
    exact .refl _
  | collect =>
    simp only [apply, Prod.map, id, collect_eq]
    exact .sweep _ _
  | drainReleases => exact .same (sameShape_drainReleases h)
  | setGlobal | dispose | addTemplate | mutateTemplate | discardTemplate | enqueue | dequeue =>
    exact .refl _

lemma apply_persistents_step (h : Heap) (op : Operation) :
    Arena.Step h.persistents (h.apply op).2.persistents (h.apply op).1.slot?.toList := by
  cases op with
  | allocate | root | pushScope | popScope | target =>
    simp only [apply, Prod.map, id, allocate_persistents, root_persistents, pushScope_persistents,
      popScope_persistents, target_persistents]
    exact .refl _
  | persist target =>
    simp only [apply, persist]
    split
    · exact .insert _
    · exact .refl _
  | weaken slot hook =>
    simp only [apply, weaken]
    split
    · exact .same (Arena.sameShape_modify _ _ _)
    · exact .refl _
  | dispose slot => exact .remove slot
  | collect =>
    simp only [apply, Prod.map, id, collect_eq]
    exact .sweep _ _
  | mutate | setGlobal | addTemplate | mutateTemplate | discardTemplate | enqueue | dequeue
  | drainReleases =>
    exact .refl _

lemma apply_objects (h : Heap) (op : Operation) :
    Arena.Progress h.objects (h.apply op).2.objects (h.apply op).1.object?.toList :=
  .of_step (apply_objects_step h op)

lemma apply_persistents (h : Heap) (op : Operation) :
    Arena.Progress h.persistents (h.apply op).2.persistents (h.apply op).1.slot?.toList :=
  .of_step (apply_persistents_step h op)

lemma filterMap_log_cons (f : Operation × Outcome → Option β) (h : Heap) (op : Operation)
    (rest : List Operation) :
    (h.log (op :: rest)).filterMap f =
      (f (op, (h.apply op).1)).toList ++ ((h.apply op).2.log rest).filterMap f := by
  rw [log, List.filterMap_cons]
  cases f (op, (h.apply op).1) <;> rfl

lemma allocated_cons (h : Heap) (op : Operation) (rest : List Operation) :
    h.allocated (op :: rest) = (h.apply op).1.object?.toList ++ (h.apply op).2.allocated rest :=
  filterMap_log_cons _ h op rest

lemma persisted_cons (h : Heap) (op : Operation) (rest : List Operation) :
    h.persisted (op :: rest) = (h.apply op).1.slot?.toList ++ (h.apply op).2.persisted rest :=
  filterMap_log_cons _ h op rest

lemma after_objects (h : Heap) (ops : List Operation) :
    Arena.Progress h.objects (h.after ops).objects (h.allocated ops) := by
  induction ops generalizing h with
  | nil => exact .refl _
  | cons op rest ih =>
    rw [allocated_cons]
    exact (apply_objects h op).trans (ih (h.apply op).2)

lemma after_persistents (h : Heap) (ops : List Operation) :
    Arena.Progress h.persistents (h.after ops).persistents (h.persisted ops) := by
  induction ops generalizing h with
  | nil => exact .refl _
  | cons op rest ih =>
    rw [persisted_cons]
    exact (apply_persistents h op).trans (ih (h.apply op).2)

def initial (limits : HeapLimits) : Heap := { limits }

-- No reference is handed out twice, and none that was freed is ever valid again.
theorem references_never_reused (limits : HeapLimits) (before between later : List Operation)
    (hobjects : ((initial limits).after (before ++ between ++ later)).objects.slots.size < 2 ^ 32)
    (hslots : ((initial limits).after (before ++ between ++ later)).persistents.slots.size < 2 ^ 32) :
    ((initial limits).allocated (before ++ between ++ later)).Nodup ∧
    ((initial limits).persisted (before ++ between ++ later)).Nodup ∧
    (∀ r, ((initial limits).after before).isAlive r = true →
      ((initial limits).after (before ++ between)).isAlive r = false →
      ((initial limits).after (before ++ between ++ later)).isAlive r = false) ∧
    (∀ slot, ((initial limits).after before).persistents.contains slot = true →
      ((initial limits).after (before ++ between)).persistents.contains slot = false →
      ((initial limits).after (before ++ between ++ later)).persistents.contains slot = false) := by
  have hwfo : (initial limits).WellFormed := Arena.wellFormed_empty
  have hwfp : (initial limits).persistents.WellFormed := Arena.wellFormed_empty
  refine ⟨?_, ?_, ?_, ?_⟩
  · exact ((after_objects _ _).advance hwfo hobjects).nodup
  · exact ((after_persistents _ _).advance hwfp hslots).nodup
  · intro r halive hdead
    simp only [after_append] at hobjects hdead ⊢
    exact (after_objects _ before).stays_dead (after_objects _ between) (after_objects _ later) hwfo
      hobjects halive hdead
  · intro slot hvalid hfreed
    simp only [after_append] at hslots hfreed ⊢
    exact (after_persistents _ before).stays_dead (after_persistents _ between)
      (after_persistents _ later) hwfp hslots hvalid hfreed

-- The slot of a collected object and a disposed persistent slot are both taken again, under
-- new references.
theorem references_never_reused_after_reuse :
    let before : List Operation :=
      [.pushScope, .allocate (.ofBody .plain), .persist (.first 0)]
    let between : List Operation := [.dispose (.first 0), .popScope, .collect]
    let later : List Operation := [.allocate (.ofBody .plain), .persist ⟨0, 2, by decide, by decide⟩]
    ((initial {}).after before).isAlive (.first 0) = true ∧
    ((initial {}).allocated (before ++ between ++ later)).length = 2 ∧
    ((initial {}).allocated (before ++ between ++ later)).Nodup ∧
    ((initial {}).persisted (before ++ between ++ later)).length = 2 ∧
    ((initial {}).persisted (before ++ between ++ later)).Nodup ∧
    ((initial {}).after (before ++ between ++ later)).isAlive (.first 0) = false ∧
    ((initial {}).after (before ++ between ++ later)).persistents.contains (.first 0) = false := by
  intro before between later
  obtain ⟨hobjects, hslots, hdead, hfreed⟩ :=
    references_never_reused {} before between later (by cbv) (by cbv)
  exact ⟨by cbv, by cbv, hobjects, by cbv, hslots, hdead _ (by cbv) (by cbv),
    hfreed _ (by cbv) (by cbv)⟩

end HostBoundary.Heap
