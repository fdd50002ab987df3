import HostBoundary.Heap.Basic

namespace HostBoundary.Heap

def roots (h : Heap) : List ObjectRef :=
  h.global.toList ++ h.base ++ h.pushed.flatten ++
    (h.persistents.entries.filter (!·.weak)).map (·.target) ++
    h.templates.entries.flatMap (fun t => t.function.toList ++ t.prototype.toList) ++
    h.jobs.flatMap (·.references)

theorem count_unmarked_lt (marked : Array Bool) (i : Nat) (hi : i < marked.size)
    (hm : marked[i] = false) : (marked.set i true).count false < marked.count false := by
  have hmem : false ∈ marked := hm ▸ Array.getElem_mem hi
  have hpos : 0 < marked.count false := Array.count_pos_iff.mpr hmem
  rw [Array.count_set hi]
  simp only [hm]
  simp
  omega

-- Marks what the pending references reach. A reference that is stale, or whose object
-- is marked already, adds nothing; any other one marks its object and leaves the
-- references of that object pending.
def mark (h : Heap) (marked : Array Bool) (pending : List ObjectRef) : Array Bool :=
  match pending with
  | [] => marked
  | r :: rest =>
    if hi : r.position < marked.size then
      if hm : marked[r.position] = false then
        match h.object? r with
        | none => mark h marked rest
        | some object => mark h (marked.set r.position true) (object.references ++ rest)
      else mark h marked rest
    else mark h marked rest
termination_by (marked.count false, pending.length)
decreasing_by
  · exact Prod.Lex.right _ (Nat.lt_succ_self _)
  · exact Prod.Lex.left _ _ (count_unmarked_lt marked _ hi hm)
  · exact Prod.Lex.right _ (Nat.lt_succ_self _)
  · exact Prod.Lex.right _ (Nat.lt_succ_self _)

def marks (h : Heap) : Array Bool :=
  mark h (Array.replicate h.objects.slots.size false) h.roots

-- What a collection leaves to be run: reclaim hooks with the fields of their object,
-- then release hooks with the memory they give back.
structure Reclaimed where
  hooks : List (ReclaimHook × Fields) := []
  releases : List (ReleaseHook × HostMemory) := []
  freed : Nat := 0

def fieldsOf (h : Heap) (r : ObjectRef) : Fields :=
  ((h.object? r).bind (·.fields)).getD {}

def sweepPersistent (marked : Array Bool) (acc : Heap × Reclaimed) (position : Nat) :
    Heap × Reclaimed :=
  let (h, out) := acc
  match h.persistents.slots[position]?.bind (·.entry) with
  | none => acc
  | some entry =>
    if entry.weak && !(marked[entry.target.position]?.getD false) then
      ({ h with persistents := h.persistents.vacate position },
        match entry.hook with
        | some hook => { out with hooks := out.hooks ++ [(hook, h.fieldsOf entry.target)] }
        | none => out)
    else acc

def releaseOf (object : HeapObject) : Option (ReleaseHook × HostMemory) :=
  match object.body with
  | .arrayBuffer backing => backing.release?
  | _ => none

def sweepObject (marked : Array Bool) (acc : Heap × Reclaimed) (position : Nat) :
    Heap × Reclaimed :=
  let (h, out) := acc
  match h.objects.slots[position]?.bind (·.entry) with
  | none => acc
  | some object =>
    if marked[position]?.getD false then acc
    else
      ({ h with objects := h.objects.vacate position },
        { out with
          releases := out.releases ++ (releaseOf object).toList
          freed := out.freed + 1 })

def collect (h : Heap) : Reclaimed × Heap :=
  let marked := h.marks
  let weak := (List.range h.persistents.slots.size).foldl (sweepPersistent marked) (h, {})
  let (swept, out) := (List.range h.objects.slots.size).foldl (sweepObject marked) weak
  (out, { swept with allocations := 0 })

def drainReleases (h : Heap) : List (ReleaseHook × HostMemory) × Heap :=
  (h.objects.entries.filterMap releaseOf,
    { h with objects :=
      { h.objects with slots := h.objects.slots.map fun slot =>
        { slot with entry := slot.entry.map fun object =>
          match object.body with
          | .arrayBuffer backing => { object with body := .arrayBuffer backing.taken }
          | _ => object } } })

end HostBoundary.Heap
