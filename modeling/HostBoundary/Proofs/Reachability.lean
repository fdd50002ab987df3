import HostBoundary.Heap.Collect
import HostBoundary.Proofs.Arena
import Mathlib.Logic.Function.Iterate

namespace HostBoundary

variable {marked : Array Bool} {r : ObjectRef} {rest : List ObjectRef}

lemma Value.mem_references (v : Value) (r : ObjectRef) : r ∈ v.references ↔ v = .object r := by
  cases v <;> simp [references, object?, eq_comm]

inductive Reaction.Refers (x : Reaction) : ObjectRef → Prop where
  | onFulfilled (r : ObjectRef) (h : x.onFulfilled = some r) : x.Refers r
  | onRejected (r : ObjectRef) (h : x.onRejected = some r) : x.Refers r
  | derived : x.Refers x.derived

lemma Reaction.mem_held (x : Reaction) (r : ObjectRef) : .object r ∈ x.held ↔ x.Refers r := by
  simp only [held, List.mem_map, List.mem_append, Option.mem_toList, List.mem_singleton,
    Value.object.injEq, exists_eq_right]
  constructor
  · rintro ((h | h) | h)
    · exact .onFulfilled r h
    · exact .onRejected r h
    · exact h ▸ .derived
  · rintro (⟨_, h⟩ | ⟨_, h⟩ | _)
    · exact .inl (.inl h)
    · exact .inl (.inr h)
    · exact .inr rfl

lemma Job.mem_references (job : Job) (r : ObjectRef) :
    r ∈ job.references ↔ job.reaction.Refers r ∨ job.value = .object r := by
  simp only [references, held, List.mem_flatMap, List.mem_append, List.mem_singleton,
    Value.mem_references, exists_eq_right, Reaction.mem_held, eq_comm]

lemma Promise.mem_references (p : Promise) (r : ObjectRef) :
    r ∈ p.references ↔ p.result = .object r ∨ ∃ x ∈ p.reactions, x.Refers r := by
  simp only [references, held, List.mem_flatMap, List.mem_cons, Value.mem_references,
    exists_eq_right, Reaction.mem_held, eq_comm]

inductive HeapObject.Refers (o : HeapObject) : ObjectRef → Prop where
  | property (p : Property) (r : ObjectRef) (hp : p ∈ o.properties) (h : p.slot = .data (.object r)) :
      o.Refers r
  | prototype (r : ObjectRef) (h : o.prototype = some r) : o.Refers r
  | element (elements : Array Value) (r : ObjectRef) (hb : o.body = .array elements)
      (h : .object r ∈ elements) : o.Refers r
  | typedArray (view : TypedArrayView) (hb : o.body = .typedArray view) : o.Refers view.buffer
  | dataView (view : DataView) (hb : o.body = .dataView view) : o.Refers view.buffer
  | resolver (target : ObjectRef) (hb : o.body = .resolver target) : o.Refers target
  | result (p : Promise) (r : ObjectRef) (hb : o.body = .promise p) (h : p.result = .object r) :
      o.Refers r
  | reaction (p : Promise) (x : Reaction) (r : ObjectRef) (hb : o.body = .promise p)
      (hx : x ∈ p.reactions) (h : x.Refers r) : o.Refers r

namespace HeapObject

lemma refers_of_mem_body (o : HeapObject) (r : ObjectRef) (h : r ∈ o.body.references) :
    o.Refers r := by
  cases hb : o.body with
  | plain | error | function | arrayBuffer => simp [hb, Body.references] at h
  | array elements =>
    simp only [hb, Body.references, List.mem_flatMap, Value.mem_references, Array.mem_toList_iff,
      exists_eq_right] at h
    exact .element elements r hb h
  | typedArray view =>
    simp only [hb, Body.references, List.mem_singleton] at h
    exact h ▸ .typedArray view hb
  | dataView view =>
    simp only [hb, Body.references, List.mem_singleton] at h
    exact h ▸ .dataView view hb
  | resolver target =>
    simp only [hb, Body.references, List.mem_singleton] at h
    exact h ▸ .resolver target hb
  | promise p =>
    simp only [hb, Body.references, Promise.mem_references] at h
    rcases h with h | ⟨x, hx, h⟩
    · exact .result p r hb h
    · exact .reaction p x r hb hx h

lemma mem_references (o : HeapObject) (r : ObjectRef) : r ∈ o.references ↔ o.Refers r := by
  constructor
  · intro h
    simp only [references, List.mem_append, List.mem_flatMap, Option.mem_toList] at h
    rcases h with (⟨p, hp, h⟩ | h) | h
    · split at h
      · rename_i v hv
        exact .property p r hp (hv.trans (by rw [(v.mem_references r).mp h]))
      · simp at h
    · exact .prototype r h
    · exact refers_of_mem_body o r h
  · rintro (⟨p, _, hp, h⟩ | ⟨_, h⟩ | ⟨elements, _, hb, h⟩ | ⟨view, hb⟩ | ⟨view, hb⟩ | ⟨_, hb⟩ |
      ⟨p, _, hb, h⟩ | ⟨p, x, _, hb, hx, h⟩)
    · refine List.mem_append_left _ (List.mem_append_left _ (List.mem_flatMap.mpr ⟨p, hp, ?_⟩))
      simp [h, Value.mem_references]
    · simp [references, h]
    · refine List.mem_append_right _ ?_
      simpa [hb, Body.references, Value.mem_references] using h
    all_goals
      refine List.mem_append_right _ ?_
      simp [hb, Body.references, Promise.mem_references]
    · exact .inl h
    · exact .inr ⟨x, hx, h⟩

end HeapObject

namespace Heap

inductive Root (h : Heap) : ObjectRef → Prop where
  | global (r : ObjectRef) (hr : h.global = some r) : h.Root r
  | base (r : ObjectRef) (hr : r ∈ h.base) : h.Root r
  | scope (scope : List ObjectRef) (r : ObjectRef) (hs : scope ∈ h.pushed) (hr : r ∈ scope) :
      h.Root r
  | persistent (entry : Persistent) (he : entry ∈ h.persistents.entries)
      (hw : entry.weak = false) : h.Root entry.target
  | templateFunction (t : Template) (r : ObjectRef) (ht : t ∈ h.templates.entries)
      (hr : t.function = some r) : h.Root r
  | templatePrototype (t : Template) (r : ObjectRef) (ht : t ∈ h.templates.entries)
      (hr : t.prototype = some r) : h.Root r
  | jobReaction (job : Job) (r : ObjectRef) (hj : job ∈ h.jobs) (hr : job.reaction.Refers r) :
      h.Root r
  | jobValue (job : Job) (r : ObjectRef) (hj : job ∈ h.jobs) (hr : job.value = .object r) : h.Root r

lemma mem_roots (h : Heap) (r : ObjectRef) : r ∈ h.roots ↔ h.Root r := by
  simp only [roots, List.mem_append, List.mem_flatMap, List.mem_map, List.mem_filter,
    List.mem_flatten, Option.mem_toList, Job.mem_references]
  constructor
  · rintro (((((hr | hr) | ⟨scope, hs, hr⟩) | ⟨entry, ⟨he, hw⟩, rfl⟩) | ⟨t, ht, hr | hr⟩) |
      ⟨job, hj, hr | hr⟩)
    · exact .global r hr
    · exact .base r hr
    · exact .scope scope r hs hr
    · exact .persistent entry he (by simpa using hw)
    · exact .templateFunction t r ht hr
    · exact .templatePrototype t r ht hr
    · exact .jobReaction job r hj hr
    · exact .jobValue job r hj hr
  · rintro (⟨_, hr⟩ | ⟨_, hr⟩ | ⟨scope, _, hs, hr⟩ | ⟨entry, he, hw⟩ | ⟨t, _, ht, hr⟩ | ⟨t, _, ht, hr⟩ |
      ⟨job, _, hj, hr⟩ | ⟨job, _, hj, hr⟩)
    · exact .inl (.inl (.inl (.inl (.inl hr))))
    · exact .inl (.inl (.inl (.inl (.inr hr))))
    · exact .inl (.inl (.inl (.inr ⟨scope, hs, hr⟩)))
    · exact .inl (.inl (.inr ⟨entry, ⟨he, by simp [hw]⟩, rfl⟩))
    · exact .inl (.inr ⟨t, ht, .inl hr⟩)
    · exact .inl (.inr ⟨t, ht, .inr hr⟩)
    · exact .inr ⟨job, hj, .inl hr⟩
    · exact .inr ⟨job, hj, .inr hr⟩

-- What the roots lead to. A stale reference denotes no object and leads nowhere.
inductive Reachable (h : Heap) : ObjectRef → Prop where
  | root (r : ObjectRef) (hr : h.Root r) : h.Reachable r
  | edge (r s : ObjectRef) (o : HeapObject) (hr : h.Reachable r) (ho : h.object? r = some o)
      (hs : o.Refers s) : h.Reachable s

def Reached (h : Heap) (i : Nat) : Prop :=
  ∃ r, h.Reachable r ∧ h.isAlive r = true ∧ r.position = i

lemma isAlive_of_object? (h : Heap) (r : ObjectRef) (o : HeapObject) (ho : h.object? r = some o) :
    h.isAlive r = true := by
  simpa [isAlive, Arena.contains, object?] using congrArg Option.isSome ho

lemma eq_of_alive (h : Heap) (r s : ObjectRef) (hr : h.isAlive r = true) (hs : h.isAlive s = true)
    (hp : r.position = s.position) : r = s := by
  obtain ⟨slot, h₁, h₂, -⟩ := (Arena.contains_iff _ _).mp hr
  obtain ⟨other, h₃, h₄, -⟩ := (Arena.contains_iff _ _).mp hs
  rw [hp, h₃] at h₁
  rw [← h₂, ← h₄, Option.some.inj h₁]

lemma position_lt_of_alive (h : Heap) (r : ObjectRef) (hr : h.isAlive r = true) :
    r.position < h.objects.slots.size := by
  obtain ⟨slot, hs, -⟩ := (Arena.contains_iff _ _).mp hr
  exact (Array.getElem?_eq_some_iff.mp hs).1

section Mark

variable (h : Heap)

def Covers (marked : Array Bool) (r : ObjectRef) : Prop :=
  h.isAlive r = true → marked[r.position]? = some true

-- Whatever a marked object refers to is marked itself or still pending.
def Closed (marked : Array Bool) (pending : List ObjectRef) : Prop :=
  ∀ r o s, h.object? r = some o → marked[r.position]? = some true → o.Refers s →
    s ∈ pending ∨ h.Covers marked s

lemma getElem?_set_true (marked : Array Bool) (p i : Nat) (hp : p < marked.size)
    (hi : (marked.set p true)[i]? = some true) : i = p ∨ marked[i]? = some true := by
  rw [Array.getElem?_set] at hi
  split at hi
  · rename_i he
    exact .inl he.symm
  · exact .inr hi

lemma set_true_keeps (marked : Array Bool) (p i : Nat) (hp : p < marked.size)
    (hi : marked[i]? = some true) : (marked.set p true)[i]? = some true := by
  rw [Array.getElem?_set]
  split
  · rfl
  · exact hi

lemma mark_sound (marked : Array Bool) (pending : List ObjectRef)
    (hm : ∀ i : Nat, marked[i]? = some true → h.Reached i) (hp : ∀ r ∈ pending, h.Reachable r)
    (i : Nat) (hi : (h.mark marked pending)[i]? = some true) : h.Reached i := by
  fun_induction h.mark marked pending with
  | case1 marked => exact hm i hi
  | case2 marked r rest hlt hunset hnone ih =>
    exact ih hm (fun s hs => hp s (List.mem_cons_of_mem _ hs)) hi
  | case3 marked r rest hlt hunset o ho ih =>
    have hr := hp r List.mem_cons_self
    apply ih _ _ hi
    · intro j hj
      rcases getElem?_set_true marked _ j hlt hj with rfl | hj
      · exact ⟨r, hr, isAlive_of_object? h r o ho, rfl⟩
      · exact hm j hj
    · intro s hs
      rcases List.mem_append.mp hs with hs | hs
      · exact .edge r s o hr ho ((o.mem_references s).mp hs)
      · exact hp s (List.mem_cons_of_mem _ hs)
  | case4 marked r rest hlt hset ih =>
    exact ih hm (fun s hs => hp s (List.mem_cons_of_mem _ hs)) hi
  | case5 marked r rest hout ih =>
    exact ih hm (fun s hs => hp s (List.mem_cons_of_mem _ hs)) hi

lemma Closed.of_covered {h : Heap} (hc : h.Closed marked (r :: rest)) (hr : h.Covers marked r) :
    h.Closed marked rest := by
  intro x o s ho hm hs
  rcases hc x o s ho hm hs with hmem | hcov
  · rcases List.mem_cons.mp hmem with rfl | hmem
    · exact .inr hr
    · exact .inl hmem
  · exact .inr hcov

lemma Closed.mark_object {h : Heap} (hc : h.Closed marked (r :: rest))
    (hlt : r.position < marked.size) (object : HeapObject) (ho : h.object? r = some object) :
    h.Closed (marked.set r.position true) (object.references ++ rest) := by
  have hself : h.Covers (marked.set r.position true) r := fun _ => by
    rw [Array.getElem?_set, if_pos rfl]
  intro x o s hx hm hs
  rcases getElem?_set_true marked _ _ hlt hm with hp | hm
  · obtain rfl := eq_of_alive h x r (isAlive_of_object? h x o hx) (isAlive_of_object? h r object ho) hp
    obtain rfl : o = object := Option.some.inj (hx.symm.trans ho)
    exact .inl (List.mem_append_left _ ((o.mem_references s).mpr hs))
  · rcases hc x o s hx hm hs with hmem | hcov
    · rcases List.mem_cons.mp hmem with rfl | hmem
      · exact .inr hself
      · exact .inl (List.mem_append_right _ hmem)
    · exact .inr fun ha => set_true_keeps marked _ _ hlt (hcov ha)

lemma mark_complete (marked : Array Bool) (pending : List ObjectRef)
    (hsize : marked.size = h.objects.slots.size) (hc : h.Closed marked pending) :
    (∀ i : Nat, marked[i]? = some true → (h.mark marked pending)[i]? = some true) ∧
    (∀ r ∈ pending, h.Covers (h.mark marked pending) r) ∧
    h.Closed (h.mark marked pending) [] := by
  fun_induction h.mark marked pending with
  | case1 marked => exact ⟨fun _ hi => hi, by simp, hc⟩
  | case2 marked r rest hlt hunset hnone ih =>
    have hr : ∀ m : Array Bool, h.Covers m r := by
      intro m ha
      simp only [object?] at hnone
      simp [isAlive, Arena.contains, hnone] at ha
    obtain ⟨hkeep, hpend, hclosed⟩ := ih hsize (hc.of_covered (hr marked))
    exact ⟨hkeep, List.forall_mem_cons.mpr ⟨hr _, hpend⟩, hclosed⟩
  | case3 marked r rest hlt hunset o ho ih =>
    obtain ⟨hkeep, hpend, hclosed⟩ := ih (by simpa using hsize) (hc.mark_object hlt o ho)
    have hr := hkeep r.position (by rw [Array.getElem?_set, if_pos rfl])
    refine ⟨fun i hi => hkeep i (set_true_keeps marked _ _ hlt hi), ?_, hclosed⟩
    exact List.forall_mem_cons.mpr
      ⟨fun _ => hr, fun s hs => hpend s (List.mem_append_right _ hs)⟩
  | case4 marked r rest hlt hset ih =>
    have hm : marked[r.position]? = some true := by
      rw [Array.getElem?_eq_getElem hlt]
      simpa using hset
    obtain ⟨hkeep, hpend, hclosed⟩ := ih hsize (hc.of_covered fun _ => hm)
    exact ⟨hkeep, List.forall_mem_cons.mpr ⟨fun _ => hkeep _ hm, hpend⟩, hclosed⟩
  | case5 marked r rest hout ih =>
    have hr : ∀ m : Array Bool, h.Covers m r := by
      intro m ha
      exact absurd (hsize ▸ position_lt_of_alive h r ha) hout
    obtain ⟨hkeep, hpend, hclosed⟩ := ih hsize (hc.of_covered (hr marked))
    exact ⟨hkeep, List.forall_mem_cons.mpr ⟨hr _, hpend⟩, hclosed⟩

lemma getElem?_replicate_false (n i : Nat) : (Array.replicate n false)[i]? ≠ some true := by
  rw [Array.getElem?_replicate]
  split <;> simp

-- The marks are those of the slots that the roots lead to.
lemma marks_iff (i : Nat) : h.marks[i]? = some true ↔ h.Reached i := by
  constructor
  · intro hi
    exact mark_sound h _ _ (fun j hj => absurd hj (getElem?_replicate_false _ j))
      (fun r hr => .root r ((mem_roots h r).mp hr)) i hi
  · rintro ⟨r, hr, ha, rfl⟩
    obtain ⟨-, hroots, hclosed⟩ := mark_complete h (Array.replicate h.objects.slots.size false) h.roots
      Array.size_replicate (fun x o s _ hm => absurd hm (getElem?_replicate_false _ _))
    -- Along a path from the roots: what a marked object refers to is marked.
    have hcov : h.Covers h.marks r := by
      clear ha
      induction hr with
      | root r hr => exact hroots r ((mem_roots h r).mpr hr)
      | edge r s o hr ho hs ih =>
        rcases hclosed r o s ho (ih (isAlive_of_object? h r o ho)) hs with hmem | hcov
        · simp at hmem
        · exact hcov
    exact hcov ha

-- One turn of the marking loop. With nothing pending there is nothing left to do.
def markTurn : Array Bool × List ObjectRef → Array Bool × List ObjectRef
  | (marked, []) => (marked, [])
  | (marked, r :: rest) =>
    if marked[r.position]? = some false then
      match h.object? r with
      | none => (marked, rest)
      | some object => (marked.setIfInBounds r.position true, object.references ++ rest)
    else (marked, rest)

lemma exists_turns_of_turn {before after last : Array Bool × List ObjectRef}
    (hturn : h.markTurn before = after) (hrest : ∃ turns, h.markTurn^[turns] after = last) :
    ∃ turns, h.markTurn^[turns] before = last := by
  obtain ⟨turns, ht⟩ := hrest
  refine ⟨turns + 1, ?_⟩
  rw [Function.iterate_succ_apply, hturn, ht]

lemma exists_turns (marked : Array Bool) (pending : List ObjectRef) :
    ∃ turns, h.markTurn^[turns] (marked, pending) = (h.mark marked pending, []) := by
  fun_induction h.mark marked pending with
  | case1 marked => exact ⟨0, rfl⟩
  | case2 marked r rest hlt hunset hnone ih =>
    exact h.exists_turns_of_turn (by simp [markTurn, hnone]) ih
  | case3 marked r rest hlt hunset o ho ih =>
    refine h.exists_turns_of_turn ?_ ih
    simp [markTurn, ho, hlt, hunset, Array.setIfInBounds]
  | case4 marked r rest hlt hset ih =>
    exact h.exists_turns_of_turn (by simp [markTurn, hlt, hset]) ih
  | case5 marked r rest hout ih =>
    exact h.exists_turns_of_turn (by simp [markTurn, hout]) ih

end Mark

end Heap

end HostBoundary
