import HostBoundary.Proofs.Scopes
import HostBoundary.Proofs.WeakReclaim

namespace HostBoundary

def Template.Refers (t : Template) (r : ObjectRef) : Prop :=
  t.function = some r ∨ t.prototype = some r

namespace Heap

-- Every place of a heap that can hold a reference: the live objects, what is kept whatever
-- refers to it, and the persistent slots, weak ones too.
inductive Held (h : Heap) : ObjectRef → Prop where
  | object (s : ObjectRef) (o : HeapObject) (r : ObjectRef) (ho : h.object? s = some o)
      (hr : o.Refers r) : h.Held r
  | root (r : ObjectRef) (hr : h.Root r) : h.Held r
  | persistent (entry : Persistent) (he : entry ∈ h.persistents.entries) : h.Held entry.target

structure Intact (h : Heap) : Prop where
  wellFormed : h.objects.WellFormed
  object : ∀ s o r, h.object? s = some o → o.Refers r → h.isAlive r = true
  global : ∀ r, h.global = some r → h.isAlive r = true
  rooted : ∀ r, h.Rooted r → h.isAlive r = true
  persistent : h.TargetsLive
  template : ∀ t ∈ h.templates.entries, ∀ r, t.Refers r → h.isAlive r = true
  job : ∀ job ∈ h.jobs, ∀ r ∈ job.references, h.isAlive r = true

namespace Intact

variable {h : Heap} (hi : h.Intact)

include hi

lemma root_alive (r : ObjectRef) (hr : h.Root r) : h.isAlive r = true := by
  cases hr with
  | global r hr => exact hi.global r hr
  | base r hr => exact hi.rooted r ((h.rooted_iff r).mpr (.inl hr))
  | scope scope r hs hr => exact hi.rooted r ((h.rooted_iff r).mpr (.inr ⟨scope, hs, hr⟩))
  | persistent entry he _ => exact hi.persistent entry he
  | templateFunction t r ht hr => exact hi.template t ht r (.inl hr)
  | templatePrototype t r ht hr => exact hi.template t ht r (.inr hr)
  | jobReaction job r hj hr => exact hi.job job hj r ((job.mem_references r).mpr (.inl hr))
  | jobValue job r hj hr => exact hi.job job hj r ((job.mem_references r).mpr (.inr hr))

lemma alive (r : ObjectRef) (hr : h.Held r) : h.isAlive r = true := by
  cases hr with
  | object s o r ho hr => exact hi.object s o r ho hr
  | root r hr => exact hi.root_alive r hr
  | persistent entry he => exact hi.persistent entry he

lemma withScopes (base : List ObjectRef) (pushed : List (List ObjectRef)) (overflow : Nat)
    (hr : ∀ r, { h with base, pushed, overflow }.Rooted r → h.isAlive r = true) :
    { h with base, pushed, overflow }.Intact :=
  { hi with rooted := hr }

lemma root (r : ObjectRef) (hr : h.isAlive r = true) : (h.root r).Intact := by
  have hrooted : ∀ s, (h.root r).Rooted s → h.isAlive s = true := by
    intro s hs
    rcases h.rooted_root r s hs with rfl | hs
    · exact hr
    · exact hi.rooted s hs
  unfold Heap.root at hrooted ⊢
  split at hrooted <;> exact hi.withScopes _ _ _ hrooted

lemma pushScope : h.pushScope.Intact := by
  unfold Heap.pushScope
  split
  · exact hi.withScopes _ _ _ hi.rooted
  · refine hi.withScopes _ _ _ fun r hr => ?_
    rcases (rooted_iff _ r).mp hr with hr | ⟨scope, hs, hr⟩
    · exact hi.rooted r ((h.rooted_iff r).mpr (.inl hr))
    · rcases List.mem_cons.mp hs with rfl | hs
      · simp at hr
      · exact hi.rooted r ((h.rooted_iff r).mpr (.inr ⟨scope, hs, hr⟩))

lemma popScope : h.popScope.2.Intact := by
  unfold Heap.popScope
  split
  · exact hi.withScopes _ _ _ hi.rooted
  · split
    · exact hi
    · rename_i scope outer hp
      refine hi.withScopes _ _ _ fun r hr => ?_
      rcases (rooted_iff _ r).mp hr with hr | ⟨scope, hs, hr⟩
      · exact hi.rooted r ((h.rooted_iff r).mpr (.inl hr))
      · exact hi.rooted r ((h.rooted_iff r).mpr (.inr ⟨scope, by simp [hp, hs], hr⟩))

-- Objects may come and change, as long as none goes and they refer to what is alive.
lemma withObjects {objects : Arena .object HeapObject} {allocations : Nat} (hwf : objects.WellFormed)
    (hkeep : ∀ r, h.isAlive r = true → objects.contains r = true)
    (hobject : ∀ s o r, objects.get? s = some o → o.Refers r → h.isAlive r = true) :
    { h with objects, allocations }.Intact where
  wellFormed := hwf
  object s o r hs hr := hkeep r (hobject s o r hs hr)
  global r hr := hkeep r (hi.global r hr)
  rooted r hr := hkeep r (hi.rooted r hr)
  persistent entry he := hkeep _ (hi.persistent entry he)
  template t ht r hr := hkeep r (hi.template t ht r hr)
  job job hj r hr := hkeep r (hi.job job hj r hr)

lemma insert (o : HeapObject) (allocations : Nat)
    (hroom : (h.objects.insert o).2.slots.size < 2 ^ 32)
    (ho : ∀ r, o.Refers r → h.isAlive r = true) :
    { h with objects := (h.objects.insert o).2, allocations }.Intact := by
  refine hi.withObjects ((Arena.Progress.insert h.objects o).wellFormed hi.wellFormed hroom)
    (Arena.contains_insert h.objects o) fun s x r hs hr => ?_
  rcases Arena.get?_insert h.objects o s x hs with rfl | hs
  · exact ho r hr
  · exact hi.object s x r hs hr

lemma allocate (o : HeapObject) (hroom : (h.allocate o).2.objects.slots.size < 2 ^ 32)
    (ho : ∀ r, o.Refers r → h.isAlive r = true) : (h.allocate o).2.Intact := by
  rw [allocate_objects] at hroom
  have hsize : h.objects.slots.size < 2 ^ 32 :=
    Nat.lt_of_le_of_lt (Arena.Progress.insert h.objects o).size hroom
  refine (hi.insert o (h.allocations + 1) hroom ho).root _ ?_
  exact (Heap.isAlive_iff _ _).mpr ⟨o, Arena.get?_insert_self _ hi.wellFormed hsize o⟩

lemma modifyObject (s : ObjectRef) (f : HeapObject → HeapObject)
    (hf : ∀ o, h.object? s = some o → ∀ r, (f o).Refers r → h.isAlive r = true) :
    (h.modifyObject s f).Intact := by
  have hshape := Arena.sameShape_modify h.objects s f
  refine hi.withObjects (hshape.wellFormed hi.wellFormed) (fun _ hr => hshape.contains hr)
    fun x o r hx hr => ?_
  rw [Arena.get?_modify] at hx
  split at hx
  · rename_i heq
    obtain ⟨before, hb, rfl⟩ := Option.map_eq_some_iff.mp hx
    exact hf before (heq ▸ hb) r hr
  · exact hi.object x o r hx hr

lemma target (slot : PersistentRef) : (h.target slot).2.Intact := by
  unfold Heap.target
  split
  · exact hi
  · split
    · rename_i ha
      dsimp only
      split
      · exact hi
      · exact hi.root _ ha
    · exact hi

lemma persist (r : ObjectRef) : (h.persist r).2.Intact := by
  have hlive := apply_targetsLive h (.persist r) hi.persistent
  simp only [apply, Prod.map, id] at hlive
  unfold Heap.persist at hlive ⊢
  split at hlive
  · rename_i ha
    rw [if_pos ha]
    exact { hi with persistent := hlive }
  · rename_i ha
    rw [if_neg ha]
    exact hi

lemma weaken (slot : PersistentRef) (hook : Option ReclaimHook) :
    (h.weaken slot hook).2.Intact := by
  have hlive := apply_targetsLive h (.weaken slot hook) hi.persistent
  simp only [apply, Prod.map, id] at hlive
  unfold Heap.weaken at hlive ⊢
  split at hlive
  · rename_i hc
    rw [if_pos hc]
    exact { hi with persistent := hlive }
  · rename_i hc
    rw [if_neg hc]
    exact hi

lemma dispose (slot : PersistentRef) : (h.dispose slot).2.Intact :=
  { hi with persistent := apply_targetsLive h (.dispose slot) hi.persistent }

lemma addTemplate (t : Template) (ht : ∀ r, t.Refers r → h.isAlive r = true) :
    (h.addTemplate t).2.Intact := by
  refine { hi with template := fun x hx r hr => ?_ }
  simp only [Heap.addTemplate, Arena.append, Arena.entries, Array.toList_push, List.filterMap_append,
    List.mem_append] at hx
  rcases hx with hx | hx
  · exact hi.template x hx r hr
  · obtain rfl : x = t := by simpa using hx
    exact ht r hr

lemma modifyTemplate (s : TemplateRef) (f : Template → Template)
    (hf : ∀ t, h.template? s = some t → ∀ r, (f t).Refers r → h.isAlive r = true) :
    (h.modifyTemplate s f).Intact := by
  refine { hi with template := fun x hx r hr => ?_ }
  rcases h.templates.mem_entries_modify s f x hx with hx | ⟨t, ht, rfl⟩
  · exact hi.template x hx r hr
  · exact hf t ht r hr

lemma discardTemplate (s : TemplateRef) : (h.discardTemplate s).Intact := by
  refine { hi with template := fun x hx r hr => ?_ }
  exact hi.template x (h.templates.mem_entries_retire s x hx) r hr

lemma enqueue (jobs : List Job) (hj : ∀ job ∈ jobs, ∀ r ∈ job.references, h.isAlive r = true) :
    (h.enqueue jobs).Intact := by
  refine { hi with job := fun job hmem => ?_ }
  rcases List.mem_append.mp hmem with hmem | hmem
  · exact hi.job job hmem
  · exact hj job hmem

lemma dequeue : { h with jobs := h.jobs.tail }.Intact :=
  { hi with job := fun job hmem => hi.job job (List.mem_of_mem_tail hmem) }

-- What survives a collection was reachable, and so is all that it refers to.
lemma collect : h.collect.2.Intact := by
  have hroot : ∀ r, h.Root r → h.collect.2.isAlive r = true := fun r hr =>
    (isAlive_collect_iff h r).mpr ⟨hi.root_alive r hr, .root r hr⟩
  have hfields : h.collect.2.global = h.global ∧ h.collect.2.scopes = h.scopes ∧
      h.collect.2.templates = h.templates ∧ h.collect.2.jobs = h.jobs := by
    rw [collect_eq]
    exact ⟨rfl, rfl, rfl, rfl⟩
  obtain ⟨hglobal, hscopes, htemplates, hjobs⟩ := hfields
  exact
    { wellFormed := by
        rw [collect_eq]
        exact (Arena.sweep_advance _ _ _ hi.wellFormed).1
      object := by
        intro s o r hs hr
        have ha := isAlive_of_object? _ s o hs
        rw [object?_collect_of_alive h s ha] at hs
        have hreach := ((isAlive_collect_iff h s).mp ha).2
        exact (isAlive_collect_iff h r).mpr ⟨hi.object s o r hs hr, .edge s r o hreach hs hr⟩
      global := fun r hr => hroot r (.global r (hglobal ▸ hr))
      rooted := by
        intro r hr
        rw [Rooted, hscopes] at hr
        rcases (h.rooted_iff r).mp hr with hr | ⟨scope, hs, hr⟩
        · exact hroot r (.base r hr)
        · exact hroot r (.scope scope r hs hr)
      persistent := collect_targetsLive h hi.persistent
      template := by
        intro t ht r hr
        rw [htemplates] at ht
        rcases hr with hr | hr
        · exact hroot r (.templateFunction t r ht hr)
        · exact hroot r (.templatePrototype t r ht hr)
      job := by
        intro job hj r hr
        rw [hjobs] at hj
        rcases (job.mem_references r).mp hr with hr | hr
        · exact hroot r (.jobReaction job r hj hr)
        · exact hroot r (.jobValue job r hj hr) }

end Intact

end Heap

end HostBoundary
