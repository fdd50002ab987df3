import HostBoundary.Proofs.CallSites
import HostBoundary.Proofs.Intact

namespace HostBoundary

namespace HeapObject

lemma refers_ofBody (b : Body) (r : ObjectRef) : (ofBody b).Refers r ↔ r ∈ b.references := by
  rw [← mem_references]
  simp [references, ofBody]

lemma refers_cases (o o' : HeapObject) (r : ObjectRef) (hr : o'.Refers r)
    (hproto : o'.prototype = o.prototype) :
    o.Refers r ∨ (∃ p ∈ o'.properties, p.slot = .data (.object r)) ∨ r ∈ o'.body.references := by
  rw [← mem_references] at hr
  simp only [references, List.mem_append, List.mem_flatMap, Option.mem_toList] at hr
  rcases hr with (⟨p, hp, hr⟩ | hr) | hr
  · split at hr
    · rename_i v hv
      exact .inr (.inl ⟨p, hp, by rw [hv, (v.mem_references r).mp hr]⟩)
    · simp at hr
  · exact .inl (.prototype r (hproto ▸ hr))
  · exact .inr (.inr hr)

lemma refers_define (o : HeapObject) (key : Key) (value : Value) (enumerable : Bool) (r : ObjectRef)
    (hr : (o.define key value enumerable).Refers r) : o.Refers r ∨ value = .object r := by
  rcases refers_cases o _ r hr rfl with hr | ⟨p, hp, hslot⟩ | hr
  · exact .inl hr
  · rcases mem_defineIn _ _ _ _ p hp with hp | hdata
    · exact .inl (.property p r hp hslot)
    · exact .inr (PropertySlot.data.inj (hdata.symm.trans hslot))
  · exact .inl (refers_of_mem_body o r hr)

lemma refers_withBody (o : HeapObject) (b : Body) (r : ObjectRef)
    (hr : { o with body := b }.Refers r) : o.Refers r ∨ r ∈ b.references := by
  rcases refers_cases o _ r hr rfl with hr | ⟨p, hp, hslot⟩ | hr
  · exact .inl hr
  · exact .inl (.property p r hp hslot)
  · exact .inr hr

end HeapObject

namespace Heap

def Roomy (h : Heap) : Prop := h.objects.slots.size < 2 ^ 32

namespace Leads

variable {h h' : Heap} (hl : h.Leads h')

include hl

lemma roomy (hroom : h'.Roomy) : h.Roomy := by
  obtain ⟨_, hprogress⟩ := hl.objects
  exact Nat.lt_of_le_of_lt hprogress.size hroom

lemma wellFormed (hwf : h.WellFormed) (hroom : h'.Roomy) : h'.WellFormed := by
  obtain ⟨_, hprogress⟩ := hl.objects
  exact hprogress.wellFormed hwf hroom

lemma issued (hwf : h.WellFormed) (hroom : h'.Roomy) {r : ObjectRef}
    (hr : h.objects.Issued r) : h'.objects.Issued r := by
  obtain ⟨_, hprogress⟩ := hl.objects
  exact (hprogress.advance hwf hroom).keeps r hr

end Leads

def Stored (h : Heap) (r : ObjectRef) : Prop := ∃ s o, h.object? s = some o ∧ o.Refers r

def Live (h : Heap) (r : ObjectRef) : Prop := h.Roomy → h.isAlive r = true

def LiveValue (h : Heap) (v : Value) : Prop := ∀ r, v = .object r → h.Live r

structure Sound (h : Heap) : Prop where
  intact : h.Roomy → h.Intact
  saturated : h.Saturated

namespace Sound

variable {h : Heap} {r : ObjectRef} (hs : h.Sound)

include hs

lemma live_of_rooted (hr : h.Rooted r) : h.Live r :=
  fun hroom => (hs.intact hroom).rooted r hr

lemma live_of_innermost (hr : h.Innermost r) : h.Live r :=
  hs.live_of_rooted hr.rooted

lemma live_of_refers {s : ObjectRef} {o : HeapObject} (ho : h.object? s = some o)
    (hr : o.Refers r) : h.Live r :=
  fun hroom => (hs.intact hroom).object s o r ho hr

lemma live_of_stored (hr : h.Stored r) : h.Live r := by
  obtain ⟨s, o, ho, hr⟩ := hr
  exact hs.live_of_refers ho hr

lemma live_of_template {s : TemplateRef} {t : Template} (ht : h.template? s = some t)
    (hr : t.Refers r) : h.Live r :=
  fun hroom => (hs.intact hroom).template t (h.templates.mem_entries_of_get? s t ht) r hr

end Sound

-- An operation that frees nothing, opens or closes no scope, and stores live references only.
def Operation.Safe (h : Heap) : Operation → Prop
  | .allocate o => ∀ r, o.Refers r → h.Live r
  | .mutate s change => ∀ o, h.object? s = some o → ∀ r, (change o).Refers r → h.Live r
  | .root r => h.Live r
  | .addTemplate t => ∀ r, t.Refers r → h.Live r
  | .mutateTemplate s change =>
    ∀ t, h.template? s = some t → ∀ r, (change t).Refers r → h.Live r
  | .enqueue jobs => ∀ job ∈ jobs, ∀ r ∈ job.references, h.Live r
  | .persist _ | .target _ | .weaken _ _ | .dispose _ | .discardTemplate _ | .dequeue
  | .drainReleases => True
  | .setGlobal _ | .pushScope | .popScope | .collect => False

-- Taking a release hook leaves the references of a buffer, of which there are none, as they are.
lemma refers_of_drained (o : HeapObject) (hr : (drained o).Refers r) : o.Refers r := by
  unfold drained at hr
  split at hr
  · exact (o.refers_withBody _ r hr).resolve_right (by simp [Body.references])
  · exact hr

lemma Intact.drainReleases {h : Heap} (hi : h.Intact) : h.drainReleases.2.Intact := by
  have hshape := sameShape_drainReleases h
  refine hi.withObjects (hshape.wellFormed hi.wellFormed) (fun _ hr => hshape.contains hr)
    fun s o r hs hr => ?_
  obtain ⟨before, hb, rfl⟩ := h.eq_drained_of_drainReleases hs
  exact hi.object s before r hb (refers_of_drained before hr)

lemma opens_allocate (h : Heap) (o : HeapObject) : Opens 0 h (h.allocate o).2 := by
  have hinsert : Opens 0 h { h with
      objects := (h.objects.insert o).2, allocations := h.allocations + 1 } :=
    .of_eq (Arena.Progress.insert h.objects o).size rfl rfl rfl rfl
  exact hinsert.trans (opens_root _ _)

-- An operation that frees nothing, and opens or closes no scope.
def Operation.Lasting : Operation → Prop
  | .setGlobal _ | .pushScope | .popScope | .collect => False
  | _ => True

namespace Operation.Lasting

variable {h : Heap} {op : Operation}

lemma alive (hop : op.Lasting) (r : ObjectRef) (hr : h.isAlive r = true) :
    (h.apply op).2.isAlive r = true := by
  cases op with
  | allocate o => exact isAlive_allocate h o r hr
  | mutate s change => exact (Arena.sameShape_modify h.objects s change).contains hr
  | drainReleases => exact (sameShape_drainReleases h).contains hr
  | root | persist | target | weaken => simpa [apply, isAlive] using hr
  | dispose | addTemplate | mutateTemplate | discardTemplate | enqueue | dequeue => exact hr
  | setGlobal | pushScope | popScope | collect => exact hop.elim

lemma opens (hop : op.Lasting) : Opens 0 h (h.apply op).2 := by
  have hsize := (apply_objects h op).size
  cases op with
  | allocate o => exact h.opens_allocate o
  | root r => exact h.opens_root r
  | target slot =>
    simp only [apply, Prod.map, id, Heap.target]
    split
    · exact .refl h
    · split
      · dsimp only
        split
        · exact .refl h
        · exact h.opens_root _
      · exact .refl h
  | persist r =>
    simp only [apply, Heap.persist]
    split <;> exact .of_eq (Nat.le_refl _) rfl rfl rfl rfl
  | weaken slot hook =>
    simp only [apply, Heap.weaken]
    split <;> exact .of_eq (Nat.le_refl _) rfl rfl rfl rfl
  | mutate | dispose | addTemplate | mutateTemplate | discardTemplate | enqueue | dequeue
  | drainReleases =>
    exact .of_eq hsize rfl rfl rfl rfl
  | setGlobal | pushScope | popScope | collect => exact hop.elim

end Operation.Lasting

namespace Operation.Safe

variable {h : Heap} {op : Operation} (hop : op.Safe h)

include hop

lemma lasting : op.Lasting := by
  cases op with
  | setGlobal | pushScope | popScope | collect => exact hop.elim
  | _ => trivial

lemma alive (r : ObjectRef) (hr : h.isAlive r = true) :
    (h.apply op).2.isAlive r = true := hop.lasting.alive r hr

lemma opens : Opens 0 h (h.apply op).2 := hop.lasting.opens

lemma intact (hi : h.Intact) (hroom : (h.apply op).2.Roomy) : (h.apply op).2.Intact := by
  have hbefore : h.Roomy := Nat.lt_of_le_of_lt hop.opens.size hroom
  cases op with
  | allocate o => exact hi.allocate o hroom fun r hr => hop r hr hbefore
  | mutate s change => exact hi.modifyObject s change fun o ho r hr => hop o ho r hr hbefore
  | root r => exact hi.root r (hop hbefore)
  | persist r => exact hi.persist r
  | target slot => exact hi.target slot
  | weaken slot hook => exact hi.weaken slot hook
  | dispose slot => exact hi.dispose slot
  | addTemplate t => exact hi.addTemplate t fun r hr => hop r hr hbefore
  | mutateTemplate s change =>
    exact hi.modifyTemplate s change fun t ht r hr => hop t ht r hr hbefore
  | discardTemplate s => exact hi.discardTemplate s
  | enqueue jobs => exact hi.enqueue jobs fun job hj r hr => hop job hj r hr hbefore
  | dequeue => exact hi.dequeue
  | drainReleases => exact hi.drainReleases
  | setGlobal | pushScope | popScope | collect => exact hop.elim

end Operation.Safe

def Safely : Heap → Heap → Prop :=
  Relation.ReflTransGen fun h h' => ∃ op : Operation, op.Safe h ∧ (h.apply op).2 = h'

namespace Safely

variable {h h' h'' : Heap}

lemma refl (h : Heap) : h.Safely h := Relation.ReflTransGen.refl

lemma trans (hab : h.Safely h') (hbc : h'.Safely h'') : h.Safely h'' :=
  Relation.ReflTransGen.trans hab hbc

lemma op (op : Operation) (hop : op.Safe h) : h.Safely (h.apply op).2 := .single ⟨op, hop, rfl⟩

variable (hl : h.Safely h')

include hl

lemma opens : Opens 0 h h' := by
  induction hl with
  | refl => exact .refl h
  | tail _ hstep ih =>
    obtain ⟨op, hop, rfl⟩ := hstep
    exact ih.trans hop.opens

lemma alive (r : ObjectRef) (hr : h.isAlive r = true) : h'.isAlive r = true := by
  induction hl with
  | refl => exact hr
  | tail _ hstep ih =>
    obtain ⟨op, hop, rfl⟩ := hstep
    exact hop.alive r ih

lemma sound (hs : h.Sound) : h'.Sound := by
  refine ⟨?_, hl.opens.saturated hs.saturated⟩
  induction hl with
  | refl => exact hs.intact
  | tail _ hstep ih =>
    obtain ⟨op, hop, rfl⟩ := hstep
    intro hroom
    exact hop.intact (ih (Nat.lt_of_le_of_lt hop.opens.size hroom)) hroom

lemma live {r : ObjectRef} (hr : h.Live r) : h'.Live r :=
  fun hroom => hl.alive r (hr (Nat.lt_of_le_of_lt hl.opens.size hroom))

lemma liveValue {v : Value} (hv : h.LiveValue v) : h'.LiveValue v :=
  fun r hr => hl.live (hv r hr)

end Safely

section Functions

variable (h : Heap)

lemma safely_allocate (o : HeapObject) (ho : ∀ r, o.Refers r → h.Live r) :
    h.Safely (h.allocate o).2 :=
  .op (.allocate o) ho

lemma safely_allocate_ofBody (b : Body) (hb : ∀ r ∈ b.references, h.Live r) :
    h.Safely (h.allocate (.ofBody b)).2 :=
  h.safely_allocate _ fun r hr => hb r ((HeapObject.refers_ofBody b r).mp hr)

lemma safely_root (r : ObjectRef) (hr : h.Live r) : h.Safely (h.root r) := .op (.root r) hr

lemma safely_modifyObject (s : ObjectRef) (f : HeapObject → HeapObject)
    (hf : ∀ o, h.object? s = some o → ∀ r, (f o).Refers r → h.Live r) :
    h.Safely (h.modifyObject s f) :=
  .op (.mutate s f) hf

lemma safely_withBody (hs : h.Sound) (s : ObjectRef) (b : Body)
    (hb : ∀ r ∈ b.references, h.Live r) : h.Safely (h.modifyObject s ({ · with body := b })) := by
  refine h.safely_modifyObject s _ fun o ho r hr => ?_
  rcases o.refers_withBody b r hr with hr | hr
  · exact hs.live_of_refers ho hr
  · exact hb r hr

lemma safely_define (hs : h.Sound) (s : ObjectRef) (key : Key) (value : Value) (enumerable : Bool)
    (hv : h.LiveValue value) : h.Safely (h.modifyObject s (·.define key value enumerable)) := by
  refine h.safely_modifyObject s _ fun o ho r hr => ?_
  rcases o.refers_define key value enumerable r hr with hr | hr
  · exact hs.live_of_refers ho hr
  · exact hv r hr

lemma safely_target (slot : PersistentRef) : h.Safely (h.target slot).2 :=
  .op (.target slot) trivial

lemma safely_persist (r : ObjectRef) : h.Safely (h.persist r).2 := .op (.persist r) trivial

lemma safely_weaken (slot : PersistentRef) (hook : Option ReclaimHook) :
    h.Safely (h.weaken slot hook).2 :=
  .op (.weaken slot hook) trivial

lemma safely_dispose (slot : PersistentRef) : h.Safely (h.dispose slot).2 :=
  .op (.dispose slot) trivial

lemma safely_enqueue (jobs : List Job) (hj : ∀ job ∈ jobs, ∀ r ∈ job.references, h.Live r) :
    h.Safely (h.enqueue jobs) :=
  .op (.enqueue jobs) hj

lemma safely_addTemplate (t : Template) (ht : ∀ r, t.Refers r → h.Live r) :
    h.Safely (h.addTemplate t).2 :=
  .op (.addTemplate t) ht

lemma safely_modifyTemplate (s : TemplateRef) (f : Template → Template)
    (hf : ∀ t, h.template? s = some t → ∀ r, (f t).Refers r → h.Live r) :
    h.Safely (h.modifyTemplate s f) :=
  .op (.mutateTemplate s f) hf

lemma errorObject_refers (name : ErrorName) (message : String) (r : ObjectRef) :
    ¬ (errorObject name message).Refers r := by
  intro hr
  rcases HeapObject.refers_define _ _ _ _ r hr with hr | hr
  · rcases HeapObject.refers_define _ _ _ _ r hr with hr | hr
    · rcases HeapObject.refers_define _ _ _ _ r hr with hr | hr
      · simp [HeapObject.refers_ofBody, Body.references] at hr
      · simp [Value.text] at hr
    · simp [Value.text] at hr
  · simp [Value.text] at hr

lemma functionObject_refers (body : FunctionBody) (name : String) (r : ObjectRef) :
    ¬ (functionObject body name).Refers r := by
  intro hr
  rcases HeapObject.refers_define _ _ _ _ r hr with hr | hr
  · simp [HeapObject.refers_ofBody, Body.references] at hr
  · simp [Value.text] at hr

lemma safely_newError (name : ErrorName) (message : String) :
    h.Safely (h.newError name message).2 :=
  h.safely_allocate _ fun r hr => absurd hr (errorObject_refers name message r)

lemma innermost_newError (name : ErrorName) (message : String) (r : ObjectRef)
    (hr : (h.newError name message).1 = .object r) : (h.newError name message).2.Innermost r :=
  Value.object.inj hr ▸ h.innermost_allocate _

lemma safely_newFunction (data : CallbackData) (name : Option String) :
    h.Safely (h.newFunction data name).2 :=
  h.safely_allocate _ fun r hr => absurd hr (functionObject_refers _ _ r)

lemma isAlive_of_resolveHandle (handle : Handle) (r : ObjectRef)
    (hr : (h.resolveHandle handle).1 = some r) : h.isAlive r = true := by
  cases handle with
  | transient target =>
    simp only [resolveHandle] at hr
    split at hr
    · rename_i ha
      exact Option.some.inj hr ▸ ha
    · cases hr
  | persistent slot =>
    simp only [resolveHandle, target] at hr
    split at hr
    · cases hr
    · split at hr
      · rename_i ha
        exact Option.some.inj hr ▸ ha
      · cases hr

lemma safely_resolveHandle (handle : Handle) : h.Safely (h.resolveHandle handle).2 := by
  cases handle with
  | transient target => exact .refl h
  | persistent slot => exact h.safely_target slot

lemma safely_releaseHandle (handle : Handle) : h.Safely (h.releaseHandle handle).2 := by
  cases handle with
  | transient target => exact .refl h
  | persistent slot => exact h.safely_dispose slot

lemma safely_ofTagged (value : Tagged) : h.Safely (h.ofTagged value).2 := by
  cases value with
  | object kind handle =>
    have hr := h.safely_resolveHandle handle
    simp only [ofTagged]
    split <;> rename_i heq <;> rw [heq] at hr <;> exact hr
  | _ => exact .refl h

lemma liveValue_ofTagged (value : Tagged) (v : Value) (hv : (h.ofTagged value).1 = .ok v) :
    (h.ofTagged value).2.LiveValue v := by
  intro r hr
  subst hr
  refine (h.safely_ofTagged value).live fun _ => ?_
  cases value with
  | object kind handle =>
    simp only [ofTagged] at hv
    split at hv
    · rename_i target _ heq
      obtain rfl : target = r := by simpa using hv
      exact h.isAlive_of_resolveHandle handle target (by rw [heq])
    · cases hv
  | _ => simp [ofTagged, Value.text, Value.ofInt] at hv <;> split at hv <;> simp at hv

lemma safely_ofTaggedAll (values : List Tagged) :
    h.Safely (h.ofTaggedAll values).2 ∧
    ∀ vs, (h.ofTaggedAll values).1 = .ok vs → ∀ v ∈ vs, (h.ofTaggedAll values).2.LiveValue v := by
  induction values generalizing h with
  | nil => exact ⟨.refl h, by simp [ofTaggedAll]⟩
  | cons first rest ih =>
    have hfirst := h.safely_ofTagged first
    have hlive := h.liveValue_ofTagged first
    simp only [ofTaggedAll]
    split <;> rename_i heq <;> rw [heq] at hfirst hlive
    · exact ⟨hfirst, by simp⟩
    · rename_i value middle
      obtain ⟨hrest, hall⟩ := ih middle
      split <;> rename_i heq' <;> rw [heq'] at hrest hall
      · exact ⟨hfirst.trans hrest, by simp⟩
      · refine ⟨hfirst.trans hrest, fun vs hvs v hv => ?_⟩
        obtain rfl := Except.ok.inj hvs
        rcases List.mem_cons.mp hv with rfl | hv
        · exact hrest.liveValue (hlive _ rfl)
        · exact hall _ rfl v hv

lemma safely_setField (hs : h.Sound) (s : ObjectRef) (i : FieldIndex) (word : Pointer) :
    h.Safely (h.setField s i word).2 := by
  unfold setField
  split
  · refine h.safely_modifyObject s _ fun o ho r hr => hs.live_of_refers ho ?_
    rcases HeapObject.refers_cases o _ r hr rfl with hr | ⟨p, hp, hslot⟩ | hr
    · exact hr
    · exact .property p r hp hslot
    · exact HeapObject.refers_of_mem_body o r hr
  · exact .refl h

lemma safely_storeElement (hs : h.Sound) (view : TypedArrayView) (index : Nat) (value : Value) :
    h.Safely (h.storeElement view index value) := by
  unfold storeElement
  split
  · exact .refl h
  · refine h.safely_modifyObject _ _ fun o ho r hr => hs.live_of_refers ho ?_
    split at hr
    · dsimp only at hr
      split at hr
      · exact (o.refers_withBody _ r hr).resolve_right (by simp [Body.references])
      · exact hr
    · exact hr

lemma mem_resize (elements : Array Value) (length : Nat) (r : ObjectRef)
    (hr : .object r ∈ resize elements length) : .object r ∈ elements := by
  simp only [resize, Array.mem_append, Array.mem_replicate] at hr
  rcases hr with hr | hr
  · rw [Array.take_eq_extract, Array.mem_extract_iff_getElem] at hr
    obtain ⟨i, hi, heq⟩ := hr
    exact heq ▸ Array.getElem_mem _
  · exact absurd hr.2 (by simp)

lemma safely_storeOwn (hs : h.Sound) (s : ObjectRef) (key : Key) (value : Value) (h' : Heap)
    (hv : h.LiveValue value) (hstore : h.storeOwn s key value = some h') : h.Safely h' := by
  unfold storeOwn at hstore
  split at hstore
  · rw [← Option.some.inj hstore]
    exact .refl h
  · rename_i object ho
    have helements : ∀ elements, object.body = .array elements → ∀ r, .object r ∈ elements → h.Live r :=
      fun elements hb r hr => hs.live_of_refers ho (.element elements r hb hr)
    split at hstore
    · rename_i elements n hb
      split at hstore
      · cases hstore
      · rw [← Option.some.inj hstore]
        refine h.safely_withBody hs s _ fun r hr => ?_
        simp only [Body.references, List.mem_flatMap, Value.mem_references, Array.mem_toList_iff,
          exists_eq_right] at hr
        rcases Array.mem_or_eq_of_mem_setIfInBounds hr with hr | hr
        · refine helements elements hb r ?_
          split at hr
          · exact mem_resize elements _ r hr
          · exact hr
        · exact hv r hr.symm
    · rename_i elements hb
      obtain ⟨length, -, rfl⟩ := Option.map_eq_some_iff.mp hstore
      refine h.safely_withBody hs s _ fun r hr => ?_
      simp only [Body.references, List.mem_flatMap, Value.mem_references, Array.mem_toList_iff,
        exists_eq_right] at hr
      exact helements elements hb r (mem_resize elements _ r hr)
    · rw [← Option.some.inj hstore]
      exact h.safely_storeElement hs _ _ _
    · rw [← Option.some.inj hstore]
      exact h.safely_define hs s _ value true hv

lemma ofInt_ne_object (n : Int) (r : ObjectRef) : Value.ofInt n ≠ .object r := by
  unfold Value.ofInt
  split <;> simp

lemma decode_ne_object (kind : ElementKind) (bytes : List UInt8) (r : ObjectRef) :
    Element.decode kind bytes ≠ .object r := by
  unfold Element.decode
  cases kind <;> first | exact ofInt_ne_object _ r | simp

lemma refers_of_computed? (o : HeapObject) (key : Key) (r : ObjectRef)
    (hc : h.computed? o key = some (.object r)) : o.Refers r := by
  have hlength : ∀ n, some (lengthValue n) ≠ some (Value.object r) := fun n heq =>
    ofInt_ne_object n r (Option.some.inj heq)
  unfold computed? at hc
  split at hc
  · rename_i elements n hb
    exact .element elements r hb (Array.mem_of_getElem? hc)
  · exact absurd hc (hlength _)
  · split at hc
    · cases hc
    · obtain ⟨bytes, -, hd⟩ := Option.map_eq_some_iff.mp hc
      exact absurd hd (decode_ne_object _ _ r)
  · exact absurd hc (hlength _)
  · exact absurd hc (hlength _)
  · exact absurd hc (hlength _)
  · exact absurd hc (hlength _)
  · cases hc

lemma refers_of_foundIn (o : HeapObject) (key : Key) (r : ObjectRef)
    (hf : h.foundIn o key = some (.value (.object r))) : o.Refers r := by
  unfold foundIn at hf
  split at hf
  · rename_i v hc
    obtain rfl : v = .object r := by simpa using hf
    exact h.refers_of_computed? o key r hc
  · obtain ⟨p, hp, hslot⟩ := Option.map_eq_some_iff.mp hf
    have hmem : p ∈ o.properties := List.mem_of_find?_eq_some hp
    split at hslot
    · rename_i v hv
      obtain rfl : v = .object r := by simpa using hslot
      exact .property p r hmem hv
    · cases hslot
    · cases hslot

lemma stored_of_lookupFrom (key : Key) (steps : Nat) (start : Option ObjectRef) (r : ObjectRef)
    (hl : h.lookupFrom key steps start = .value (.object r)) : h.Stored r := by
  induction steps generalizing start with
  | zero => simp [lookupFrom] at hl
  | succ steps ih =>
    cases start with
    | none => simp [lookupFrom] at hl
    | some s =>
      simp only [lookupFrom] at hl
      split at hl
      · cases hl
      · rename_i o ho
        split at hl
        · rename_i found hf
          subst hl
          exact ⟨s, o, ho, h.refers_of_foundIn o key r hf⟩
        · exact ih _ hl

lemma safely_writeContents (hs : h.Sound) (s : ObjectRef) (offset : Nat) (bytes : List UInt8) :
    h.Safely (h.writeContents s offset bytes).2 := by
  unfold writeContents
  split
  · split
    · refine h.safely_modifyObject s _ fun o ho r hr => hs.live_of_refers ho ?_
      split at hr
      · exact (o.refers_withBody _ r hr).resolve_right (by simp [Body.references])
      · exact hr
    · exact .refl h
  · exact .refl h

lemma isAlive_of_contents? (s : ObjectRef) (bytes : Array UInt8) (hc : h.contents? s = some bytes) :
    h.isAlive s = true := by
  unfold contents? body? at hc
  cases ho : h.object? s with
  | none => simp [ho] at hc
  | some o => exact isAlive_of_object? h s o ho

lemma safely_allocate_view (buffer : ObjectRef) (bytes : Array UInt8) (body : Body)
    (hc : h.contents? buffer = some bytes) (hbody : body.references = [buffer]) :
    h.Safely (h.allocate (.ofBody body)).2 := by
  refine h.safely_allocate_ofBody _ fun r hr => ?_
  obtain rfl : r = buffer := by simpa [hbody] using hr
  exact fun _ => h.isAlive_of_contents? r bytes hc

lemma safely_newTypedArray (kind : ElementKind) (buffer : ObjectRef) (byteOffset length : Nat) :
    h.Safely (h.newTypedArray kind buffer byteOffset length).2 ∧
    ∀ r, (h.newTypedArray kind buffer byteOffset length).1 = some r →
      (h.newTypedArray kind buffer byteOffset length).2.Innermost r := by
  unfold newTypedArray
  split
  · exact ⟨.refl h, by simp⟩
  · rename_i bytes hc
    split
    · exact ⟨.refl h, by simp⟩
    · split
      · refine ⟨h.safely_allocate_view buffer bytes _ hc rfl, fun r hr => ?_⟩
        exact Option.some.inj hr ▸ h.innermost_allocate _
      · exact ⟨.refl h, by simp⟩

lemma safely_newDataView (buffer : ObjectRef) (byteOffset byteLength : Nat) :
    h.Safely (h.newDataView buffer byteOffset byteLength).2 ∧
    ∀ r, (h.newDataView buffer byteOffset byteLength).1 = some r →
      (h.newDataView buffer byteOffset byteLength).2.Innermost r := by
  unfold newDataView
  split
  · exact ⟨.refl h, by simp⟩
  · rename_i bytes hc
    split
    · exact ⟨.refl h, by simp⟩
    · split
      · refine ⟨h.safely_allocate_view buffer bytes _ hc rfl, fun r hr => ?_⟩
        exact Option.some.inj hr ▸ h.innermost_allocate _
      · exact ⟨.refl h, by simp⟩

lemma safely_newTemplate (t : Template) (ht : ∀ r, ¬ t.Refers r) : h.Safely (h.newTemplate t).2 := by
  have hadd := h.safely_addTemplate t fun r hr => absurd hr (ht r)
  unfold newTemplate
  split
  · split
    · exact hadd
    · exact .refl h
  · exact hadd

variable (hs : h.Sound)

include hs

lemma safely_addAccessor (r : TemplateRef) (name : String) (getter setter : Option CallbackData) :
    h.Safely (h.addAccessor r name getter setter).2 := by
  unfold addAccessor
  split
  · exact h.safely_modifyTemplate r _ fun t ht _ hr => hs.live_of_template ht hr
  · exact .refl h

lemma safely_addMethod (r : TemplateRef) (name : String) (data : CallbackData) :
    h.Safely (h.addMethod r name data).2 := by
  unfold addMethod
  split
  · exact h.safely_modifyTemplate r _ fun t ht _ hr => hs.live_of_template ht hr
  · exact .refl h

lemma safely_installMethods (prototype : HeapObject) (methods : List (String × CallbackData))
    (hp : ∀ r, prototype.Refers r → h.Live r) :
    h.Safely (h.installMethods prototype methods).2 ∧
    ∀ r, (h.installMethods prototype methods).1.Refers r →
      (h.installMethods prototype methods).2.Live r := by
  induction methods generalizing h prototype with
  | nil => exact ⟨.refl h, hp⟩
  | cons method rest ih =>
    obtain ⟨name, data⟩ := method
    have hstep := h.safely_allocate (functionObject (.native data) name) fun r hr =>
      absurd hr (functionObject_refers _ _ r)
    have hsound := hstep.sound hs
    have hmethod := hsound.live_of_innermost (h.innermost_allocate (functionObject (.native data) name))
    obtain ⟨hrest, hlive⟩ := ih (h.allocate (functionObject (.native data) name)).2 hsound
      (prototype.define (.ofName name) (.object (h.allocate (functionObject (.native data) name)).1) false)
      (by
        intro r hr
        rcases HeapObject.refers_define _ _ _ _ r hr with hr | hr
        · exact hstep.live (hp r hr)
        · exact Value.object.inj hr ▸ hmethod)
    exact ⟨hstep.trans hrest, hlive⟩

lemma safely_build (r : TemplateRef) (t : Template) (parent : Option ObjectRef)
    (hparent : ∀ p, parent = some p → h.Live p) :
    h.Safely (h.build r t parent).2 ∧ (h.build r t parent).2.Live (h.build r t parent).1.1 ∧
    (h.build r t parent).2.Live (h.build r t parent).1.2 := by
  unfold build
  dsimp only
  generalize hbare : ({ body := .plain, prototype := parent, properties := _ } : HeapObject) = bare
  have hrefers : ∀ p, bare.Refers p → h.Live p := by
    intro p hp
    subst hbare
    rw [← HeapObject.mem_references] at hp
    simp only [HeapObject.references, Body.references, List.append_nil, List.mem_append,
      List.mem_flatMap, List.mem_map, Option.mem_toList] at hp
    rcases hp with ⟨q, ⟨a, -, rfl⟩, hp⟩ | hp
    · simp at hp
    · exact hparent p hp
  obtain ⟨hmethods, hobject⟩ := h.safely_installMethods hs bare t.methods hrefers
  generalize h.installMethods bare t.methods = installed at hmethods hobject ⊢
  -- The prototype, then the function that has it as a property.
  have hproto := installed.2.safely_allocate installed.1 hobject
  have hinner := installed.2.innermost_allocate installed.1
  have hsound := (hmethods.trans hproto).sound hs
  generalize installed.2.allocate installed.1 = prototype at hproto hinner hsound ⊢
  have hfun := prototype.2.safely_allocate
    ((functionObject (.template r) (t.className.getD "")).defineHidden "prototype"
      (.object prototype.1)) (by
        intro p hp
        rcases HeapObject.refers_define _ _ _ _ p hp with hp | hp
        · exact absurd hp (functionObject_refers _ _ p)
        · exact Value.object.inj hp ▸ hsound.live_of_innermost hinner)
  have hinner' := prototype.2.innermost_allocate
    ((functionObject (.template r) (t.className.getD "")).defineHidden "prototype"
      (.object prototype.1))
  have hsound' := hfun.sound hsound
  generalize prototype.2.allocate _ = function at hfun hinner' hsound' ⊢
  have hlive := hsound'.live_of_innermost hinner'
  have hlink := function.2.safely_define hsound' prototype.1 (.name "constructor") (.object function.1)
    false fun p hp => Value.object.inj hp ▸ hlive
  have hkeep := (hfun.trans hlink).live (hsound.live_of_innermost hinner)
  have hlast := safely_modifyTemplate (function.2.modifyObject prototype.1
    (·.defineHidden "constructor" (.object function.1))) r
    ({ · with function := some function.1, prototype := some prototype.1 }) (by
      intro _ _ p hp
      rcases hp with hp | hp
      · exact Option.some.inj hp ▸ hlink.live hlive
      · exact Option.some.inj hp ▸ hkeep)
  exact ⟨((hmethods.trans hproto).trans hfun).trans (hlink.trans hlast),
    (hlink.trans hlast).live hlive, hlast.live hkeep⟩

lemma safely_instantiateWithin (steps : Nat) (r : TemplateRef) :
    h.Safely (instantiateWithin steps h r).2 ∧
    ∀ function prototype, (instantiateWithin steps h r).1 = some (function, prototype) →
      (instantiateWithin steps h r).2.Live function ∧
      (instantiateWithin steps h r).2.Live prototype := by
  induction steps generalizing h r with
  | zero => exact ⟨.refl h, by simp [instantiateWithin]⟩
  | succ steps ih =>
    unfold instantiateWithin
    split
    · exact ⟨.refl h, by simp⟩
    · rename_i t ht
      split
      · rename_i function prototype hfunction hprototype
        refine ⟨.refl h, fun f p hfp => ?_⟩
        obtain ⟨rfl, rfl⟩ := Prod.mk.inj (Option.some.inj hfp)
        exact ⟨hs.live_of_template ht (.inl hfunction), hs.live_of_template ht (.inr hprototype)⟩
      · split
        · obtain ⟨hbuild, hf, hp⟩ := h.safely_build hs r t none (by simp)
          refine ⟨hbuild, fun f p hfp => ?_⟩
          obtain ⟨hf', hp'⟩ := Prod.mk.inj (Option.some.inj hfp)
          exact ⟨hf' ▸ hf, hp' ▸ hp⟩
        · rename_i parent _
          obtain ⟨hparent, hlive⟩ := ih h hs parent
          split <;> rename_i heq <;> rw [heq] at hparent hlive
          · exact ⟨hparent, by simp⟩
          · rename_i inherited middle
            obtain ⟨hbuild, hf, hp⟩ := safely_build middle (hparent.sound hs) r t (some inherited)
              fun p hp => Option.some.inj hp ▸ (hlive _ _ rfl).2
            refine ⟨hparent.trans hbuild, fun f p hfp => ?_⟩
            obtain ⟨hf', hp'⟩ := Prod.mk.inj (Option.some.inj hfp)
            exact ⟨hf' ▸ hf, hp' ▸ hp⟩

lemma safely_templateFunction (r : TemplateRef) :
    h.Safely (h.templateFunction r).2 ∧
    ∀ function, (h.templateFunction r).1 = some function →
      (h.templateFunction r).2.Innermost function := by
  obtain ⟨hi, hlive⟩ := h.safely_instantiateWithin hs (h.templates.slots.size + 1) r
  unfold templateFunction instantiate
  split <;> rename_i heq <;> rw [heq] at hi hlive
  · exact ⟨hi, by simp⟩
  · refine ⟨hi.trans (safely_root _ _ (hlive _ _ rfl).1), fun f hf => ?_⟩
    exact Option.some.inj hf ▸ innermost_root _ _

lemma safely_newInstance (r : TemplateRef) :
    h.Safely (h.newInstance r).2 ∧
    ∀ s, (h.newInstance r).1 = some s → (h.newInstance r).2.Innermost s := by
  obtain ⟨hi, hlive⟩ := h.safely_instantiateWithin hs (h.templates.slots.size + 1) r
  unfold newInstance instantiate
  split <;> rename_i heq <;> rw [heq] at hi hlive
  · exact ⟨hi, by simp⟩
  · split
    · exact ⟨hi, by simp⟩
    · refine ⟨hi.trans (safely_allocate _ _ fun p hp => ?_), fun s hs => ?_⟩
      · rw [← HeapObject.mem_references] at hp
        simp only [HeapObject.references, Body.references, List.flatMap_nil, List.nil_append,
          List.append_nil, Option.mem_toList, Option.some.injEq] at hp
        exact hp ▸ (hlive _ _ rfl).2
      · exact Option.some.inj hs ▸ innermost_allocate _ _

end Functions

section Settlement

variable (h : Heap) (hs : h.Sound)

include hs

section

variable (s : ObjectRef)

lemma live_of_promise? (p : Promise) (hp : h.promise? s = some p) (r : ObjectRef)
    (hr : r ∈ p.references) : h.Live r := by
  obtain ⟨o, ho, hb⟩ := h.promise?_eq_some s p hp
  exact hs.live_of_refers ho (o.refers_of_mem_body r (by rwa [hb]))

lemma safely_setPromise (p : Promise) (hp : ∀ r ∈ p.references, h.Live r) :
    h.Safely (h.setPromise s p) :=
  h.safely_withBody hs s (.promise p) hp

lemma safely_settle (state : PromiseState) (value : Value) (hv : h.LiveValue value) :
    h.Safely (h.settle s state value) := by
  unfold settle
  split
  · exact .refl h
  · rename_i promise hp
    have hlive := h.live_of_promise? hs s promise hp
    have hreaction : ∀ x ∈ promise.reactions, ∀ r, x.Refers r → h.Live r := fun x hx r hr =>
      hlive r ((promise.mem_references r).mpr (.inr ⟨x, hx, hr⟩))
    dsimp only [Promise.settle]
    split
    · exact (h.safely_setPromise hs s _ hlive).trans (safely_enqueue _ _ (by simp))
    · have hset : h.Safely (h.setPromise s { promise with state, result := value, reactions := [] }) := by
        refine h.safely_setPromise hs s _ fun r hr => ?_
        rcases (Promise.mem_references _ r).mp hr with hr | ⟨x, hx, -⟩
        · exact hv r hr
        · simp at hx
      refine hset.trans (safely_enqueue _ _ fun job hj r hr => hset.live ?_)
      obtain ⟨x, hx, rfl⟩ := List.mem_map.mp hj
      rcases (Job.mem_references _ r).mp hr with hr | hr
      · exact hreaction x hx r hr
      · exact hv r hr

lemma safely_react (promise : Promise) (reaction : Reaction)
    (hp : ∀ r ∈ promise.references, h.Live r) (hx : ∀ r, reaction.Refers r → h.Live r) :
    h.Safely (h.react s promise reaction) := by
  unfold react
  dsimp only [Promise.react]
  split
  · refine (h.safely_setPromise hs s _ fun r hr => ?_).trans (safely_enqueue _ _ (by simp))
    rcases (Promise.mem_references _ r).mp hr with hr | ⟨x, hmem, hr⟩
    · exact hp r ((promise.mem_references r).mpr (.inl hr))
    · rcases List.mem_append.mp hmem with hmem | hmem
      · exact hp r ((promise.mem_references r).mpr (.inr ⟨x, hmem, hr⟩))
      · exact hx r (List.mem_singleton.mp hmem ▸ hr)
  · have hset : h.Safely (h.setPromise s { promise with handled := promise.handled || true }) :=
      h.safely_setPromise hs s _ hp
    refine hset.trans (safely_enqueue _ _ fun job hj r hr => hset.live ?_)
    obtain rfl := List.mem_singleton.mp hj
    rcases (Job.mem_references _ r).mp hr with hr | hr
    · exact hx r hr
    · exact hp r ((promise.mem_references r).mpr (.inl hr))

-- The promise that follows another must be there too, since the other one comes to hold it.
lemma safely_fulfil (value : Value) (hlive : h.Live s) (hv : h.LiveValue value) :
    h.Safely (h.fulfil s value) := by
  unfold fulfil
  split
  · split
    · have herror := h.safely_newError .typeError "promise resolved with itself"
      have hsound := herror.sound hs
      exact herror.trans (safely_settle _ hsound _ _ _ fun r hr =>
        hsound.live_of_innermost (h.innermost_newError _ _ r hr))
    · split
      · rename_i promise hp
        refine h.safely_react hs _ promise _ (h.live_of_promise? hs _ promise hp) fun r hr => ?_
        rcases hr with ⟨_, hr⟩ | ⟨_, hr⟩ | _
        · cases hr
        · cases hr
        · exact hlive
      · exact h.safely_settle hs _ _ _ hv
  · exact h.safely_settle hs _ _ _ hv

omit hs in
lemma safely_newPromise : h.Safely h.newPromise.2 :=
  h.safely_allocate_ofBody _ (by simp [Body.references, Promise.references, Promise.held, Value.references,
    Value.object?])

lemma safely_newResolver : h.Safely h.newResolver.2 := by
  have hpromise := h.safely_newPromise
  have hlive := (hpromise.sound hs).live_of_innermost (h.innermost_allocate (.ofBody (.promise {})))
  refine hpromise.trans (safely_allocate_ofBody _ _ fun r hr => ?_)
  exact List.mem_singleton.mp hr ▸ hlive

lemma safely_resolverPromise :
    h.Safely (h.resolverPromise s).2 ∧
    ∀ r, (h.resolverPromise s).1 = some r → (h.resolverPromise s).2.Innermost r := by
  unfold resolverPromise
  split
  · rename_i promise hb
    obtain ⟨o, ho, hbody⟩ := Option.map_eq_some_iff.mp hb
    refine ⟨h.safely_root promise (hs.live_of_refers ho (.resolver promise hbody)), fun r hr => ?_⟩
    exact Option.some.inj hr ▸ h.innermost_root promise
  · exact ⟨.refl h, by simp⟩

lemma safely_lockResolver :
    h.Safely (h.lockResolver s).2 ∧
    ∀ r, (h.lockResolver s).1 = some r → (h.lockResolver s).2.Live r := by
  obtain ⟨hr, hinner⟩ := h.safely_resolverPromise hs s
  unfold lockResolver
  split <;> rename_i heq <;> rw [heq] at hr hinner
  · exact ⟨hr, by simp⟩
  · rename_i target middle
    have hsound := hr.sound hs
    split
    · rename_i promise hp
      split
      · have hset := safely_setPromise middle hsound target { promise with locked := true }
          (live_of_promise? middle hsound target promise hp)
        refine ⟨hr.trans hset, fun r hsome => ?_⟩
        exact Option.some.inj hsome ▸ hset.live (hsound.live_of_innermost (hinner target rfl))
      · exact ⟨hr, by simp⟩
    · exact ⟨hr, by simp⟩

lemma safely_resolve (value : Value) (hv : h.LiveValue value) : h.Safely (h.resolve s value).2 := by
  obtain ⟨hl, hlive⟩ := h.safely_lockResolver hs s
  unfold resolve
  split <;> rename_i heq <;> rw [heq] at hl hlive
  · exact hl.trans (safely_fulfil _ (hl.sound hs) _ _ (hlive _ rfl) (hl.liveValue hv))
  · exact hl

lemma safely_reject (value : Value) (hv : h.LiveValue value) : h.Safely (h.reject s value).2 := by
  obtain ⟨hl, -⟩ := h.safely_lockResolver hs s
  unfold reject
  split <;> rename_i heq <;> rw [heq] at hl
  · exact hl.trans (safely_settle _ (hl.sound hs) _ _ _ (hl.liveValue hv))
  · exact hl

lemma safely_thenPromise (onFulfilled onRejected : Option ObjectRef)
    (hf : ∀ r, onFulfilled = some r → h.Live r) (hr : ∀ r, onRejected = some r → h.Live r) :
    h.Safely (h.thenPromise s onFulfilled onRejected).2 := by
  unfold thenPromise
  split
  · exact .refl h
  · rename_i promise hp
    have hnew := h.safely_newPromise
    have hsound := hnew.sound hs
    refine hnew.trans (safely_react _ hsound s promise _ (fun r hmem => ?_) fun r hrefers => ?_)
    · exact hnew.live (h.live_of_promise? hs s promise hp r hmem)
    · rcases hrefers with ⟨_, hsome⟩ | ⟨_, hsome⟩ | _
      · exact hnew.live (hf r hsome)
      · exact hnew.live (hr r hsome)
      · exact hsound.live_of_innermost (h.innermost_allocate (.ofBody (.promise {})))

end

omit hs in
lemma safely_roots (refs : List ObjectRef) (hrefs : ∀ r ∈ refs, h.Live r) :
    h.Safely (refs.foldl root h) ∧ ∀ r ∈ refs, (refs.foldl root h).Innermost r := by
  induction refs generalizing h with
  | nil => exact ⟨.refl h, by simp⟩
  | cons first rest ih =>
    have hfirst := h.safely_root first (hrefs first List.mem_cons_self)
    obtain ⟨hrest, hinner⟩ := ih (h.root first) fun r hr =>
      hfirst.live (hrefs r (List.mem_cons_of_mem _ hr))
    refine ⟨hfirst.trans hrest, fun r hr => ?_⟩
    rcases List.mem_cons.mp hr with rfl | hr
    · exact hrest.opens.innermost (h.innermost_root r)
    · exact hinner r hr

-- What a job refers to was kept by the queue and is kept by the innermost scope from now on.
lemma safely_nextJob (job : Job) (h' : Heap) (hj : h.nextJob = some (job, h')) :
    h.Safely h' ∧ ∀ r ∈ job.references, h'.Innermost r := by
  unfold nextJob at hj
  split at hj
  · cases hj
  · rename_i first rest hjobs
    obtain ⟨rfl, rfl⟩ := Prod.mk.inj (Option.some.inj hj)
    have hstep : h.Safely { h with jobs := h.jobs.tail } := .op .dequeue trivial
    rw [hjobs] at hstep
    obtain ⟨hroots, hinner⟩ := safely_roots { h with jobs := rest } first.references fun r hr =>
      hstep.live fun hroom => (hs.intact hroom).job first (by simp [hjobs]) r hr
    exact ⟨hstep.trans hroots, hinner⟩

end Settlement

mutual

lemma safely_ofDocument (h : Heap) (hs : h.Sound) (d : Document) :
    h.Safely (ofDocument h d).2 ∧
    ∀ r, (ofDocument h d).1 = .object r → (ofDocument h d).2.Innermost r := by
  cases d with
  | array items =>
    obtain ⟨hitems, hlive⟩ := safely_ofItems h hs items
    refine ⟨hitems.trans (safely_allocate_ofBody _ _ fun r hr => ?_), fun r hr => ?_⟩
    · simp only [Body.references, List.mem_flatMap, Value.mem_references,
        exists_eq_right] at hr
      exact hlive _ hr r rfl
    · exact Value.object.inj hr ▸ innermost_allocate _ _
  | object entries =>
    obtain ⟨hentries, hlive⟩ := safely_ofEntries h hs (.ofBody .plain) entries (by
      simp [HeapObject.refers_ofBody, Body.references])
    exact ⟨hentries.trans (safely_allocate _ _ hlive),
      fun r hr => Value.object.inj hr ▸ innermost_allocate _ _⟩
  | null | boolean | float | text => exact ⟨.refl h, by simp [ofDocument, numberValue, Value.text]⟩
  | integer n =>
    refine ⟨.refl h, ?_⟩
    simp only [ofDocument, numberValue, Value.ofInt]
    split <;> simp

lemma safely_ofItems (h : Heap) (hs : h.Sound) (items : List Document) :
    h.Safely (ofItems h items).2 ∧ ∀ v ∈ (ofItems h items).1, (ofItems h items).2.LiveValue v := by
  cases items with
  | nil => exact ⟨.refl h, by simp [ofItems]⟩
  | cons item rest =>
    obtain ⟨hfirst, hinner⟩ := safely_ofDocument h hs item
    obtain ⟨hrest, hlive⟩ := safely_ofItems (ofDocument h item).2 (hfirst.sound hs) rest
    refine ⟨hfirst.trans hrest, fun v hv => ?_⟩
    rcases List.mem_cons.mp hv with rfl | hv
    · exact fun r hr => hrest.live ((hfirst.sound hs).live_of_innermost (hinner r hr))
    · exact hlive v hv

lemma safely_ofEntries (h : Heap) (hs : h.Sound) (object : HeapObject)
    (entries : List (String × Document)) (ho : ∀ r, object.Refers r → h.Live r) :
    h.Safely (ofEntries h object entries).2 ∧
    ∀ r, (ofEntries h object entries).1.Refers r → (ofEntries h object entries).2.Live r := by
  cases entries with
  | nil => exact ⟨.refl h, ho⟩
  | cons entry rest =>
    obtain ⟨hfirst, hinner⟩ := safely_ofDocument h hs entry.2
    have hsound := hfirst.sound hs
    obtain ⟨hrest, hlive⟩ := safely_ofEntries (ofDocument h entry.2).2 hsound
      (object.define (.ofName entry.1) (ofDocument h entry.2).1 true) rest (by
        intro r hr
        rcases HeapObject.refers_define _ _ _ _ r hr with hr | hr
        · exact hfirst.live (ho r hr)
        · exact hsound.live_of_innermost (hinner r hr))
    exact ⟨hfirst.trans hrest, hlive⟩

end

def resultValue : Except Throw Value → Value
  | .ok value => value
  | .error thrown => thrown.value

lemma safely_execute (h : Heap) (hs : h.Sound) (source : Units) (resource : String)
    (startLine : Int) :
    h.Safely (h.execute source resource startLine).2 ∧
    ∀ r, resultValue (h.execute source resource startLine).1 = .object r →
      (h.execute source resource startLine).2.Innermost r := by
  unfold execute
  split
  · exact safely_ofDocument h hs _
  · exact ⟨h.safely_newError _ _, h.innermost_newError _ _⟩

end Heap

end HostBoundary
