import HostBoundary.Heap.ClassTemplate
import HostBoundary.Heap.Convert
import HostBoundary.Heap.Evaluate
import HostBoundary.Heap.Property
import HostBoundary.Heap.Settlement
import HostBoundary.Heap.View
import HostBoundary.Proofs.History

namespace HostBoundary

variable {o o' : HeapObject}

namespace HeapObject

def function? (o : HeapObject) : Option FunctionBody :=
  match o.body with
  | .function f => some f
  | _ => none

-- What calling an object runs stays as it is. An accessor can be replaced by a value, but no
-- accessor appears.
structure Faithful (o o' : HeapObject) : Prop where
  function : o'.function? = o.function?
  accessor : ∀ key enumerable getter setter,
    o'.own? key = some ⟨key, .accessor getter setter, enumerable⟩ →
    o.own? key = some ⟨key, .accessor getter setter, enumerable⟩

namespace Faithful

lemma refl (o : HeapObject) : Faithful o o := ⟨rfl, fun _ _ _ _ h => h⟩

lemma trans {a b c : HeapObject} (hab : Faithful a b) (hbc : Faithful b c) : Faithful a c :=
  ⟨hbc.function.trans hab.function, fun key e g s h => hab.accessor key e g s (hbc.accessor key e g s h)⟩

lemma of_properties (hp : o'.properties = o.properties) (hf : o'.function? = o.function?) :
    Faithful o o' :=
  ⟨hf, fun key e g s h => by simpa [own?, hp] using h⟩

end Faithful

-- What an object is for those who call it, or wait for it to settle.
inductive Role where
  | function (f : FunctionBody)
  | promise (p : Promise)
  | resolver (target : ObjectRef)
  | other

def role (o : HeapObject) : Role :=
  match o.body with
  | .function f => .function f
  | .promise p => .promise p
  | .resolver target => .resolver target
  | _ => .other

def Role.function? : Role → Option FunctionBody
  | .function f => some f
  | _ => none

def Role.settles : Role → Bool
  | .promise _ | .resolver _ => true
  | _ => false

lemma function?_eq_role (o : HeapObject) : o.function? = o.role.function? := by
  unfold function? role
  cases o.body <;> rfl

-- A change that leaves more alone: promises do not settle by it either.
structure Calm (o o' : HeapObject) : Prop where
  role : o'.role = o.role
  accessor : ∀ key enumerable getter setter,
    o'.own? key = some ⟨key, .accessor getter setter, enumerable⟩ →
    o.own? key = some ⟨key, .accessor getter setter, enumerable⟩

namespace Calm

lemma refl (o : HeapObject) : Calm o o := ⟨rfl, fun _ _ _ _ h => h⟩

lemma faithful (h : Calm o o') : Faithful o o' where
  function := by rw [function?_eq_role, function?_eq_role, h.role]
  accessor := h.accessor

lemma of_properties (hp : o'.properties = o.properties) (hr : o'.role = o.role) : Calm o o' :=
  ⟨hr, fun key e g s h => by simpa [own?, hp] using h⟩

end Calm

lemma find?_defineIn (key other : Key) (value : Value) (enumerable : Bool)
    (properties : List Property) (p : Property) (hp : ∀ v, p.slot ≠ .data v)
    (h : (defineIn key value enumerable properties).find? (·.key = other) = some p) :
    properties.find? (·.key = other) = some p := by
  induction properties with
  | nil =>
    simp only [defineIn, List.find?_cons, List.find?_nil] at h
    split at h
    · exact absurd (congrArg Property.slot (Option.some.inj h)).symm (hp value)
    · cases h
  | cons q rest ih =>
    simp only [defineIn] at h
    by_cases hq : q.key = key
    · rw [if_pos hq, List.find?_cons] at h
      rw [List.find?_cons]
      by_cases ho : q.key = other
      · simp only [ho, decide_true] at h
        exact absurd (congrArg Property.slot (Option.some.inj h)).symm (hp value)
      · simpa [ho] using h
    · rw [if_neg hq, List.find?_cons] at h
      rw [List.find?_cons]
      by_cases ho : q.key = other
      · simpa [ho] using h
      · simp only [ho, decide_false] at h ⊢
        exact ih h

lemma mem_defineIn (key : Key) (value : Value) (enumerable : Bool) (properties : List Property)
    (p : Property) (hp : p ∈ defineIn key value enumerable properties) :
    p ∈ properties ∨ p.slot = .data value := by
  induction properties with
  | nil =>
    rw [defineIn, List.mem_singleton] at hp
    exact .inr (by rw [hp])
  | cons q rest ih =>
    rw [defineIn] at hp
    split at hp
    · rcases List.mem_cons.mp hp with rfl | hp
      · exact .inr rfl
      · exact .inl (List.mem_cons_of_mem _ hp)
    · rcases List.mem_cons.mp hp with rfl | hp
      · exact .inl List.mem_cons_self
      · exact (ih hp).imp_left (List.mem_cons_of_mem _)

lemma calm_define (o : HeapObject) (key : Key) (value : Value) (enumerable : Bool) :
    Calm o (o.define key value enumerable) where
  role := rfl
  accessor _ _ _ _ h := find?_defineIn _ _ _ _ _ _ (fun _ => by simp) h

-- What is to be given back for an object when it goes: the hook for it, and where the memory is and
-- how much.
def charge (o : HeapObject) : Option (ReleaseHook × Pointer × Nat) :=
  (Heap.releaseOf o).map fun (hook, memory) => (hook, memory.address, memory.bytes.size)

-- The words that an object keeps for native code stay, and what is to be given back for it.
structure Spares (o o' : HeapObject) : Prop where
  fields : o'.fields = o.fields
  charge : o'.charge = o.charge

lemma Spares.refl (o : HeapObject) : o.Spares o := ⟨rfl, rfl⟩

lemma spares_withBytes {backing : Backing} (hb : o.body = .arrayBuffer backing)
    {bytes : Array UInt8} (hsize : bytes.size = backing.bytes.size) :
    o.Spares { o with body := .arrayBuffer (backing.withBytes bytes) } := by
  refine ⟨rfl, ?_⟩
  unfold charge Heap.releaseOf
  rw [hb]
  cases backing with
  | owned _ => rfl
  | external memory release =>
    cases release with
    | none => rfl
    | some hook =>
      have hsame : bytes.size = memory.bytes.size := hsize
      simp [Backing.withBytes, Backing.release?, hsame]

end HeapObject

namespace Heap

lemma size_write (bytes : List (UInt8 × Nat)) (start : Nat) (all : Array UInt8) :
    (bytes.foldl (fun all (byte, i) => all.setIfInBounds (start + i) byte) all).size = all.size := by
  induction bytes generalizing all with
  | nil => rfl
  | cons first rest ih =>
    rw [List.foldl_cons, ih]
    exact Array.size_setIfInBounds

-- An operation that does not change what is called: the objects and templates it changes
-- keep their callbacks.
def Operation.Mild (h : Heap) : Operation → Prop
  | .mutate r change => ∀ o, h.object? r = some o → o.Faithful (change o)
  | .mutateTemplate r change => ∀ t, h.template? r = some t → (change t).constructor = t.constructor
  | _ => True

def Leads : Heap → Heap → Prop :=
  Relation.ReflTransGen fun h h' => ∃ op : Operation, op.Mild h ∧ (h.apply op).2 = h'

@[simp] lemma root_limits (h : Heap) (r : ObjectRef) : (h.root r).limits = h.limits := by
  unfold root
  split <;> rfl

lemma apply_limits (h : Heap) (op : Operation) : (h.apply op).2.limits = h.limits := by
  cases op with
  | allocate | root => simp [apply, allocate]
  | pushScope =>
    simp only [apply, pushScope]
    split <;> rfl
  | popScope | persist | target | weaken =>
    simp only [apply, popScope, persist, target, weaken, Prod.map_snd, id]
    repeat' split
    all_goals simp
  | collect => simp [apply, collect_eq]
  | _ => rfl

namespace Leads

variable {h h' h'' : Heap}

lemma refl (h : Heap) : h.Leads h := Relation.ReflTransGen.refl

lemma trans (hab : h.Leads h') (hbc : h'.Leads h'') : h.Leads h'' :=
  Relation.ReflTransGen.trans hab hbc

lemma limits (hl : h.Leads h') : h'.limits = h.limits := by
  induction hl with
  | refl => rfl
  | tail _ hstep ih =>
    obtain ⟨op, -, rfl⟩ := hstep
    exact (apply_limits _ op).trans ih

lemma op (op : Operation) (hm : op.Mild h) : h.Leads (h.apply op).2 := .single ⟨op, hm, rfl⟩

lemma exists_after (hl : h.Leads h') : ∃ ops, h.after ops = h' := by
  induction hl with
  | refl => exact ⟨[], rfl⟩
  | tail _ hstep ih =>
    obtain ⟨ops, rfl⟩ := ih
    obtain ⟨op, -, rfl⟩ := hstep
    exact ⟨ops ++ [op], after_append h ops [op]⟩

end Leads

-- An operation that has nothing to do with promises, jobs or the nesting of scopes.
def Operation.Quiet (h : Heap) : Operation → Prop
  | .allocate o => o.role.settles = false
  | .mutate r change => ∀ o, h.object? r = some o → o.Calm (change o)
  | .mutateTemplate r change => ∀ t, h.template? r = some t → (change t).constructor = t.constructor
  | .pushScope | .popScope | .enqueue _ | .dequeue | .setGlobal _ => False
  | _ => True

lemma Operation.Quiet.mild {h : Heap} {op : Operation} (hq : op.Quiet h) : op.Mild h := by
  cases op with
  | mutate r change => exact fun o ho => (hq o ho).faithful
  | mutateTemplate r change => exact hq
  | _ => trivial

def Quietly : Heap → Heap → Prop :=
  Relation.ReflTransGen fun h h' => ∃ op : Operation, op.Quiet h ∧ (h.apply op).2 = h'

namespace Quietly

variable {h h' h'' : Heap}

lemma refl (h : Heap) : h.Quietly h := Relation.ReflTransGen.refl

lemma trans (hab : h.Quietly h') (hbc : h'.Quietly h'') : h.Quietly h'' :=
  Relation.ReflTransGen.trans hab hbc

lemma op (op : Operation) (hq : op.Quiet h) : h.Quietly (h.apply op).2 := .single ⟨op, hq, rfl⟩

lemma leads (hl : h.Quietly h') : h.Leads h' :=
  Relation.ReflTransGen.mono (fun _ _ ⟨op, hq, heq⟩ => ⟨op, hq.mild, heq⟩) _ _ hl

end Quietly

-- A slot that is weak from the start, if the object is there.
def hold (h : Heap) (target : ObjectRef) (hook : Option ReclaimHook) : Option PersistentRef × Heap :=
  match h.persist target with
  | (some slot, h) => (some slot, (h.weaken slot hook).2)
  | (none, h) => (none, h)

-- What is done to a heap in one go: besides the operations, holding an object weakly and setting
-- one of the words that it keeps for native code.
inductive Deed where
  | op (op : Operation)
  | hold (target : ObjectRef) (hook : Option ReclaimHook)
  | assign (r : ObjectRef) (i : FieldIndex) (word : Pointer)

def enact (h : Heap) : Deed → Heap
  | .op op => (h.apply op).2
  | .hold target hook => (h.hold target hook).2
  | .assign r i word => (h.setField r i word).2

-- A mild deed that neither collects nor nests scopes. A slot that it makes has no hook, and nothing
-- has to be given back for an object that it makes.
def Deed.Plain (h : Heap) : Deed → Prop
  | .op (.allocate o) => o.charge = none
  | .op (.mutate r change) => ∀ o, h.object? r = some o →
      o.Faithful (change o) ∧ o.Spares (change o)
  | .op (.mutateTemplate r change) => ∀ t, h.template? r = some t →
      (change t).constructor = t.constructor
  | .op (.pushScope) | .op (.popScope) | .op (.setGlobal _) | .op (.weaken _ _) | .op (.dispose _)
  | .op (.collect) | .op (.drainReleases) | .hold _ (some _) => False
  | _ => True

def Deed.Quiet (h : Heap) : Deed → Prop
  | .op operation => operation.Quiet h
  | _ => True

def Plainly : Heap → Heap → Prop :=
  Relation.ReflTransGen fun h h' => ∃ d : Deed, d.Plain h ∧ h.enact d = h'

def Discreetly : Heap → Heap → Prop :=
  Relation.ReflTransGen fun h h' => ∃ d : Deed, d.Plain h ∧ d.Quiet h ∧ h.enact d = h'

section Deeds

variable (h : Heap)

lemma quietly_weaken (slot : PersistentRef) (hook : Option ReclaimHook) :
    h.Quietly (h.weaken slot hook).2 := .op (.weaken slot hook) trivial

lemma quietly_dispose (slot : PersistentRef) : h.Quietly (h.dispose slot).2 :=
  .op (.dispose slot) trivial

lemma quietly_releaseHandle (handle : Handle) : h.Quietly (h.releaseHandle handle).2 := by
  cases handle with
  | transient target => exact .refl h
  | persistent slot => exact h.quietly_dispose slot

lemma quietly_hold (target : ObjectRef) (hook : Option ReclaimHook) :
    h.Quietly (h.hold target hook).2 := by
  have hp : h.Quietly (h.persist target).2 := .op (.persist target) trivial
  unfold hold
  split <;> rename_i heq <;> rw [heq] at hp
  · exact hp.trans (quietly_weaken _ _ _)
  · exact hp

lemma quietly_setField (r : ObjectRef) (i : FieldIndex) (word : Pointer) :
    h.Quietly (h.setField r i word).2 := by
  unfold setField
  split
  · exact .op (.mutate r _) fun o _ => .of_properties rfl rfl
  · exact .refl h

end Deeds

namespace Deed

variable {h : Heap} {d : Deed}

lemma Quiet.quietly (hq : d.Quiet h) : h.Quietly (h.enact d) := by
  cases d with
  | op op => exact .op op hq
  | hold target hook => exact h.quietly_hold target hook
  | assign r i word => exact h.quietly_setField r i word

lemma Plain.leads (hp : d.Plain h) : h.Leads (h.enact d) := by
  cases d with
  | op op =>
    refine .op op ?_
    cases op with
    | mutate r change => exact fun o ho => (hp o ho).1
    | mutateTemplate r change => exact hp
    | _ => trivial
  | hold target hook => exact (h.quietly_hold target hook).leads
  | assign r i word => exact (h.quietly_setField r i word).leads

end Deed

namespace Plainly

variable {h h' h'' : Heap}

lemma refl (h : Heap) : h.Plainly h := Relation.ReflTransGen.refl

lemma trans (hab : h.Plainly h') (hbc : h'.Plainly h'') : h.Plainly h'' :=
  Relation.ReflTransGen.trans hab hbc

lemma op (op : Operation) (hp : (Deed.op op).Plain h) : h.Plainly (h.apply op).2 :=
  .single ⟨.op op, hp, rfl⟩

lemma leads (hl : h.Plainly h') : h.Leads h' := by
  induction hl with
  | refl => exact .refl h
  | tail _ hstep ih =>
    obtain ⟨d, hp, rfl⟩ := hstep
    exact ih.trans hp.leads

end Plainly

namespace Discreetly

variable {h h' h'' : Heap}

lemma refl (h : Heap) : h.Discreetly h := Relation.ReflTransGen.refl

lemma trans (hab : h.Discreetly h') (hbc : h'.Discreetly h'') : h.Discreetly h'' :=
  Relation.ReflTransGen.trans hab hbc

lemma deed (d : Deed) (hp : d.Plain h) (hq : d.Quiet h) : h.Discreetly (h.enact d) :=
  .single ⟨d, hp, hq, rfl⟩

lemma op (op : Operation) (hp : (Deed.op op).Plain h) (hq : op.Quiet h) :
    h.Discreetly (h.apply op).2 := .deed (.op op) hp hq

variable (hl : h.Discreetly h')

include hl

lemma plainly : h.Plainly h' :=
  Relation.ReflTransGen.mono (fun _ _ ⟨d, hp, _, heq⟩ => ⟨d, hp, heq⟩) _ _ hl

lemma quietly : h.Quietly h' := by
  induction hl with
  | refl => exact .refl h
  | tail _ hstep ih =>
    obtain ⟨d, -, hq, rfl⟩ := hstep
    exact ih.trans hq.quietly

lemma leads : h.Leads h' := hl.plainly.leads

end Discreetly

section Functions

variable (h : Heap)

section

variable (o : HeapObject)

lemma plainly_allocate (hc : o.charge = none) : h.Plainly (h.allocate o).2 :=
  .op (.allocate o) hc

lemma leads_allocate : h.Leads (h.allocate o).2 := .op (.allocate o) trivial

lemma quietly_allocate (ho : o.role.settles = false) :
    h.Quietly (h.allocate o).2 := .op (.allocate o) ho

lemma leads_fresh (limits : HeapLimits) : (initial limits).Leads (fresh limits) :=
  ((initial limits).leads_allocate _).trans (.op (.setGlobal _) trivial)

lemma discreetly_allocate (hc : o.charge = none) (ho : o.role.settles = false) :
    h.Discreetly (h.allocate o).2 := .op (.allocate o) hc ho

end

lemma discreetly_root (r : ObjectRef) : h.Discreetly (h.root r) :=
  .op (.root r) trivial trivial

lemma discreetly_modifyObject (r : ObjectRef) (f : HeapObject → HeapObject)
    (hf : ∀ o, h.object? r = some o → o.Calm (f o) ∧ o.Spares (f o)) :
    h.Discreetly (h.modifyObject r f) :=
  .op (.mutate r f) (fun o ho => ⟨(hf o ho).1.faithful, (hf o ho).2⟩) fun o ho => (hf o ho).1

lemma discreetly_target (slot : PersistentRef) : h.Discreetly (h.target slot).2 :=
  .op (.target slot) trivial trivial

lemma discreetly_persist (r : ObjectRef) : h.Discreetly (h.persist r).2 :=
  .op (.persist r) trivial trivial

lemma discreetly_hold (target : ObjectRef) : h.Discreetly (h.hold target none).2 :=
  .deed (.hold target none) trivial trivial

lemma plainly_enqueue (jobs : List Job) : h.Plainly (h.enqueue jobs) := .op (.enqueue jobs) trivial

lemma discreetly_addTemplate (t : Template) : h.Discreetly (h.addTemplate t).2 :=
  .op (.addTemplate t) trivial trivial

lemma discreetly_discardTemplate (r : TemplateRef) : h.Discreetly (h.discardTemplate r) :=
  .op (.discardTemplate r) trivial trivial

lemma discreetly_modifyTemplate (r : TemplateRef) (f : Template → Template)
    (hf : ∀ t, (f t).constructor = t.constructor) : h.Discreetly (h.modifyTemplate r f) :=
  .op (.mutateTemplate r f) (fun t _ => hf t) fun t _ => hf t

lemma discreetly_setField (r : ObjectRef) (i : FieldIndex) (word : Pointer) :
    h.Discreetly (h.setField r i word).2 := .deed (.assign r i word) trivial trivial

lemma discreetly_storeElement (view : TypedArrayView) (index : Nat) (value : Value) :
    h.Discreetly (h.storeElement view index value) := by
  unfold storeElement
  split
  · exact .refl h
  · refine h.discreetly_modifyObject _ _ fun o _ => ?_
    split
    · rename_i hb
      dsimp only
      split
      · exact ⟨.of_properties rfl (by simp [HeapObject.role, hb]), HeapObject.spares_withBytes hb (size_write _ _ _)⟩
      · exact ⟨.refl o, .refl o⟩
    · exact ⟨.refl o, .refl o⟩

lemma discreetly_storeOwn (r : ObjectRef) (key : Key) (value : Value) (h' : Heap)
    (hs : h.storeOwn r key value = some h') : h.Discreetly h' := by
  unfold storeOwn at hs
  split at hs
  · rw [← Option.some.inj hs]
    exact .refl h
  · rename_i object ho
    -- An array stays one, so it was no function before either.
    have harray : ∀ elements room, object.body = .array elements →
        h.Discreetly (h.modifyObject r ({ · with body := .array room })) := by
      intro elements room hb
      refine h.discreetly_modifyObject r _ fun o hsome => ?_
      obtain rfl : object = o := Option.some.inj (ho.symm.trans hsome)
      exact ⟨.of_properties rfl (by simp [HeapObject.role, hb]), rfl,
        by simp [HeapObject.charge, releaseOf, hb]⟩
    split at hs
    · rename_i hb
      split at hs
      · cases hs
      · rw [← Option.some.inj hs]
        exact harray _ _ hb
    · rename_i hb
      obtain ⟨length, -, rfl⟩ := Option.map_eq_some_iff.mp hs
      exact harray _ _ hb
    · rw [← Option.some.inj hs]
      exact h.discreetly_storeElement _ _ _
    · rw [← Option.some.inj hs]
      exact h.discreetly_modifyObject r _ fun o _ => ⟨o.calm_define _ _ _, rfl, rfl⟩

lemma discreetly_writeContents (r : ObjectRef) (offset : Nat) (bytes : List UInt8) :
    h.Discreetly (h.writeContents r offset bytes).2 := by
  unfold writeContents
  split
  · split
    · refine h.discreetly_modifyObject r _ fun o _ => ?_
      split
      · rename_i hb
        exact ⟨.of_properties rfl (by simp [HeapObject.role, hb]), HeapObject.spares_withBytes hb (size_write _ _ _)⟩
      · exact ⟨.refl o, .refl o⟩
    · exact .refl h
  · exact .refl h

lemma discreetly_newTypedArray (kind : ElementKind) (buffer : ObjectRef) (byteOffset length : Nat) :
    h.Discreetly (h.newTypedArray kind buffer byteOffset length).2 := by
  unfold newTypedArray
  split
  · exact .refl h
  · split
    · exact .refl h
    · split
      · exact h.discreetly_allocate _ rfl rfl
      · exact .refl h

lemma discreetly_newDataView (buffer : ObjectRef) (byteOffset byteLength : Nat) :
    h.Discreetly (h.newDataView buffer byteOffset byteLength).2 := by
  unfold newDataView
  split
  · exact .refl h
  · split
    · exact .refl h
    · split
      · exact h.discreetly_allocate _ rfl rfl
      · exact .refl h

lemma discreetly_newTemplate (t : Template) : h.Discreetly (h.newTemplate t).2 := by
  unfold newTemplate
  split
  · split
    · exact h.discreetly_addTemplate t
    · exact .refl h
  · exact h.discreetly_addTemplate t

lemma discreetly_addAccessor (r : TemplateRef) (name : String) (getter setter : Option CallbackData) :
    h.Discreetly (h.addAccessor r name getter setter).2 := by
  unfold addAccessor
  split
  · exact h.discreetly_modifyTemplate r _ fun _ => rfl
  · exact .refl h

lemma discreetly_addMethod (r : TemplateRef) (name : String) (data : CallbackData) :
    h.Discreetly (h.addMethod r name data).2 := by
  unfold addMethod
  split
  · exact h.discreetly_modifyTemplate r _ fun _ => rfl
  · exact .refl h

lemma discreetly_installMethods (prototype : HeapObject) (methods : List (String × CallbackData)) :
    h.Discreetly (h.installMethods prototype methods).2 := by
  induction methods generalizing h prototype with
  | nil => exact .refl h
  | cons method rest ih => exact (h.discreetly_allocate _ rfl rfl).trans (ih _ _)

lemma body_installMethods (prototype : HeapObject) (methods : List (String × CallbackData)) :
    (h.installMethods prototype methods).1.body = prototype.body := by
  induction methods generalizing h prototype with
  | nil => rfl
  | cons method rest ih => exact ih _ _

lemma discreetly_build (r : TemplateRef) (t : Template) (parent : Option ObjectRef) :
    h.Discreetly (h.build r t parent).2 := by
  unfold build
  dsimp only
  refine .trans ?_ (discreetly_modifyTemplate _ _ _ fun _ => rfl)
  refine .trans ?_ (discreetly_modifyObject _ _ _ fun o _ => ⟨o.calm_define _ _ _, rfl, rfl⟩)
  refine .trans ?_ (discreetly_allocate _ _ rfl rfl)
  refine .trans ?_ (discreetly_allocate _ _ (by simp [HeapObject.charge, releaseOf, body_installMethods])
    (by simp [HeapObject.role, HeapObject.Role.settles, body_installMethods]))
  exact h.discreetly_installMethods _ _

lemma discreetly_instantiateWithin (steps : Nat) (r : TemplateRef) :
    h.Discreetly (instantiateWithin steps h r).2 := by
  induction steps generalizing h r with
  | zero => exact .refl h
  | succ steps ih =>
    unfold instantiateWithin
    split
    · exact .refl h
    · split
      · exact .refl h
      · split
        · exact h.discreetly_build _ _ _
        · rename_i parent _
          have hparent := ih h parent
          split <;> rename_i heq <;> rw [heq] at hparent
          · exact hparent
          · exact hparent.trans (discreetly_build _ _ _ _)

end Functions

section Settlement

variable (h : Heap)

lemma promise?_eq_some (r : ObjectRef) (p : Promise) (hp : h.promise? r = some p) :
    ∃ o, h.object? r = some o ∧ o.body = .promise p := by
  unfold promise? body? at hp
  cases ho : h.object? r with
  | none => simp [ho] at hp
  | some o =>
    refine ⟨o, rfl, ?_⟩
    simp only [ho, Option.map_some] at hp
    split at hp
    · rename_i hb
      rw [Option.some.inj hb, Option.some.inj hp]
    · cases hp

lemma plainly_setPromise (r : ObjectRef) (state : Promise)
    (hp : ∀ o, h.object? r = some o → ∃ p, o.body = .promise p) :
    h.Plainly (h.setPromise r state) := by
  refine .op (.mutate r _) fun o ho => ?_
  obtain ⟨p, hb⟩ := hp o ho
  exact ⟨.of_properties rfl (by simp [HeapObject.function?, hb]), rfl,
    by simp [HeapObject.charge, releaseOf, hb]⟩

lemma promise_body (r : ObjectRef) (p : Promise) (hp : h.promise? r = some p) (o : HeapObject)
    (ho : h.object? r = some o) : ∃ p, o.body = .promise p := by
  obtain ⟨other, hother, hb⟩ := h.promise?_eq_some r p hp
  exact ⟨p, Option.some.inj (hother.symm.trans ho) ▸ hb⟩

-- Whatever a reference denotes after an allocation is what it denoted before or what was
-- allocated.
lemma object?_allocate (x : HeapObject) (r : ObjectRef) (o : HeapObject)
    (ho : (h.allocate x).2.object? r = some o) : o = x ∨ h.object? r = some o := by
  simp only [object?, allocate_objects] at ho ⊢
  exact Arena.get?_insert h.objects x r o ho

end Settlement

end Heap

end HostBoundary
