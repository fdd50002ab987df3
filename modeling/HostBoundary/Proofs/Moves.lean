import HostBoundary.Proofs.Listing

namespace HostBoundary

variable {h h' : Heap} {t : Template}

namespace HeapObject

-- A new object that is made for no class, is no view and has nothing to do with promises.
inductive Simple : HeapObject → Prop where
  | plain (properties : List Property) (hs : Stocked properties) :
      Simple { body := .plain, properties }
  | error (properties : List Property) (hs : Stocked properties) :
      Simple { body := .error, properties }
  | native (data : CallbackData) (properties : List Property) (hs : Stocked properties) :
      Simple { body := .function (.native data), properties }
  | array (elements : Array Value) : Simple (.ofBody (.array elements))
  | buffer (bytes : Array UInt8) : Simple (.ofBody (.arrayBuffer (.owned bytes)))

namespace Simple

variable {o : HeapObject}

lemma charge (ho : o.Simple) : o.charge = none := by cases ho <;> rfl

lemma settles (ho : o.Simple) : o.role.settles = false := by cases ho <;> rfl

lemma ofPlain : Simple (.ofBody .plain) := .plain [] stocked_nil

end Simple

end HeapObject

-- A template that has neither members nor been used.
structure Template.Blank (t : Template) : Prop where
  accessors : t.accessors = []
  methods : t.methods = []
  function : t.function = none
  prototype : t.prototype = none

def Template.instanceOf (t : Template) (prototype : ObjectRef) : HeapObject where
  body := .plain
  prototype := some prototype
  fields := if 0 < t.fieldCount then some {} else none

namespace Heap

-- What an engine does to its heap in one go, without storing a property. It opens and closes no
-- scope, collects nothing and leaves promises and jobs alone.
inductive Move (h : Heap) : Heap → Prop where
  | root (r : ObjectRef) : h.Move (h.root r)
  | target (slot : PersistentRef) : h.Move (h.target slot).2
  | persist (r : ObjectRef) : h.Move (h.persist r).2
  | hold (r : ObjectRef) : h.Move (h.hold r none).2
  | assign (r : ObjectRef) (i : FieldIndex) (word : Pointer) : h.Move (h.setField r i word).2
  | create (o : HeapObject) (ho : o.Simple) : h.Move (h.allocate o).2
  | typedArray (kind : ElementKind) (buffer : ObjectRef) (byteOffset length : Nat) :
      h.Move (h.newTypedArray kind buffer byteOffset length).2
  | dataView (buffer : ObjectRef) (byteOffset byteLength : Nat) :
      h.Move (h.newDataView buffer byteOffset byteLength).2
  | write (r : ObjectRef) (offset : Nat) (bytes : List UInt8) :
      h.Move (h.writeContents r offset bytes).2
  | newTemplate (t : Template) (ht : t.Blank) : h.Move (h.newTemplate t).2
  | addAccessor (r : TemplateRef) (name : String) (getter setter : Option CallbackData) :
      h.Move (h.addAccessor r name getter setter).2
  | addMethod (r : TemplateRef) (name : String) (data : CallbackData) :
      h.Move (h.addMethod r name data).2
  | discardTemplate (r : TemplateRef) : h.Move (h.discardTemplate r)
  | instantiate (r : TemplateRef) : h.Move (h.instantiate r).2
  | newInstance (r : TemplateRef) (t : Template) (p : ObjectRef) (ht : h.template? r = some t)
      (hp : t.prototype = some p) : h.Move (h.allocate (t.instanceOf p)).2

inductive Settling (h : Heap) : Heap → Prop where
  | newPromise : h.Settling h.newPromise.2
  | newResolver (target : ObjectRef) : h.Settling (h.allocate (.ofBody (.resolver target))).2
  | setPromise (r : ObjectRef) (state : Promise)
      (hp : ∀ o, h.object? r = some o → ∃ p, o.body = .promise p) :
      h.Settling (h.setPromise r state)
  | enqueue (jobs : List Job) : h.Settling (h.enqueue jobs)
  | dequeue : h.Settling { h with jobs := h.jobs.tail }

def Stores (h h' : Heap) : Prop := h' = h ∨ ∃ r key value, h.storeOwn r key value = some h'

def Moves : Heap → Heap → Prop := Relation.ReflTransGen Move

def Works : Heap → Heap → Prop := Relation.ReflTransGen fun h h' => h.Move h' ∨ h.Settling h'

lemma Move.discreetly (hm : h.Move h') : h.Discreetly h' := by
  cases hm with
  | root r => exact h.discreetly_root r
  | target slot => exact h.discreetly_target slot
  | persist r => exact h.discreetly_persist r
  | hold r => exact h.discreetly_hold r
  | assign r i word => exact h.discreetly_setField r i word
  | create o ho => exact h.discreetly_allocate o ho.charge ho.settles
  | typedArray kind buffer byteOffset length => exact h.discreetly_newTypedArray _ _ _ _
  | dataView buffer byteOffset byteLength => exact h.discreetly_newDataView _ _ _
  | write r offset bytes => exact h.discreetly_writeContents r offset bytes
  | newTemplate t ht => exact h.discreetly_newTemplate t
  | addAccessor r name getter setter => exact h.discreetly_addAccessor r name getter setter
  | addMethod r name data => exact h.discreetly_addMethod r name data
  | discardTemplate r => exact h.discreetly_discardTemplate r
  | instantiate r => exact h.discreetly_instantiateWithin _ r
  | newInstance r t p ht hp => exact h.discreetly_allocate _ rfl rfl

lemma Settling.plainly (hs : h.Settling h') : h.Plainly h' := by
  cases hs with
  | newPromise | newResolver => exact h.plainly_allocate _ rfl
  | setPromise r state hp => exact h.plainly_setPromise r state hp
  | enqueue jobs => exact h.plainly_enqueue jobs
  | dequeue => exact .op .dequeue trivial

lemma Stores.discreetly (hs : h.Stores h') : h.Discreetly h' := by
  rcases hs with rfl | ⟨r, key, value, hs⟩
  · exact .refl h'
  · exact h.discreetly_storeOwn r key value h' hs

namespace Moves

variable {h h' h'' : Heap}

lemma refl (h : Heap) : h.Moves h := Relation.ReflTransGen.refl

lemma trans (hab : h.Moves h') (hbc : h'.Moves h'') : h.Moves h'' :=
  Relation.ReflTransGen.trans hab hbc

lemma of_move (hm : h.Move h') : h.Moves h' := Relation.ReflTransGen.single hm

variable (hl : h.Moves h')

include hl

lemma discreetly : h.Discreetly h' := by
  induction hl with
  | refl => exact .refl h
  | tail _ hm ih => exact ih.trans hm.discreetly

lemma quietly : h.Quietly h' := hl.discreetly.quietly

lemma leads : h.Leads h' := hl.discreetly.leads

lemma works : h.Works h' := Relation.ReflTransGen.mono (fun _ _ => .inl) _ _ hl

end Moves

namespace Works

variable {h h' h'' : Heap}

lemma refl (h : Heap) : h.Works h := Relation.ReflTransGen.refl

lemma trans (hab : h.Works h') (hbc : h'.Works h'') : h.Works h'' :=
  Relation.ReflTransGen.trans hab hbc

lemma settling (hs : h.Settling h') : h.Works h' := Relation.ReflTransGen.single (.inr hs)

lemma plainly (hl : h.Works h') : h.Plainly h' := by
  induction hl with
  | refl => exact .refl h
  | tail _ hstep ih =>
    rcases hstep with hm | hs
    · exact ih.trans hm.discreetly.plainly
    · exact ih.trans hs.plainly

lemma leads (hl : h.Works h') : h.Leads h' := hl.plainly.leads

end Works

section Functions

variable (h : Heap)

lemma moves_root (r : ObjectRef) : h.Moves (h.root r) := .of_move (.root r)

lemma moves_create (o : HeapObject) (ho : o.Simple) : h.Moves (h.allocate o).2 :=
  .of_move (.create o ho)

lemma moves_newObject : h.Moves h.newObject.2 := h.moves_create _ .ofPlain

lemma moves_newArray (length : Nat) : h.Moves (h.newArray length).2 := h.moves_create _ (.array _)

lemma moves_newArrayBuffer (length : Nat) : h.Moves (h.newArrayBuffer length).2 :=
  h.moves_create _ (.buffer _)

lemma moves_newError (name : ErrorName) (message : String) :
    h.Moves (h.newError name message).2 := by
  refine h.moves_create _ (.error _ ?_)
  iterate 3 refine HeapObject.Stocked.hide ?_ _ _
  exact HeapObject.stocked_nil

lemma simple_functionObject (data : CallbackData) (name : String) :
    (functionObject (.native data) name).Simple := by
  refine .native data _ ?_
  exact .hide HeapObject.stocked_nil _ _

lemma moves_newFunction (data : CallbackData) (name : Option String) :
    h.Moves (h.newFunction data name).2 := h.moves_create _ (simple_functionObject _ _)

lemma moves_resolveHandle (handle : Handle) : h.Moves (h.resolveHandle handle).2 := by
  cases handle with
  | transient target => exact .refl h
  | persistent slot => exact .of_move (.target slot)

lemma moves_ofTagged (value : Tagged) : h.Moves (h.ofTagged value).2 := by
  cases value with
  | object kind handle =>
    have hr := h.moves_resolveHandle handle
    simp only [ofTagged]
    split <;> rename_i heq <;> rw [heq] at hr <;> exact hr
  | _ => exact .refl h

lemma moves_ofTaggedAll (values : List Tagged) : h.Moves (h.ofTaggedAll values).2 := by
  induction values generalizing h with
  | nil => exact .refl h
  | cons first rest ih =>
    have hfirst := h.moves_ofTagged first
    simp only [ofTaggedAll]
    split
    · rename_i heq
      rw [heq] at hfirst
      exact hfirst
    · rename_i value middle heq
      rw [heq] at hfirst
      have hrest := ih middle
      split <;> rename_i heq' <;> rw [heq'] at hrest <;> exact hfirst.trans hrest

lemma moves_instantiate (r : TemplateRef) : h.Moves (h.instantiate r).2 := .of_move (.instantiate r)

lemma moves_templateFunction (r : TemplateRef) : h.Moves (h.templateFunction r).2 := by
  have hi := h.moves_instantiate r
  unfold templateFunction
  split <;> rename_i heq <;> rw [heq] at hi
  · exact hi
  · exact hi.trans (moves_root _ _)

lemma moves_resolverPromise (r : ObjectRef) : h.Moves (h.resolverPromise r).2 := by
  unfold resolverPromise
  split
  · exact h.moves_root _
  · exact .refl h

lemma moves_roots (refs : List ObjectRef) : h.Moves (refs.foldl root h) := by
  induction refs generalizing h with
  | nil => exact .refl h
  | cons r rest ih => exact (h.moves_root r).trans (ih _)

end Functions

section Instances

variable {h h' : Heap} {r : TemplateRef} {f p : ObjectRef}

lemma template?_modifyTemplate (h : Heap) (r s : TemplateRef) (change : Template → Template) :
    (h.modifyTemplate r change).template? s =
      if s = r then (h.template? s).map change else h.template? s :=
  Arena.get?_modify h.templates r s change

lemma prototype_build {t' : Template} {parent : Option ObjectRef}
    (hb : h.build r t parent = ((f, p), h')) (ht : h'.template? r = some t') :
    t'.prototype = some p := by
  obtain ⟨hpair, rfl⟩ := Prod.mk.inj hb
  obtain ⟨-, rfl⟩ := Prod.mk.inj hpair
  rw [template?_modifyTemplate, if_pos rfl] at ht
  obtain ⟨before, -, rfl⟩ := Option.map_eq_some_iff.mp ht
  rfl

-- What a template is said to have for a prototype it has.
lemma prototype_instantiateWithin {steps : Nat}
    (hi : instantiateWithin steps h r = (some (f, p), h')) (ht : h'.template? r = some t) :
    t.prototype = some p := by
  cases steps with
  | zero => exact absurd (congrArg Prod.fst hi) (by simp [instantiateWithin])
  | succ steps =>
    unfold instantiateWithin at hi
    split at hi
    · exact absurd (congrArg Prod.fst hi) (by simp)
    · rename_i template htemplate
      split at hi
      · rename_i function prototype hfunction hprototype
        obtain ⟨hpair, rfl⟩ := Prod.mk.inj hi
        obtain ⟨-, rfl⟩ := Prod.mk.inj (Option.some.inj hpair)
        rw [← Option.some.inj (htemplate.symm.trans ht)]
        exact hprototype
      · split at hi
        · obtain ⟨hpair, hheap⟩ := Prod.mk.inj hi
          exact prototype_build (Prod.ext (Option.some.inj hpair) hheap) ht
        · split at hi
          · exact absurd (congrArg Prod.fst hi) (by simp)
          · obtain ⟨hpair, hheap⟩ := Prod.mk.inj hi
            exact prototype_build (Prod.ext (Option.some.inj hpair) hheap) ht

lemma newInstance_of_some {x : ObjectRef} (hn : h.newInstance r = (some x, h')) :
    ∃ h₁ t p, h.Moves h₁ ∧ h₁.template? r = some t ∧ t.prototype = some p ∧
      h₁.allocate (t.instanceOf p) = (x, h') := by
  have hinstantiate := h.moves_instantiate r
  unfold newInstance at hn
  split at hn
  · exact absurd (congrArg Prod.fst hn) (by simp)
  · rename_i function p h₁ heq
    rw [heq] at hinstantiate
    split at hn
    · exact absurd (congrArg Prod.fst hn) (by simp)
    · rename_i t ht
      obtain ⟨hx, hheap⟩ := Prod.mk.inj hn
      exact ⟨h₁, t, p, hinstantiate, ht, prototype_instantiateWithin heq ht,
        Prod.ext (Option.some.inj hx) hheap⟩

lemma moves_newInstance (h : Heap) (r : TemplateRef) : h.Moves (h.newInstance r).2 := by
  cases hn : h.newInstance r with
  | mk made h' =>
    cases made with
    | some x =>
      obtain ⟨h₁, t, p, hmoves, ht, hp, hnew⟩ := newInstance_of_some hn
      have hmade : h₁.Moves (h₁.allocate (t.instanceOf p)).2 := .of_move (.newInstance r t p ht hp)
      rw [hnew] at hmade
      exact hmoves.trans hmade
    | none =>
      have hinstantiate := h.moves_instantiate r
      unfold newInstance at hn
      split at hn <;> rename_i heq <;> rw [heq] at hinstantiate
      · rw [← congrArg Prod.snd hn]
        exact hinstantiate
      · split at hn
        · rw [← congrArg Prod.snd hn]
          exact hinstantiate
        · exact absurd (congrArg Prod.fst hn) (by simp)

end Instances

section Settlement

variable (h : Heap)

section

variable (r : ObjectRef)

lemma works_setPromise (state : Promise)
    (hp : ∀ o, h.object? r = some o → ∃ p, o.body = .promise p) :
    h.Works (h.setPromise r state) := .settling (.setPromise r state hp)

lemma works_enqueue (jobs : List Job) : h.Works (h.enqueue jobs) := .settling (.enqueue jobs)

lemma works_settle (state : PromiseState) (value : Value) : h.Works (h.settle r state value) := by
  unfold settle
  split
  · exact .refl h
  · rename_i promise hp
    exact (h.works_setPromise r _ (h.promise_body r promise hp)).trans (works_enqueue _ _)

lemma works_react (promise : Promise) (reaction : Reaction)
    (hp : ∀ o, h.object? r = some o → ∃ p, o.body = .promise p) :
    h.Works (h.react r promise reaction) :=
  (h.works_setPromise r _ hp).trans (works_enqueue _ _)

section

variable (value : Value)

lemma works_fulfil : h.Works (h.fulfil r value) := by
  unfold fulfil
  split
  · split
    · exact (h.moves_newError _ _).works.trans (works_settle _ _ _ _)
    · split
      · rename_i promise hp
        exact h.works_react _ promise _ (h.promise_body _ promise hp)
      · exact h.works_settle _ _ _
  · exact h.works_settle _ _ _

lemma leads_fulfil : h.Leads (h.fulfil r value) :=
  (h.works_fulfil r value).leads

lemma works_newResolver : h.Works h.newResolver.2 :=
  (Works.settling .newPromise).trans (.settling (.newResolver _))

lemma works_lockResolver : h.Works (h.lockResolver r).2 := by
  have hr := (h.moves_resolverPromise r).works
  unfold lockResolver
  split <;> rename_i heq <;> rw [heq] at hr
  · exact hr
  · split
    · rename_i promise hp
      split
      · exact hr.trans (works_setPromise _ _ _ (promise_body _ _ promise hp))
      · exact hr
    · exact hr

lemma works_resolve : h.Works (h.resolve r value).2 := by
  have hl := h.works_lockResolver r
  unfold resolve
  split <;> rename_i heq <;> rw [heq] at hl
  · exact hl.trans (works_fulfil _ _ _)
  · exact hl

lemma works_reject : h.Works (h.reject r value).2 := by
  have hl := h.works_lockResolver r
  unfold reject
  split <;> rename_i heq <;> rw [heq] at hl
  · exact hl.trans (works_settle _ _ _ _)
  · exact hl

end

lemma works_thenPromise (onFulfilled onRejected : Option ObjectRef) :
    h.Works (h.thenPromise r onFulfilled onRejected).2 := by
  unfold thenPromise
  split
  · exact .refl h
  · rename_i promise hp
    refine (Works.settling .newPromise).trans (works_react _ _ _ _ fun o ho => ?_)
    rcases h.object?_allocate _ r o ho with rfl | hbefore
    · exact ⟨_, rfl⟩
    · exact h.promise_body r promise hp o hbefore

end

lemma works_nextJob (job : Job) (h' : Heap) (hj : h.nextJob = some (job, h')) : h.Works h' := by
  unfold nextJob at hj
  split at hj
  · cases hj
  · rename_i first rest hjobs
    obtain ⟨rfl, rfl⟩ := Prod.mk.inj (Option.some.inj hj)
    have hstep : h.Works { h with jobs := h.jobs.tail } := .settling .dequeue
    rw [hjobs] at hstep
    exact hstep.trans (moves_roots _ _).works

end Settlement

lemma simple_ofEntries (h : Heap) (object : HeapObject) (entries : List (String × Document))
    (hs : HeapObject.Stocked object.properties)
    (hplain : object = { body := .plain, properties := object.properties }) :
    (ofEntries h object entries).1.Simple := by
  induction entries generalizing h object with
  | nil =>
    simp only [ofEntries]
    rw [hplain]
    exact .plain _ hs
  | cons entry rest ih =>
    refine ih _ _ (hs.defineIn _ fun _ => Key.canonical_ofName _) ?_
    rw [hplain]
    rfl

mutual

lemma moves_ofDocument (h : Heap) (d : Document) : h.Moves (ofDocument h d).2 := by
  cases d with
  | array items => exact (moves_ofItems h items).trans (moves_create _ _ (.array _))
  | object entries =>
    exact (moves_ofEntries h _ entries).trans (moves_create _ _
      (simple_ofEntries h _ entries HeapObject.stocked_nil rfl))
  | null | boolean | integer | float | text => exact .refl h

lemma moves_ofItems (h : Heap) (items : List Document) : h.Moves (ofItems h items).2 := by
  cases items with
  | nil => exact .refl h
  | cons item rest => exact (moves_ofDocument h item).trans (moves_ofItems _ rest)

lemma moves_ofEntries (h : Heap) (object : HeapObject) (entries : List (String × Document)) :
    h.Moves (ofEntries h object entries).2 := by
  cases entries with
  | nil => exact .refl h
  | cons entry rest => exact (moves_ofDocument h entry.2).trans (moves_ofEntries _ _ rest)

end

lemma moves_execute (h : Heap) (source : Units) (resource : String) (startLine : Int) :
    h.Moves (h.execute source resource startLine).2 := by
  unfold execute
  split
  · exact moves_ofDocument h _
  · exact h.moves_newError _ _

end Heap

end HostBoundary
