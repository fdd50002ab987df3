import HostBoundary.Proofs.HeapActs
import HostBoundary.Proofs.Strides

namespace HostBoundary

variable {limit : Nat} {a b : Body} {free : Key → Prop} {o o' : HeapObject} {bytes : Array UInt8}
  {r x : ObjectRef} {key : Key} {h start : Heap} {view : TypedArrayView}
  {f : HeapObject → HeapObject}

-- Keys that are answered and written by the body of an object and never stored as properties.
def Body.reserves : Body → Key → Bool
  | .array _, .index _ | .array _, .name "length" | .typedArray _, .index _ => true
  | _, _ => false

-- What the body of an object can turn into. Arrays grow up to the limit. Buffers keep their size,
-- and views what they show.
inductive Body.Becomes (limit : Nat) : Body → Body → Prop where
  | same (body : Body) : Becomes limit body body
  | array (before after : Array Value) (hsize : after.size ≤ max limit before.size) :
      Becomes limit (.array before) (.array after)
  | buffer (before after : Backing) (hsize : after.bytes.size = before.bytes.size) :
      Becomes limit (.arrayBuffer before) (.arrayBuffer after)
  | promise (before after : Promise) : Becomes limit (.promise before) (.promise after)

lemma Body.Becomes.trans {c : Body} (hab : a.Becomes limit b) (hbc : b.Becomes limit c) :
    a.Becomes limit c := by
  cases hab with
  | same => exact hbc
  | array before after hsize =>
    cases hbc with
    | same => exact .array _ _ hsize
    | array _ _ hsize' => exact .array _ _ (by omega)
  | buffer before after hsize =>
    cases hbc with
    | same => exact .buffer _ _ hsize
    | buffer _ _ hsize' => exact .buffer _ _ (hsize'.trans hsize)
  | promise before after => cases hbc <;> exact .promise _ _

lemma Body.Becomes.reserves (hab : a.Becomes limit b) (key : Key) :
    b.reserves key = a.reserves key := by
  cases hab with
  | same => rfl
  | array before after _ =>
    cases key with
    | index => rfl
    | name text =>
      by_cases hl : text = "length"
      · rw [hl]
        rfl
      · simp [Body.reserves, hl]
  | buffer | promise => rfl

-- A view on part of a buffer is made if the part is there, in whole elements, and its end can be
-- written down.
def TypedArrayView.Fits (h : Heap) (view : TypedArrayView) : Prop :=
  ∃ bytes, h.contents? view.buffer = some bytes ∧ view.byteOffset % view.kind.size = 0 ∧
    view.byteOffset + view.length * view.kind.size ≤ bytes.size ∧
    view.byteOffset + view.length * view.kind.size < 2 ^ 64

def DataView.Fits (h : Heap) (view : DataView) : Prop :=
  ∃ bytes, h.contents? view.buffer = some bytes ∧
    view.byteOffset + view.byteLength ≤ bytes.size ∧ view.byteOffset + view.byteLength < 2 ^ 64

def Body.Fits (h : Heap) : Body → Prop
  | .typedArray view => view.Fits h
  | .dataView view => view.Fits h
  | _ => True

namespace HeapObject

def Open (o : HeapObject) (key : Key) : Prop := ∀ p, o.own? key = some p → ∃ v, p.slot = .data v

-- What an object can turn into while it is there. It gets properties under keys that are open to
-- it, and what they hold is data.
structure Becomes (limit : Nat) (free : Key → Prop) (o o' : HeapObject) : Prop where
  body : o.body.Becomes limit o'.body
  prototype : o'.prototype = o.prototype
  own : ∀ key, o'.own? key = o.own? key ∨
    free key ∧ o.body.reserves key = false ∧ o.Open key ∧ (o'.own? key).isSome ∧ o'.Open key
  listed : Listed o.properties → Listed o'.properties

namespace Becomes

variable {limit : Nat} {free : Key → Prop} {o o' o'' : HeapObject}

lemma of_body (hb : o.body.Becomes limit o'.body) (hproperties : o'.properties = o.properties)
    (hprototype : o'.prototype = o.prototype) : Becomes limit free o o' where
  body := hb
  prototype := hprototype
  own key := .inl (by rw [own?, own?, hproperties])
  listed hl := hproperties ▸ hl

lemma refl (o : HeapObject) : Becomes limit free o o := .of_body (.same _) rfl rfl

end Becomes

section Define

variable (key other : Key) (value : Value) (enumerable : Bool)

lemma find?_defineIn_ne (hne : other ≠ key) (properties : List Property) :
    (defineIn key value enumerable properties).find? (·.key = other) =
      properties.find? (·.key = other) := by
  induction properties with
  | nil => simp [defineIn, hne.symm]
  | cons q rest ih =>
    rw [defineIn]
    split
    · rename_i hq
      have hother : q.key ≠ other := fun ho => hne (ho.symm.trans hq)
      simp [hother]
    · rw [List.find?_cons, List.find?_cons, ih]

lemma find?_defineIn_self (properties : List Property) :
    ∃ shown, (defineIn key value enumerable properties).find? (·.key = key) =
      some ⟨key, .data value, shown⟩ := by
  induction properties with
  | nil => exact ⟨enumerable, by simp [defineIn]⟩
  | cons q rest ih =>
    rw [defineIn]
    split
    · rename_i hq
      exact ⟨q.enumerable, by simp [hq]⟩
    · rename_i hq
      obtain ⟨shown, hshown⟩ := ih
      exact ⟨shown, by simp [hq, hshown]⟩

variable (o : HeapObject)

lemma own?_define_ne (hne : other ≠ key) : (o.define key value enumerable).own? other = o.own? other :=
  find?_defineIn_ne key other value enumerable hne o.properties

lemma own?_define_self :
    ∃ shown, (o.define key value enumerable).own? key = some ⟨key, .data value, shown⟩ :=
  find?_defineIn_self key value enumerable o.properties

lemma becomes_define (hfree : free key) (hreserved : o.body.reserves key = false)
    (hopen : o.Open key) (hkey : key.Canonical) :
    Becomes limit free o (o.define key value enumerable) where
  body := .same _
  prototype := rfl
  own other := by
    by_cases hne : other = key
    · subst hne
      obtain ⟨shown, hshown⟩ := own?_define_self other value enumerable o
      refine .inr ⟨hfree, hreserved, hopen, by rw [hshown]; rfl, fun p hp => ⟨value, ?_⟩⟩
      rw [← Option.some.inj (hshown.symm.trans hp)]
    · exact .inl (own?_define_ne key other value enumerable o hne)
  listed hl := hl.defineIn value fun _ => hkey

end Define

-- An object as it is when it has just been made.
inductive Novel (h : Heap) : HeapObject → Prop where
  | simple {o : HeapObject} (ho : o.Simple) : Novel h o
  | external (memory : HostMemory) (release : Option ReleaseHook) :
      Novel h (.ofBody (.arrayBuffer (.external memory release)))
  | typedArray (view : TypedArrayView) (hf : view.Fits h) : Novel h (.ofBody (.typedArray view))
  | dataView (view : DataView) (hf : view.Fits h) : Novel h (.ofBody (.dataView view))
  | promise (state : Promise) : Novel h (.ofBody (.promise state))
  | resolver (target : ObjectRef) : Novel h (.ofBody (.resolver target))
  | instanceOf (r : TemplateRef) (t : Template) (p : ObjectRef) (ht : h.template? r = some t)
      (hp : t.prototype = some p) : Novel h (t.instanceOf p)
  | constructor (r : TemplateRef) (properties : List Property) (hs : Stocked properties) :
      Novel h { body := .function (.template r), properties }
  | prototype (parent : Option ObjectRef) (properties : List Property) (hl : Listed properties) :
      Novel h { body := .plain, properties, prototype := parent }

end HeapObject

def Template.bareObject (t : Template) (parent : Option ObjectRef) : HeapObject where
  body := .plain
  prototype := parent
  properties := t.accessors.map fun (name, getter, setter) =>
    ⟨.ofName name, .accessor getter setter, false⟩

lemma Template.listed_bareObject (t : Template) (parent : Option ObjectRef) :
    HeapObject.Listed (t.bareObject parent).properties := by
  have hnone : HeapObject.shown (t.bareObject parent).properties = [] := by
    simp [HeapObject.shown, bareObject, List.filter_map, Function.comp_def]
  exact ⟨by simp [hnone], by simp [hnone]⟩

def Template.constructorObject (t : Template) (r : TemplateRef) (prototype : ObjectRef) : HeapObject :=
  (Heap.functionObject (.template r) (t.className.getD "")).defineHidden "prototype"
    (.object prototype)

namespace Heap

variable {barred : Heap → ObjectRef → Key → Prop} {h h' h'' : Heap}

-- What was on the heap is on it as it was, and whatever else is there is new.
structure Enlarges (new : HeapObject → Prop) (h h' : Heap) : Prop where
  kept : ∀ r o, h.object? r = some o → h'.object? r = some o
  added : ∀ r o, h'.object? r = some o → h.object? r = some o ∨ h.object? r = none ∧ new o

namespace Enlarges

variable {new : HeapObject → Prop}

lemma of_eq (heq : h'.objects = h.objects) : Enlarges new h h' where
  kept r o ho := by rwa [object?, heq]
  added r o ho := .inl (by rwa [object?, heq] at ho)

lemma trans (hab : Enlarges new h h') (hbc : Enlarges new h' h'') : Enlarges new h h'' where
  kept r o ho := hbc.kept r o (hab.kept r o ho)
  added r o ho := by
    rcases hbc.added r o ho with hbefore | ⟨hnone, hnew⟩
    · exact hab.added r o hbefore
    · refine .inr ⟨?_, hnew⟩
      cases hfound : h.object? r with
      | none => rfl
      | some before => exact absurd (hnone.symm.trans (hab.kept r before hfound)) (by simp)

lemma allocate (hwf : h.WellFormed) (hroom : h.Roomy) (o : HeapObject) (ho : new o) :
    Enlarges new h (h.allocate o).2 := by
  obtain ⟨hadds, hself, hfresh⟩ := adds_allocate hwf hroom o
  refine ⟨hadds.object, fun r x hx => ?_⟩
  rcases h.object?_allocate o r x hx with rfl | hold
  · by_cases hr : h.object? r = none
    · exact .inr ⟨hr, ho⟩
    · obtain ⟨before, hbefore⟩ := Option.ne_none_iff_exists'.mp hr
      have hsame := (hadds.object r before hbefore).symm.trans hx
      exact .inl (hsame ▸ hbefore)
  · exact .inl hold

lemma modify (he : Enlarges new h h') (hr : h.object? r = none)
    (hf : ∀ o, h'.object? r = some o → new (f o)) : Enlarges new h (h'.modifyObject r f) where
  kept s o ho := by
    have hne : s ≠ r := by
      rintro rfl
      exact absurd (hr.symm.trans ho) (by simp)
    rw [object?_modifyObject, if_neg hne]
    exact he.kept s o ho
  added s o ho := by
    rw [object?_modifyObject] at ho
    split at ho
    · rename_i hs
      subst hs
      obtain ⟨before, hbefore, rfl⟩ := Option.map_eq_some_iff.mp ho
      exact .inr ⟨hr, hf before hbefore⟩
    · exact he.added s o ho

end Enlarges

-- What a stride comes to for the objects of a heap. What goes goes by a collection.
structure Passes (barred : Heap → ObjectRef → Key → Prop) (h h' : Heap) : Prop where
  object : ∀ r o', h'.object? r = some o' →
    (∃ o, h.object? r = some o ∧
      o.Becomes h.limits.maxArrayLength (fun key => ¬ barred h r key) o') ∨
      h.object? r = none ∧ o'.Novel h
  alive : (∀ r o, h.object? r = some o → ∃ o', h'.object? r = some o') ∨ h' = h.collect.2

namespace Passes

lemma of_enlarges (he : Enlarges (HeapObject.Novel h) h h') : h.Passes barred h' where
  object r o' ho' := by
    rcases he.added r o' ho' with ho | hnew
    · exact .inl ⟨o', ho, .refl o'⟩
    · exact .inr hnew
  alive := .inl fun r o ho => ⟨o, he.kept r o ho⟩

lemma of_eq (heq : h'.objects = h.objects) : h.Passes barred h' := .of_enlarges (.of_eq heq)

lemma modify
    (hf : ∀ o, h.object? r = some o →
      o.Becomes h.limits.maxArrayLength (fun key => ¬ barred h r key) (f o))
    (hobjects : h'.objects = h.objects.modify r f) : h.Passes barred h' := by
  have hmodified : ∀ s, h'.object? s = if s = r then (h.object? s).map f else h.object? s := by
    intro s
    rw [object?, hobjects]
    exact Arena.get?_modify h.objects r s f
  refine ⟨fun s o' ho' => ?_, .inl fun s o ho => ?_⟩
  · rw [hmodified] at ho'
    split at ho'
    · rename_i hs
      subst hs
      obtain ⟨o, ho, rfl⟩ := Option.map_eq_some_iff.mp ho'
      exact .inl ⟨o, ho, hf o ho⟩
    · exact .inl ⟨o', ho', .refl o'⟩
  · rw [hmodified, ho]
    split
    · exact ⟨_, rfl⟩
    · exact ⟨o, rfl⟩

lemma collect (h : Heap) : h.Passes barred h.collect.2 where
  object r o' ho' := by
    rw [object?_collect] at ho'
    exact .inl ⟨o', (Option.filter_eq_some_iff.mp ho').1, .refl o'⟩
  alive := .inr rfl

lemma allocate (hwf : h.WellFormed) (hroom : (h.allocate o).2.Roomy) (ho : o.Novel h) :
    h.Passes barred (h.allocate o).2 :=
  .of_enlarges (.allocate hwf ((h.leads_allocate o).roomy hroom) o ho)

lemma drain (h : Heap) : h.Passes barred h.drainReleases.2 := by
  refine ⟨fun r o' ho' => ?_, .inl fun r o ho => ⟨drained o, ?_⟩⟩
  · obtain ⟨o, ho, rfl⟩ := h.eq_drained_of_drainReleases ho'
    refine .inl ⟨o, ho, ?_⟩
    unfold drained
    split
    · rename_i backing hb
      refine .of_body ?_ rfl rfl
      rw [hb]
      exact .buffer _ _ (by cases backing <;> rfl)
    · exact .refl o
  · rw [object?_drainReleases, ho, Option.map_some]

end Passes

lemma becomes_withBytes {backing : Backing} (hb : o.body = .arrayBuffer backing)
    (hsize : bytes.size = backing.bytes.size) :
    o.Becomes limit free { o with body := .arrayBuffer (backing.withBytes bytes) } := by
  refine .of_body ?_ rfl rfl
  rw [hb]
  exact .buffer _ _ (by cases backing <;> exact hsize)

lemma passes_storeElement (h : Heap) (view : TypedArrayView) (index : Nat) (value : Value) :
    h.Passes barred (h.storeElement view index value) := by
  unfold storeElement
  split
  · exact .of_eq rfl
  · refine .modify (fun o _ => ?_) rfl
    split
    · rename_i hb
      dsimp only
      split
      · exact becomes_withBytes hb (size_write _ _ _)
      · exact .refl o
    · exact .refl o

lemma passes_writeContents (h : Heap) (r : ObjectRef) (offset : Nat) (bytes : List UInt8) :
    h.Passes barred (h.writeContents r offset bytes).2 := by
  unfold writeContents
  split
  · split
    · refine .modify (fun o _ => ?_) rfl
      split
      · rename_i hb
        exact becomes_withBytes hb (size_write _ _ _)
      · exact .refl o
    · exact .of_eq rfl
  · exact .of_eq rfl

lemma size_resize (elements : Array Value) (length : Nat) : (resize elements length).size = length := by
  simp [resize]
  omega

lemma open_of_storePlan (hplan : h.storePlan r key = .define) (ho : h.object? r = some o) :
    o.Open key := by
  intro p hp
  simp only [storePlan, maxPrototypes, storePlanFrom, ho, hp] at hplan
  split at hplan <;> rename_i heq
  · cases hplan
  · cases hplan
  · obtain rfl := Option.some.inj heq
    exact ⟨_, rfl⟩
  · cases heq

lemma storePlan_of_open (ho : h.object? r = some o) (hprototype : o.prototype = none)
    (hopen : o.Open key) : h.storePlan r key = .define := by
  simp only [storePlan, maxPrototypes, storePlanFrom, ho]
  cases hown : o.own? key with
  | none => simp only [hprototype, storePlanFrom]
  | some p =>
    obtain ⟨v, hv⟩ := hopen p hown
    obtain ⟨key, slot, enumerable⟩ := p
    obtain rfl : slot = .data v := hv
    rfl

lemma passes_storeOwn {value : Value} (hkey : key.Canonical) (hplan : h.storePlan r key = .define)
    (hs : h.storeOwn r key value = some h') (hfree : ¬ barred h r key) : h.Passes barred h' := by
  unfold storeOwn at hs
  split at hs
  · rw [← Option.some.inj hs]
    exact .of_eq rfl
  · rename_i object ho
    have harray : ∀ elements room, object.body = .array elements →
        room.size ≤ max h.limits.maxArrayLength elements.size →
        h.Passes barred (h.modifyObject r ({ · with body := .array room })) := by
      intro elements room hb hsize
      refine .modify (fun o hsome => ?_) rfl
      obtain rfl : object = o := Option.some.inj (ho.symm.trans hsome)
      refine .of_body ?_ rfl rfl
      rw [hb]
      exact .array _ _ hsize
    split at hs
    · rename_i hb
      split at hs
      · cases hs
      · rw [← Option.some.inj hs]
        refine harray _ _ hb ?_
        rw [Array.size_setIfInBounds]
        split
        · rw [size_resize]
          omega
        · exact Nat.le_max_right ..
    · rename_i hb
      obtain ⟨length, hlength, rfl⟩ := Option.map_eq_some_iff.mp hs
      refine harray _ _ hb ?_
      simp only [lengthOf?, Option.ite_none_right_eq_some, Bool.and_eq_true_iff, decide_eq_true_iff,
        Option.some.injEq] at hlength
      rw [size_resize]
      omega
    · rw [← Option.some.inj hs]
      exact h.passes_storeElement _ _ _
    · rename_i key _ _ hindex hlength hview
      rw [← Option.some.inj hs]
      refine .modify (fun o hsome => ?_) rfl
      obtain rfl : object = o := Option.some.inj (ho.symm.trans hsome)
      refine HeapObject.becomes_define key value true object hfree ?_ (open_of_storePlan hplan ho)
        hkey
      cases hb : object.body with
      | array elements =>
        cases key with
        | index n => exact absurd rfl (hindex elements n hb)
        | name text =>
          by_cases hl : text = "length"
          · exact absurd (congrArg Key.name hl) (hlength elements hb)
          · simp [Body.reserves, hl]
      | typedArray view =>
        cases key with
        | index n => exact absurd rfl (hview view n hb)
        | name text => rfl
      | _ => rfl

lemma enlarges_installMethods (start : Heap) (hwf : h.WellFormed) (prototype : HeapObject)
    (methods : List (String × CallbackData)) (hroom : (h.installMethods prototype methods).2.Roomy) :
    Enlarges (HeapObject.Novel start) h (h.installMethods prototype methods).2 := by
  induction methods generalizing h prototype with
  | nil => exact .of_eq rfl
  | cons method rest ih =>
    have hl := h.leads_allocate (functionObject (.native method.2) method.1)
    have hmade := (discreetly_installMethods _ _ rest).leads.roomy hroom
    exact (Enlarges.allocate hwf (hl.roomy hmade) _ (.simple (simple_functionObject _ _))).trans
      (ih (hl.wellFormed hwf hmade) _ hroom)

lemma prototype_installMethods (h : Heap) (prototype : HeapObject)
    (methods : List (String × CallbackData)) :
    ∃ properties, (h.installMethods prototype methods).1 = { prototype with properties } ∧
      (HeapObject.Listed prototype.properties → HeapObject.Listed properties) := by
  induction methods generalizing h prototype with
  | nil => exact ⟨_, rfl, id⟩
  | cons method rest ih =>
    obtain ⟨properties, hp, hl⟩ := ih (h.allocate (functionObject (.native method.2) method.1)).2
      (prototype.define (.ofName method.1)
        (.object (h.allocate (functionObject (.native method.2) method.1)).1) false)
    exact ⟨properties, hp, fun hlisted => hl (hlisted.defineIn _ nofun)⟩

-- How a class is built, step by step.
lemma build_of_installed {r : TemplateRef} {t : Template} {parent : Option ObjectRef} {h₁ : Heap}
    {object : HeapObject} (hi : h.installMethods (t.bareObject parent) t.methods = (object, h₁)) :
    h.build r t parent =
      let made := h₁.allocate object
      let done := made.2.allocate (t.constructorObject r made.1)
      ((done.1, made.1),
        (done.2.modifyObject made.1 (·.defineHidden "constructor" (.object done.1))).modifyTemplate r
          ({ · with function := some done.1, prototype := some made.1 })) := by
  simp only [Template.bareObject] at hi
  simp only [build, hi]
  rfl

lemma novel_constructorObject (t : Template) (r : TemplateRef) (prototype : ObjectRef) (start : Heap) :
    (t.constructorObject r prototype).Novel start :=
  .constructor r _ (by
    iterate 2 refine HeapObject.Stocked.hide ?_ _ _
    exact HeapObject.stocked_nil)

lemma enlarges_build (start : Heap) (hwf : h.WellFormed) (r : TemplateRef) (t : Template)
    (parent : Option ObjectRef) (hroom : (h.build r t parent).2.Roomy) :
    Enlarges (HeapObject.Novel start) h (h.build r t parent).2 := by
  obtain ⟨properties, hobject, hlisted⟩ :=
    h.prototype_installMethods (t.bareObject parent) t.methods
  replace hlisted := hlisted (t.listed_bareObject parent)
  have hinstalled := h.discreetly_installMethods (t.bareObject parent) t.methods
  have hmethods := enlarges_installMethods start hwf (t.bareObject parent) t.methods
  cases hi : h.installMethods (t.bareObject parent) t.methods with
  | mk object h₁ =>
    rw [hi] at hobject hinstalled hmethods
    rw [build_of_installed hi] at hroom ⊢
    dsimp only at hroom hobject hinstalled hmethods ⊢
    generalize hf : t.constructorObject r (h₁.allocate object).1 = function at hroom ⊢
    have hroom₃ : ((h₁.allocate object).2.allocate function).2.Roomy := by
      simpa [Roomy, modifyTemplate, modifyObject, Arena.modify] using hroom
    have hroom₂ := (leads_allocate _ _).roomy hroom₃
    have hroom₁ := (leads_allocate _ _).roomy hroom₂
    have hwf₁ := hinstalled.leads.wellFormed hwf hroom₁
    have hnovel : object.Novel start := by
      obtain rfl : object = _ := hobject
      exact .prototype parent properties hlisted
    obtain ⟨hadds, hself, hfresh⟩ := adds_allocate hwf₁ hroom₁ object
    have hprototype := Enlarges.allocate hwf₁ hroom₁ object hnovel
    have hconstructor := Enlarges.allocate hadds.wellFormed hroom₂ function
      (hf ▸ novel_constructorObject t r _ start)
    have hall := ((hmethods hroom₁).trans hprototype).trans hconstructor
    have hnone : h.object? (h₁.allocate object).1 = none := by
      by_contra hsome
      obtain ⟨before, hbefore⟩ := Option.ne_none_iff_exists'.mp hsome
      exact absurd (hfresh.symm.trans ((hmethods hroom₁).kept _ before hbefore)) (by simp)
    refine Enlarges.trans (hall.modify hnone fun o ho => ?_) (.of_eq rfl)
    obtain rfl : object = o :=
      Option.some.inj ((hconstructor.kept _ _ hself).symm.trans ho)
    obtain rfl : object = _ := hobject
    exact .prototype parent _ (hlisted.defineIn _ (by simp))

lemma enlarges_instantiateWithin (hwf : h.WellFormed) (steps : Nat) (r : TemplateRef)
    (hroom : (instantiateWithin steps h r).2.Roomy) :
    Enlarges (HeapObject.Novel start) h (instantiateWithin steps h r).2 := by
  fun_induction instantiateWithin steps h r with
  | case1 | case2 | case3 => exact .of_eq rfl
  | case4 steps h r t _ _ pair h' hbuild _ =>
    have henlarges := enlarges_build start hwf r t none
    rw [hbuild] at henlarges
    exact henlarges hroom
  | case5 steps h r t ht parent hparent h' hnone _ ih =>
    rw [hnone] at ih
    exact ih hwf hroom
  | case6 steps h r t ht parent hparent f inherited h₁ hsome pair h' hbuild _ ih =>
    have hfirst := h.discreetly_instantiateWithin steps parent
    have hlast := h₁.discreetly_build r t (some inherited)
    have henlarges := enlarges_build (h := h₁) start
    rw [hsome] at ih hfirst
    rw [hbuild] at hlast
    have hroom₁ := hlast.leads.roomy hroom
    have hbuilt := henlarges (hfirst.leads.wellFormed hwf hroom₁) r t (some inherited)
    rw [hbuild] at hbuilt
    exact (ih hwf hroom₁).trans (hbuilt hroom)

lemma newTypedArray_of_fits (hf : view.Fits h) :
    h.newTypedArray view.kind view.buffer view.byteOffset view.length =
      (some (h.allocate (.ofBody (.typedArray view))).1,
        (h.allocate (.ofBody (.typedArray view))).2) := by
  obtain ⟨bytes, hbytes, haligned, hrange, hword⟩ := hf
  have hsize : view.length * view.kind.size < 2 ^ 64 := by omega
  have hstop : view.length * view.kind.size + view.byteOffset < 2 ^ 64 := by omega
  have hend : view.length * view.kind.size + view.byteOffset ≤ bytes.size := by omega
  simp only [newTypedArray, hbytes, word?, hsize, hstop, if_true, Option.bind_some, haligned, hend,
    and_self]

lemma newTypedArray_of_not_fits (hf : ¬ view.Fits h) :
    h.newTypedArray view.kind view.buffer view.byteOffset view.length = (none, h) := by
  unfold newTypedArray
  split
  · rfl
  · rename_i bytes hbytes
    split
    · rfl
    · rename_i stop hstop
      obtain ⟨size, hsize, hstop⟩ := Option.bind_eq_some_iff.mp hstop
      simp only [word?, Option.ite_none_right_eq_some, Option.some.injEq] at hsize hstop
      split
      · rename_i hand
        refine absurd ⟨bytes, hbytes, hand.1, ?_, ?_⟩ hf <;> omega
      · rfl

lemma newDataView_of_fits {view : DataView} (hf : view.Fits h) :
    h.newDataView view.buffer view.byteOffset view.byteLength =
      (some (h.allocate (.ofBody (.dataView view))).1, (h.allocate (.ofBody (.dataView view))).2) := by
  obtain ⟨bytes, hbytes, hrange, hword⟩ := hf
  simp only [newDataView, hbytes, word?, hword, if_true, hrange]

lemma newDataView_of_not_fits {view : DataView} (hf : ¬ view.Fits h) :
    h.newDataView view.buffer view.byteOffset view.byteLength = (none, h) := by
  unfold newDataView
  split
  · rfl
  · rename_i bytes hbytes
    split
    · rfl
    · rename_i stop hstop
      simp only [word?, Option.ite_none_right_eq_some, Option.some.injEq] at hstop
      split
      · refine absurd ⟨bytes, hbytes, ?_, ?_⟩ hf <;> omega
      · rfl

lemma Move.passes (hm : h.Move h') (hwf : h.WellFormed) (hroom : h'.Roomy) :
    h.Passes barred h' := by
  cases hm with
  | root r => exact .of_eq (h.root_objects r)
  | target slot => exact .of_eq (h.target_objects slot)
  | persist r => exact .of_eq (h.persist_objects r)
  | hold r =>
    refine .of_eq ?_
    unfold Heap.hold
    split <;> rename_i heq
    · rw [weaken_objects, ← h.persist_objects r, heq]
    · rw [← h.persist_objects r, heq]
  | assign r i word =>
    unfold setField
    split
    · refine .modify (fun o _ => ?_) rfl
      exact .of_body (.same _) rfl rfl
    · exact .of_eq rfl
  | create o ho => exact .allocate hwf hroom (.simple ho)
  | typedArray kind buffer byteOffset length =>
    by_cases hf : TypedArrayView.Fits h ⟨kind, buffer, byteOffset, length⟩
    · rw [newTypedArray_of_fits hf] at hroom ⊢
      exact .allocate hwf hroom (.typedArray _ hf)
    · rw [newTypedArray_of_not_fits hf]
      exact .of_eq rfl
  | dataView buffer byteOffset byteLength =>
    by_cases hf : DataView.Fits h ⟨buffer, byteOffset, byteLength⟩
    · rw [newDataView_of_fits hf] at hroom ⊢
      exact .allocate hwf hroom (.dataView _ hf)
    · rw [newDataView_of_not_fits hf]
      exact .of_eq rfl
  | write r offset bytes => exact h.passes_writeContents r offset bytes
  | newTemplate t ht =>
    refine .of_eq ?_
    unfold Heap.newTemplate
    split
    · split <;> rfl
    · rfl
  | addAccessor r name getter setter =>
    refine .of_eq ?_
    unfold Heap.addAccessor
    split <;> rfl
  | addMethod r name data =>
    refine .of_eq ?_
    unfold Heap.addMethod
    split <;> rfl
  | discardTemplate r => exact .of_eq rfl
  | instantiate r => exact .of_enlarges (enlarges_instantiateWithin hwf _ r hroom)
  | newInstance r t p ht hp => exact .allocate hwf hroom (.instanceOf r t p ht hp)

lemma Settling.passes (hs : h.Settling h') (hwf : h.WellFormed) (hroom : h'.Roomy) :
    h.Passes barred h' := by
  cases hs with
  | newPromise => exact .allocate hwf hroom (.promise _)
  | newResolver target => exact .allocate hwf hroom (.resolver target)
  | setPromise r state hp =>
    refine .modify (fun o ho => ?_) rfl
    obtain ⟨p, hb⟩ := hp o ho
    refine .of_body ?_ rfl rfl
    rw [hb]
    exact .promise _ _
  | enqueue | dequeue => exact .of_eq rfl

lemma Stride.passes (hs : Stride barred h h') (hwf : h.WellFormed) (hroom : h'.Roomy) :
    h.Passes barred h' := by
  cases hs with
  | move hm => exact hm.passes hwf hroom
  | settle hs => exact hs.passes hwf hroom
  | store r key value hkey hplan hs hfree =>
    have hl := h.discreetly_storeOwn r key value h' hs
    exact passes_storeOwn hkey hplan hs (hfree (hl.leads.roomy hroom))
  | pushScope => exact .of_eq h.pushScope_objects
  | popScope => exact .of_eq h.popScope_objects
  | collect => exact .collect h
  | drain => exact .drain h
  | wrap memory release => exact .allocate hwf hroom (.external memory release)
  | weaken slot hook => exact .of_eq (h.weaken_objects slot hook)
  | dispose slot => exact .of_eq rfl

lemma Strides.keeps {P : Heap → Prop}
    (hstep : ∀ a b : Heap, a.WellFormed → b.Roomy → Stride barred a b → P a → P b)
    (hl : h.Strides barred h') (hwf : h.WellFormed) (hroom : h'.Roomy) (hstart : P h) :
    P h' := by
  induction hl with
  | refl => exact hstart
  | @tail a b hrun hs ih =>
    have hroom' := hs.leads.roomy hroom
    exact hstep a b ((Strides.leads hrun).wellFormed hwf hroom') hroom hs (ih hroom')

end Heap

lemma Body.Becomes.plain_iff (hab : a.Becomes limit b) : b = .plain ↔ a = .plain := by
  cases hab <;> simp

-- Only plain objects have prototypes and accessors. No object has properties under the keys that
-- its body answers.
structure HeapObject.Tidy (o : HeapObject) : Prop where
  prototype : o.body ≠ .plain → o.prototype = none
  accessors : o.body ≠ .plain → ∀ key, o.Open key
  reserved : ∀ key, o.body.reserves key = true → o.own? key = none
  listed : Listed o.properties

namespace HeapObject

variable {o o' : HeapObject}

lemma Tidy.becomes (ht : o.Tidy) (hb : o.Becomes limit free o') : o'.Tidy := by
  have hplain : o'.body ≠ .plain → o.body ≠ .plain := mt hb.body.plain_iff.mpr
  refine ⟨fun hne => hb.prototype.trans (ht.prototype (hplain hne)), fun hne key => ?_,
    fun key hkey => ?_, hb.listed ht.listed⟩
  · rcases hb.own key with hsame | ⟨-, -, -, -, hopen⟩
    · exact fun p hp => ht.accessors (hplain hne) key p (hsame.symm.trans hp)
    · exact hopen
  · rw [hb.body.reserves] at hkey
    rcases hb.own key with hsame | ⟨-, hfree, -⟩
    · exact hsame.trans (ht.reserved key hkey)
    · exact absurd (hkey.symm.trans hfree) (by simp)

lemma Tidy.withElements (ht : o.Tidy) {elements : Array Value} (hb : o.body = .array elements)
    (elements' : Array Value) : Tidy { o with body := .array elements' } := by
  have hbecomes : o.Becomes elements'.size (fun _ => True) { o with body := .array elements' } := by
    refine .of_body ?_ rfl rfl
    rw [hb]
    exact .array _ _ (Nat.le_max_left ..)
  exact ht.becomes hbecomes

lemma open_of_data (hdata : ∀ p ∈ o.properties, ∃ v, p.slot = .data v) (key : Key) : o.Open key :=
  fun p hp => hdata p (List.mem_of_find?_eq_some hp)

lemma tidy_ofBody (body : Body) : (HeapObject.ofBody body).Tidy where
  prototype _ := rfl
  accessors _ := open_of_data (by simp [ofBody])
  reserved _ _ := rfl
  listed := listed_nil

lemma Novel.tidy (hn : o.Novel h) : o.Tidy := by
  have hdata : ∀ {body : Body} {properties : List Property},
      Stocked properties → (∀ key, body.reserves key = false) →
        ({ body, properties } : HeapObject).Tidy := fun hs hr =>
    ⟨fun _ => rfl, fun _ => open_of_data hs.data,
      fun key hkey => absurd ((hr key).symm.trans hkey) (by simp), hs.listed⟩
  cases hn with
  | simple ho =>
    cases ho with
    | plain _ hp | error _ hp | native _ _ hp => exact hdata hp fun _ => rfl
    | array | buffer => exact tidy_ofBody _
  | external | typedArray | dataView | promise | resolver => exact tidy_ofBody _
  | constructor r properties hp => exact hdata hp fun _ => rfl
  | instanceOf =>
    exact ⟨fun hne => absurd rfl hne, fun hne => absurd rfl hne, fun _ _ => rfl, listed_nil⟩
  | prototype _ _ hl =>
    exact ⟨fun hne => absurd rfl hne, fun hne => absurd rfl hne,
      fun _ hkey => absurd hkey (by simp [Body.reserves]), hl⟩

lemma Novel.fits (hn : o.Novel h) : o.body.Fits h := by
  cases hn with
  | typedArray _ hf | dataView _ hf => exact hf
  | simple ho => cases ho <;> trivial
  | _ => trivial

end HeapObject

namespace Heap

variable {barred : Heap → ObjectRef → Key → Prop} {h h' : Heap}

-- What holds of every heap an engine can have: objects are tidy, and views lie in their buffers.
structure Shapely (h : Heap) : Prop where
  tidy : ∀ r o, h.object? r = some o → o.Tidy
  typedArray : ∀ r view, h.typedArray? r = some view → view.Fits h
  dataView : ∀ r view, h.dataView? r = some view → view.Fits h

section Views

variable (h : Heap) (r : ObjectRef)

lemma contents?_eq_some_iff (bytes : Array UInt8) : h.contents? r = some bytes ↔
    ∃ o backing, h.object? r = some o ∧ o.body = .arrayBuffer backing ∧ backing.bytes = bytes := by
  unfold contents? body?
  cases h.object? r with
  | none => simp
  | some o => cases hb : o.body <;> simp [hb]

lemma typedArray?_eq_some_iff (view : TypedArrayView) :
    h.typedArray? r = some view ↔ ∃ o, h.object? r = some o ∧ o.body = .typedArray view := by
  unfold typedArray? body?
  cases h.object? r with
  | none => simp
  | some o => cases hb : o.body <;> simp [hb]

lemma dataView?_eq_some_iff (view : DataView) :
    h.dataView? r = some view ↔ ∃ o, h.object? r = some o ∧ o.body = .dataView view := by
  unfold dataView? body?
  cases h.object? r with
  | none => simp
  | some o => cases hb : o.body <;> simp [hb]

end Views

lemma Shapely.of_fits (ho : ∀ r o, h.object? r = some o → o.Tidy ∧ o.body.Fits h) : h.Shapely := by
  refine ⟨fun r o hr => (ho r o hr).1, fun r view hview => ?_, fun r view hview => ?_⟩
  · obtain ⟨o, hr, hb⟩ := (typedArray?_eq_some_iff h r view).mp hview
    simpa [Body.Fits, hb] using (ho r o hr).2
  · obtain ⟨o, hr, hb⟩ := (dataView?_eq_some_iff h r view).mp hview
    simpa [Body.Fits, hb] using (ho r o hr).2

lemma Shapely.fits (hs : h.Shapely) (ho : h.object? r = some o) : o.body.Fits h := by
  cases hb : o.body with
  | typedArray view => exact hs.typedArray r view ((typedArray?_eq_some_iff h r view).mpr ⟨o, ho, hb⟩)
  | dataView view => exact hs.dataView r view ((dataView?_eq_some_iff h r view).mpr ⟨o, ho, hb⟩)
  | _ => trivial

namespace Passes

variable (hp : h.Passes barred h')

include hp

lemma becomes (ho : h.object? r = some o) (ho' : h'.object? r = some o') :
    o.Becomes h.limits.maxArrayLength (fun key => ¬ barred h r key) o' := by
  rcases hp.object r o' ho' with ⟨before, hbefore, hb⟩ | ⟨hnone, -⟩
  · obtain rfl := Option.some.inj (hbefore.symm.trans ho)
    exact hb
  · exact absurd (hnone.symm.trans ho) (by simp)

lemma keeps_referred (ho : h.object? x = some o) (ho' : h'.object? x = some o') (hr : o.Refers r)
    (halive : h.isAlive r = true) : h'.isAlive r = true := by
  obtain ⟨target, htarget⟩ := (isAlive_iff h r).mp halive
  rcases hp.alive with hall | rfl
  · obtain ⟨after, hafter⟩ := hall r target htarget
    exact isAlive_of_object? _ r after hafter
  · obtain ⟨-, hreach⟩ := (isAlive_collect_iff h x).mp (isAlive_of_object? _ x o' ho')
    exact (isAlive_collect_iff h r).mpr ⟨halive, .edge x r o hreach ho hr⟩

lemma keeps_beside (hnew : h.object? x = none) (ho' : h'.object? x = some o')
    (halive : h.isAlive r = true) : h'.isAlive r = true := by
  obtain ⟨target, htarget⟩ := (isAlive_iff h r).mp halive
  rcases hp.alive with hall | rfl
  · obtain ⟨after, hafter⟩ := hall r target htarget
    exact isAlive_of_object? _ r after hafter
  · rw [object?_collect, hnew] at ho'
    cases ho'

lemma contents (hc : h.contents? r = some bytes) (halive : h'.isAlive r = true) :
    ∃ bytes', h'.contents? r = some bytes' ∧ bytes'.size = bytes.size := by
  obtain ⟨o, backing, ho, hb, rfl⟩ := (contents?_eq_some_iff h r bytes).mp hc
  obtain ⟨o', ho'⟩ := (isAlive_iff h' r).mp halive
  have hbody := (hp.becomes ho ho').body
  rw [hb] at hbody
  generalize hb' : o'.body = body' at hbody
  cases hbody with
  | same => exact ⟨_, (contents?_eq_some_iff h' r _).mpr ⟨o', backing, ho', hb', rfl⟩, rfl⟩
  | buffer _ after hsize =>
    exact ⟨_, (contents?_eq_some_iff h' r _).mpr ⟨o', after, ho', hb', rfl⟩, hsize⟩

lemma fits (hf : o.body.Fits h)
    (halive : ∀ r, o.Refers r → h.isAlive r = true → h'.isAlive r = true) : o.body.Fits h' := by
  cases hb : o.body with
  | typedArray view =>
    rw [hb] at hf
    obtain ⟨bytes, hc, haligned, hrange, hword⟩ := hf
    obtain ⟨bytes', hc', hsize⟩ :=
      hp.contents hc (halive _ (.typedArray view hb) (isAlive_of_contents? h _ _ hc))
    exact ⟨bytes', hc', haligned, hsize ▸ hrange, hword⟩
  | dataView view =>
    rw [hb] at hf
    obtain ⟨bytes, hc, hrange, hword⟩ := hf
    obtain ⟨bytes', hc', hsize⟩ :=
      hp.contents hc (halive _ (.dataView view hb) (isAlive_of_contents? h _ _ hc))
    exact ⟨bytes', hc', hsize ▸ hrange, hword⟩
  | _ => trivial

lemma shapely (hs : h.Shapely) : h'.Shapely := by
  refine .of_fits fun r o' ho' => ?_
  rcases hp.object r o' ho' with ⟨o, ho, hb⟩ | ⟨hnone, hnew⟩
  · refine ⟨(hs.tidy r o ho).becomes hb, ?_⟩
    have hf := hp.fits (hs.fits ho) fun _ => hp.keeps_referred ho ho'
    have hbody := hb.body
    generalize o.body = body, o'.body = body' at hbody hf ⊢
    cases hbody with
    | same => exact hf
    | _ => trivial
  · exact ⟨hnew.tidy, hp.fits hnew.fits fun _ _ => hp.keeps_beside hnone ho'⟩

end Passes

lemma shapely_fresh (limits : HeapLimits) : (fresh limits).Shapely := by
  refine .of_fits fun r o ho => ?_
  rcases ({ limits } : Heap).object?_allocate (.ofBody .plain) r o ho with rfl | hnone
  · exact ⟨HeapObject.tidy_ofBody _, trivial⟩
  · exact absurd hnone (by simp [object?, Arena.get?])

lemma Strides.shapely {limits : HeapLimits} (hl : (fresh limits).Strides barred h)
    (hroom : h.Roomy) : h.Shapely := by
  have hwf : (fresh limits).WellFormed :=
    (grown_fresh limits).wellFormed (hl.leads.roomy hroom)
  exact hl.keeps (fun a b hwf hroom hs => (hs.passes hwf hroom).shapely) hwf hroom
    (shapely_fresh limits)

end Heap

end HostBoundary
