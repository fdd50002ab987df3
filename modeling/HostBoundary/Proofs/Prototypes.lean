import HostBoundary.Proofs.ClassRegistration
import HostBoundary.Proofs.Evaluation
import HostBoundary.Proofs.Shapes

namespace HostBoundary

variable {property : Option Property} {r : TemplateRef} {t t' : Template} {o : HeapObject}

inductive Template.Member where
  | method (data : CallbackData)
  | accessor (getter setter : Option CallbackData)

namespace Template

-- The last method of that name, or else the first accessor.
def member? (t : Template) (name : String) : Option Member :=
  ((t.methods.reverse.find? (·.1 = name)).map (Member.method ·.2)).or
    ((t.accessors.find? (·.1 = name)).map fun a => .accessor a.2.1 a.2.2)

-- What a template can turn into while it is there. Once it has been used it stays as it is.
structure Becomes (t t' : Template) : Prop where
  parent : t'.parent = t.parent
  used : t.function.isSome → t' = t

lemma Becomes.refl (t : Template) : t.Becomes t := ⟨rfl, fun _ => rfl⟩

lemma Becomes.trans {a b c : Template} (hab : a.Becomes b) (hbc : b.Becomes c) : a.Becomes c where
  parent := hbc.parent.trans hab.parent
  used ha := by
    obtain rfl := hab.used ha
    exact hbc.used ha

end Template

namespace Arena

variable {store : Store} {α : Type} {a : Arena store α} {x y : α} {r : SlotRef store}

lemma position_lt_of_get? (hr : a.get? r = some y) : r.position < a.slots.size := by
  obtain ⟨slot, hs, -⟩ := (get?_eq_some_iff a r y).mp hr
  exact (Array.getElem?_eq_some_iff.mp hs).1

lemma get?_of_append (hr : (a.append x).2.get? r = some y) :
    a.get? r = some y ∨ r.position = a.slots.size ∧ y = x := by
  obtain ⟨slot, hs, hc, he⟩ := (get?_eq_some_iff _ r y).mp hr
  rw [slots_append] at hs
  split at hs
  · rename_i hp
    obtain rfl := Option.some.inj hs
    exact .inr ⟨hp, (Option.some.inj he).symm⟩
  · exact .inl ((get?_eq_some_iff a r y).mpr ⟨slot, hs, hc, he⟩)

end Arena

namespace Heap

variable {barred : Heap → ObjectRef → Key → Prop} {guarded : ObjectRef → Key → Prop} {h h' : Heap}

-- What stands on a prototype where a class declares a member. A method is a function that is there.
inductive Installed (h : Heap) : Option Template.Member → Option Property → Prop where
  | nothing : h.Installed none none
  | method (data : CallbackData) (p : Property) (f : ObjectRef) (o : HeapObject)
      (hp : p.slot = .data (.object f)) (ho : h.object? f = some o)
      (hb : o.body = .function (.native data)) : h.Installed (some (.method data)) (some p)
  | accessor (getter setter : Option CallbackData) (p : Property)
      (hp : p.slot = .accessor getter setter) :
      h.Installed (some (.accessor getter setter)) (some p)

lemma Installed.mono {member : Option Template.Member}
    (hi : h.Installed member property)
    (hkept : ∀ p f o, property = some p → p.slot = .data (.object f) → h.object? f = some o →
      ∃ o', h'.object? f = some o' ∧ o.body.Becomes h.limits.maxArrayLength o'.body) :
    h'.Installed member property := by
  cases hi with
  | nothing => exact .nothing
  | method data p f o hp ho hb =>
    obtain ⟨o', ho', hbody⟩ := hkept p f o rfl hp ho
    refine .method data p f o' hp ho' ?_
    rw [hb] at hbody
    generalize o'.body = body at hbody
    cases hbody
    rfl
  | accessor getter setter p hp => exact .accessor getter setter p hp

lemma Enlarges.installed {new : HeapObject → Prop} (he : Enlarges new h h')
    {member : Option Template.Member} (hi : h.Installed member property) :
    h'.Installed member property :=
  hi.mono fun _ f o _ _ ho => ⟨o, he.kept f o ho, .same _⟩

section Building

variable {r : TemplateRef} {t : Template} {parent : Option ObjectRef} {f p : ObjectRef}

lemma templates_installMethods (h : Heap) (prototype : HeapObject)
    (methods : List (String × CallbackData)) :
    (h.installMethods prototype methods).2.templates = h.templates := by
  induction methods generalizing h prototype with
  | nil => rfl
  | cons method rest ih => exact (ih _ _).trans (allocate_templates _ _)

lemma installed_installMethods (hwf : h.WellFormed) (prototype : HeapObject)
    (methods : List (String × CallbackData)) (hroom : (h.installMethods prototype methods).2.Roomy)
    {name : String} {member : Option Template.Member}
    (hi : h.Installed member (prototype.own? (.ofName name))) :
    (h.installMethods prototype methods).2.Installed
      (((methods.reverse.find? (·.1 = name)).map (Template.Member.method ·.2)).or member)
      ((h.installMethods prototype methods).1.own? (.ofName name)) := by
  induction methods generalizing h prototype member with
  | nil => exact hi
  | cons method rest ih =>
    have hl := h.leads_allocate (functionObject (.native method.2) method.1)
    have hmade := (discreetly_installMethods _ _ rest).leads.roomy hroom
    obtain ⟨hadds, hself, -⟩ :=
      adds_allocate hwf (hl.roomy hmade) (functionObject (.native method.2) method.1)
    generalize hf : h.allocate (functionObject (.native method.2) method.1) = made
      at hl hmade hadds hself
    have hnext : made.2.Installed
        ((([method].find? (·.1 = name)).map (Template.Member.method ·.2)).or member)
        ((prototype.define (.ofName method.1) (.object made.1) false).own? (.ofName name)) := by
      by_cases hname : method.1 = name
      · obtain ⟨shown, hown⟩ :=
          HeapObject.own?_define_self (.ofName method.1) (.object made.1) false prototype
        rw [← hname, hown]
        simpa using Installed.method method.2 _ made.1 _ rfl hself rfl
      · rw [HeapObject.own?_define_ne _ _ _ _ _ fun heq => hname (Key.ofName_injective heq).symm]
        simpa [hname] using hi.mono fun _ f o _ _ ho => ⟨o, hadds.object f o ho, .same _⟩
    have hinstall : h.installMethods prototype (method :: rest) =
        made.2.installMethods (prototype.define (.ofName method.1) (.object made.1) false) rest := by
      rw [installMethods, hf]
    rw [hinstall] at hroom ⊢
    rw [List.reverse_cons, List.find?_append, Option.map_or, Option.or_assoc]
    exact ih hadds.wellFormed _ hroom hnext

lemma installed_bareObject (h : Heap) (t : Template) (parent : Option ObjectRef) (name : String) :
    h.Installed ((t.accessors.find? (·.1 = name)).map fun a => .accessor a.2.1 a.2.2)
      ((t.bareObject parent).own? (.ofName name)) := by
  have hown : (t.bareObject parent).own? (.ofName name) =
      (t.accessors.find? (·.1 = name)).map fun a => ⟨.ofName a.1, .accessor a.2.1 a.2.2, false⟩ := by
    simp only [HeapObject.own?, Template.bareObject, List.find?_map]
    congr 2
    funext a
    simp [Key.ofName_injective.eq_iff]
  rw [hown]
  cases t.accessors.find? (·.1 = name) with
  | none => exact .nothing
  | some a => exact .accessor _ _ _ rfl

lemma template?_build (hb : h.build r t parent = ((f, p), h')) (s : TemplateRef) :
    h'.template? s =
      if s = r then (h.template? s).map ({ · with function := some f, prototype := some p })
      else h.template? s := by
  cases hi : h.installMethods (t.bareObject parent) t.methods with
  | mk object h₁ =>
    have htemplates := h.templates_installMethods (t.bareObject parent) t.methods
    rw [hi] at htemplates
    dsimp only at htemplates
    rw [build_of_installed hi] at hb
    obtain ⟨hpair, rfl⟩ := Prod.mk.inj hb
    obtain ⟨rfl, rfl⟩ := Prod.mk.inj hpair
    rw [template?_modifyTemplate]
    simp only [template?, modifyObject, allocate_templates, htemplates]

-- A class is built: its constructor function and its prototype, which has the members.
lemma build_objects (hwf : h.WellFormed) (hb : h.build r t parent = ((f, p), h'))
    (hroom : h'.Roomy) :
    (∃ o, h'.object? f = some o ∧ o.body = .function (.template r)) ∧
      ∃ o, h'.object? p = some o ∧ o.body = .plain ∧ o.prototype = parent ∧
        ∀ name, name ≠ "constructor" → h'.Installed (t.member? name) (o.own? (.ofName name)) := by
  obtain ⟨properties, hobject, -⟩ := h.prototype_installMethods (t.bareObject parent) t.methods
  have hleads := (h.discreetly_installMethods (t.bareObject parent) t.methods).leads
  have hinstalled := installed_installMethods (h := h) hwf (t.bareObject parent) t.methods
  cases hi : h.installMethods (t.bareObject parent) t.methods with
  | mk object h₁ =>
    rw [hi] at hobject hleads hinstalled
    rw [build_of_installed hi] at hb
    obtain ⟨hpair, rfl⟩ := Prod.mk.inj hb
    obtain ⟨rfl, rfl⟩ := Prod.mk.inj hpair
    dsimp only at hobject hleads hinstalled hroom ⊢
    generalize hc : t.constructorObject r (h₁.allocate object).1 = function at hroom ⊢
    have hroom₃ : ((h₁.allocate object).2.allocate function).2.Roomy := by
      simpa [Roomy, modifyTemplate, modifyObject, Arena.modify] using hroom
    have hroom₂ := (leads_allocate _ _).roomy hroom₃
    have hroom₁ := (leads_allocate _ _).roomy hroom₂
    obtain ⟨hadds, hself, -⟩ := adds_allocate (hleads.wellFormed hwf hroom₁) hroom₁ object
    obtain ⟨hadds', hself', hfresh⟩ := adds_allocate hadds.wellFormed hroom₂ function
    generalize h₁.allocate object = made at hadds hself hroom₂ hroom₃ hadds' hself' hfresh hc ⊢
    generalize made.2.allocate function = done at hadds' hself' hfresh hroom₃ ⊢
    have hne : done.1 ≠ made.1 := by
      intro heq
      rw [heq, hself] at hfresh
      cases hfresh
    -- The template apart, only the prototype changes after this.
    have hobjects : ∀ s, ((done.2.modifyObject made.1
        (·.defineHidden "constructor" (.object done.1))).modifyTemplate r
          ({ · with function := some done.1, prototype := some made.1 })).object? s =
        if s = made.1 then (done.2.object? s).map (·.defineHidden "constructor" (.object done.1))
        else done.2.object? s := fun s => object?_modifyObject done.2 made.1 s _
    refine ⟨⟨function, by rw [hobjects, if_neg hne, hself'], by rw [← hc]; rfl⟩,
      object.defineHidden "constructor" (.object done.1), ?_, ?_, ?_, fun name hname => ?_⟩
    · rw [hobjects, if_pos rfl, hadds'.object _ _ hself]
      rfl
    · rw [hobject]
      rfl
    · rw [hobject]
      rfl
    · have hother : Key.ofName name ≠ .name "constructor" := fun heq =>
        hname (Key.ofName_injective (heq.trans (by decide : Key.name "constructor" = .ofName "constructor")))
      rw [HeapObject.defineHidden, HeapObject.own?_define_ne _ _ _ _ _ hother]
      refine (hinstalled hroom₁ (h.installed_bareObject t parent name)).mono fun q g o _ _ ho => ?_
      have hdone := hadds'.object g o (hadds.object g o ho)
      rw [hobjects]
      split
      · exact ⟨o.defineHidden "constructor" (.object done.1), by rw [hdone]; rfl, .same _⟩
      · exact ⟨o, hdone, .same _⟩

end Building

-- A class that has been used: its constructor function and its prototype, which continues with the
-- prototype of the parent. Under a guarded key it has what the class declares and nothing else.
structure Crafted (guarded : ObjectRef → Key → Prop) (h : Heap) (r : TemplateRef) (t : Template)
    (f p : ObjectRef) : Prop where
  function : ∃ o, h.object? f = some o ∧ o.body = .function (.template r)
  prototype : ∃ o, h.object? p = some o ∧ o.body = .plain ∧
    (∀ q t', t.parent = some q → h.template? q = some t' →
      ∃ above, t'.prototype = some above ∧ o.prototype = some above) ∧
    ∀ name, name ≠ "constructor" → guarded p (.ofName name) →
      h.Installed (t.member? name) (o.own? (.ofName name))

-- What holds of the classes of every heap. A parent is older than its children, and a class gets
-- its function and its prototype at once.
structure Classed (guarded : ObjectRef → Key → Prop) (h : Heap) : Prop where
  older : ∀ r t q, h.template? r = some t → t.parent = some q → q.position < r.position
  paired : ∀ r t, h.template? r = some t → (t.function = none ↔ t.prototype = none)
  crafted : ∀ r t f p, h.template? r = some t → t.function = some f → t.prototype = some p →
    h.Crafted guarded r t f p

lemma Classed.unused (hc : h.Classed guarded) (ht : h.template? r = some t)
    (hnew : ∀ f p, t.function = some f → t.prototype = some p → False) : t.function = none := by
  cases hf : t.function with
  | none => rfl
  | some f =>
    cases hp : t.prototype with
    | none => exact absurd (((hc.paired r t ht).mpr hp).symm.trans hf) (by simp)
    | some p => exact (hnew f p hf hp).elim

-- No class is built: templates go, or get members before they are used, or are new.
def Conserves (h h' : Heap) : Prop :=
  ∀ r t', h'.template? r = some t' →
    (∃ t, h.template? r = some t ∧ t.Becomes t' ∧ t'.function = t.function ∧
      t'.prototype = t.prototype) ∨
    h.templates.slots.size ≤ r.position ∧ t'.Blank ∧
      ∀ q, t'.parent = some q → q.position < h.templates.slots.size

namespace Conserves

lemma of_eq (heq : h'.templates = h.templates) : h.Conserves h' := by
  intro r t ht
  rw [template?, heq] at ht
  exact .inl ⟨t, ht, .refl t, rfl, rfl⟩

lemma discardTemplate (h : Heap) (r : TemplateRef) : h.Conserves (h.discardTemplate r) := by
  intro s t ht
  simp only [template?, Heap.discardTemplate, Arena.get?_retire, Option.ite_none_left_eq_some] at ht
  exact .inl ⟨t, ht.2, .refl t, rfl, rfl⟩

lemma newTemplate (h : Heap) (t : Template) (ht : t.Blank) : h.Conserves (h.newTemplate t).2 := by
  have hadd : (∀ q, t.parent = some q → (h.template? q).isSome = true) →
      h.Conserves (h.addTemplate t).2 := by
    intro hparent r t' ht'
    rcases Arena.get?_of_append ht' with hold | ⟨hposition, rfl⟩
    · exact .inl ⟨t', hold, .refl t', rfl, rfl⟩
    · refine .inr ⟨hposition.ge, ht, fun q hq => ?_⟩
      obtain ⟨above, habove⟩ := Option.isSome_iff_exists.mp (hparent q hq)
      exact Arena.position_lt_of_get? habove
  cases hparent : t.parent with
  | none =>
    simp only [Heap.newTemplate, hparent]
    exact hadd fun q hq => absurd (hparent.symm.trans hq) (by simp)
  | some parent =>
    simp only [Heap.newTemplate, hparent]
    split
    · rename_i hthere
      refine hadd fun q hq => ?_
      rwa [← Option.some.inj (hparent.symm.trans hq)]
    · exact .of_eq rfl

lemma modifyTemplate {name : String} (ha : h.acceptsMember r name = true)
    {change : Template → Template} (hparent : ∀ t, (change t).parent = t.parent)
    (hfunction : ∀ t, (change t).function = t.function)
    (hprototype : ∀ t, (change t).prototype = t.prototype) :
    h.Conserves (h.modifyTemplate r change) := by
  intro s t' ht'
  rw [template?_modifyTemplate] at ht'
  split at ht'
  · rename_i hs
    subst hs
    obtain ⟨t, ht, rfl⟩ := Option.map_eq_some_iff.mp ht'
    have hopen : t.function = none := by
      simp only [acceptsMember, ht, Bool.and_eq_true, Option.isNone_iff_eq_none] at ha
      exact ha.1
    refine .inl ⟨t, ht, ⟨hparent t, fun hused => ?_⟩, hfunction t, hprototype t⟩
    simp [hopen] at hused
  · exact .inl ⟨t', ht', .refl t', rfl, rfl⟩

end Conserves

lemma Move.conserves (hm : h.Move h') : h.Conserves h' ∨ ∃ r, h' = (h.instantiate r).2 := by
  cases hm with
  | root | target | persist | create | newInstance => exact .inl (.of_eq (by simp))
  | hold r =>
    refine .inl (.of_eq ?_)
    unfold Heap.hold
    split <;> rename_i heq
    · rw [weaken_templates, ← h.persist_templates r, heq]
    · rw [← h.persist_templates r, heq]
  | assign r i word =>
    refine .inl (.of_eq ?_)
    unfold setField
    split <;> rfl
  | typedArray kind buffer byteOffset length =>
    refine .inl (.of_eq ?_)
    by_cases hf : TypedArrayView.Fits h ⟨kind, buffer, byteOffset, length⟩
    · rw [newTypedArray_of_fits hf, allocate_templates]
    · rw [newTypedArray_of_not_fits hf]
  | dataView buffer byteOffset byteLength =>
    refine .inl (.of_eq ?_)
    by_cases hf : DataView.Fits h ⟨buffer, byteOffset, byteLength⟩
    · rw [newDataView_of_fits hf, allocate_templates]
    · rw [newDataView_of_not_fits hf]
  | write r offset bytes =>
    refine .inl (.of_eq ?_)
    unfold writeContents
    repeat' split
    all_goals rfl
  | newTemplate t ht => exact .inl (.newTemplate h t ht)
  | addAccessor r name getter setter =>
    left
    unfold Heap.addAccessor
    split
    · rename_i ha
      exact .modifyTemplate ha (fun _ => rfl) (fun _ => rfl) fun _ => rfl
    · exact .of_eq rfl
  | addMethod r name data =>
    left
    unfold Heap.addMethod
    split
    · rename_i ha
      exact .modifyTemplate ha (fun _ => rfl) (fun _ => rfl) fun _ => rfl
    · exact .of_eq rfl
  | discardTemplate r => exact .inl (.discardTemplate h r)
  | instantiate r => exact .inr ⟨r, rfl⟩

lemma templates_storeOwn {r : ObjectRef} {key : Key} {value : Value}
    (hs : h.storeOwn r key value = some h') : h'.templates = h.templates := by
  unfold storeOwn at hs
  split at hs
  · rw [Option.some.inj hs]
  · split at hs
    · split at hs
      · cases hs
      · rw [← Option.some.inj hs]
        rfl
    · obtain ⟨length, -, rfl⟩ := Option.map_eq_some_iff.mp hs
      rfl
    · rw [← Option.some.inj hs, storeElement]
      split <;> rfl
    · rw [← Option.some.inj hs]
      rfl

lemma Stride.conserves (hs : Stride barred h h') :
    h.Conserves h' ∨ ∃ r, h' = (h.instantiate r).2 := by
  cases hs with
  | move hm => exact hm.conserves
  | settle hs =>
    refine .inl (.of_eq ?_)
    cases hs with
    | newPromise => simp [Heap.newPromise]
    | newResolver => simp
    | setPromise | enqueue | dequeue => rfl
  | store r key value _ _ hs _ => exact .inl (.of_eq (templates_storeOwn hs))
  | pushScope | popScope | weaken => exact .inl (.of_eq (by simp))
  | collect => exact .inl (.of_eq (by simp [collect_eq]))
  | drain | dispose => exact .inl (.of_eq rfl)
  | wrap memory release => exact .inl (.of_eq (by simp [newExternalBuffer]))

lemma Passes.survives (hp : h.Passes barred h') {r : ObjectRef} (ho : h.object? r = some o)
    (hr : h.Root r) :
    ∃ o', h'.object? r = some o' ∧
      o.Becomes h.limits.maxArrayLength (fun key => ¬ barred h r key) o' := by
  have halive := isAlive_of_object? h r o ho
  have hafter : ∃ o', h'.object? r = some o' := by
    rcases hp.alive with hall | rfl
    · exact hall r o ho
    · exact (isAlive_iff _ r).mp ((isAlive_collect_iff h r).mpr ⟨halive, .root r hr⟩)
  obtain ⟨o', ho'⟩ := hafter
  exact ⟨o', ho', hp.becomes ho ho'⟩

lemma Conserves.classed (hk : h.Conserves h') (hp : h.Passes (fun _ => guarded) h')
    (hc : h.Classed guarded) : h'.Classed guarded := by
  refine ⟨fun r t' q ht' hq => ?_, fun r t' ht' => ?_, fun r t' f p ht' hf hprototype => ?_⟩
  · rcases hk r t' ht' with ⟨t, ht, hb, -⟩ | ⟨hposition, -, hparent⟩
    · exact hc.older r t q ht (hb.parent.symm.trans hq)
    · exact Nat.lt_of_lt_of_le (hparent q hq) hposition
  · rcases hk r t' ht' with ⟨t, ht, -, hfunction, hprototype⟩ | ⟨-, hblank, -⟩
    · rw [hfunction, hprototype]
      exact hc.paired r t ht
    · exact iff_of_true hblank.function hblank.prototype
  · rcases hk r t' ht' with ⟨t, ht, hb, hfunction, -⟩ | ⟨-, hblank, -⟩
    · obtain rfl := hb.used (by rw [← hfunction, hf]; rfl)
      obtain ⟨⟨of, hof, hbody⟩, op, hop, hplain, hinherits, hmembers⟩ :=
        hc.crafted r t' f p ht hf hprototype
      have hentry := Arena.mem_entries_of_get? h.templates r t' ht
      obtain ⟨of', hof', hbf⟩ := hp.survives hof (.templateFunction t' f hentry hf)
      obtain ⟨op', hop', hbp⟩ := hp.survives hop (.templatePrototype t' p hentry hprototype)
      refine ⟨⟨of', hof', ?_⟩, op', hop', hbp.body.plain_iff.mpr hplain, fun q tq' hq htq' => ?_,
        fun name hname hguarded => ?_⟩
      · have hbody' := hbf.body
        rw [hbody] at hbody'
        generalize of'.body = body at hbody'
        cases hbody'
        rfl
      · rcases hk q tq' htq' with ⟨tq, htq, -, -, hsame⟩ | ⟨hposition, -⟩
        · obtain ⟨above, habove, hcontinues⟩ := hinherits q tq hq htq
          exact ⟨above, hsame.trans habove, hbp.prototype.trans hcontinues⟩
        · have holder := hc.older r t' q ht hq
          have hlt := Arena.position_lt_of_get? ht
          omega
      · rcases hbp.own (.ofName name) with hown | ⟨hfree, -⟩
        · rw [hown]
          refine (hmembers name hname hguarded).mono fun property g og hproperty hslot hog => ?_
          have hrefers : op.Refers g :=
            .property property g (List.mem_of_find?_eq_some hproperty) hslot
          have halive := hp.keeps_referred hop hop' hrefers (isAlive_of_object? h g og hog)
          obtain ⟨og', hog'⟩ := (isAlive_iff h' g).mp halive
          exact ⟨og', hog', (hp.becomes hog hog').body⟩
        · exact absurd hguarded hfree
    · exact absurd (hblank.function.symm.trans hf) (by simp)

-- What using a class comes to. It and its ancestors are built unless they have been, and younger
-- classes are left alone.
structure Unfolds (guarded : ObjectRef → Key → Prop) (h : Heap) (r : TemplateRef)
    (pair : Option (ObjectRef × ObjectRef)) (h' : Heap) : Prop where
  classed : h'.Classed guarded
  younger : ∀ s : TemplateRef, r.position < s.position → h'.template? s = h.template? s
  becomes : ∀ s t', h'.template? s = some t' → ∃ t, h.template? s = some t ∧ t.Becomes t'
  given : ∀ f p, pair = some (f, p) →
    ∃ t, h'.template? r = some t ∧ t.function = some f ∧ t.prototype = some p

section Unfolding

variable {r : TemplateRef} {t : Template} {parent : Option ObjectRef} {f p : ObjectRef}

lemma Unfolds.refl (hc : h.Classed guarded) : h.Unfolds guarded r none h where
  classed := hc
  younger _ _ := rfl
  becomes _ t' ht' := ⟨t', ht', .refl t'⟩
  given _ _ hpair := absurd hpair (by simp)

lemma unfolds_build (hc : h.Classed guarded) (hwf : h.WellFormed)
    (ht : h.template? r = some t) (hnew : t.function = none)
    (hparent : ∀ q t', t.parent = some q → h.template? q = some t' →
      ∃ above, t'.prototype = some above ∧ parent = some above)
    (hb : h.build r t parent = ((f, p), h')) (hroom : h'.Roomy) :
    h.Unfolds guarded r (some (f, p)) h' := by
  have htemplate := template?_build hb
  have hbuilt := build_objects hwf hb hroom
  have henlarges := enlarges_build h hwf r t parent
  rw [hb] at henlarges
  replace henlarges := henlarges hroom
  have hself : h'.template? r = some { t with function := some f, prototype := some p } := by
    rw [htemplate, if_pos rfl, ht]
    rfl
  have hother : ∀ s, s ≠ r → h'.template? s = h.template? s := fun s hs => by rw [htemplate, if_neg hs]
  refine ⟨⟨fun s t' q ht' hq => ?_, fun s t' ht' => ?_, fun s t' g x ht' hg hx => ?_⟩, fun s hs => ?_,
    fun s t' ht' => ?_, ?_⟩
  · by_cases hs : s = r
    · subst hs
      obtain rfl := Option.some.inj (hself.symm.trans ht')
      exact hc.older s t q ht hq
    · exact hc.older s t' q (hother s hs ▸ ht') hq
  · by_cases hs : s = r
    · subst hs
      obtain rfl := Option.some.inj (hself.symm.trans ht')
      simp
    · exact hc.paired s t' (hother s hs ▸ ht')
  · by_cases hs : s = r
    · subst hs
      obtain rfl := Option.some.inj (hself.symm.trans ht')
      obtain rfl := Option.some.inj hg
      obtain rfl := Option.some.inj hx
      obtain ⟨hfunction, o, ho, hplain, hprototype, hmembers⟩ := hbuilt
      refine ⟨hfunction, o, ho, hplain, fun q tq hq htq => ?_, fun name hname _ => hmembers name hname⟩
      have hne : q ≠ s := by
        rintro rfl
        exact Nat.lt_irrefl _ (hc.older q t q ht hq)
      rw [hprototype]
      exact hparent q tq hq (hother q hne ▸ htq)
    · rw [hother s hs] at ht'
      obtain ⟨⟨og, hog, hbody⟩, ox, hox, hplain, hinherits, hmembers⟩ := hc.crafted s t' g x ht' hg hx
      refine ⟨⟨og, henlarges.kept g og hog, hbody⟩, ox, henlarges.kept x ox hox, hplain,
        fun q tq hq htq => ?_, fun name hname hguarded => henlarges.installed (hmembers name hname hguarded)⟩
      -- A class that was there already has a parent that was there already.
      have hne : q ≠ r := by
        rintro rfl
        obtain ⟨above, habove, -⟩ := hinherits q t hq ht
        exact absurd (habove.symm.trans ((hc.paired q t ht).mp hnew)) (by simp)
      exact hinherits q tq hq (hother q hne ▸ htq)
  · exact hother s fun heq => Nat.lt_irrefl _ (heq ▸ hs)
  · by_cases hs : s = r
    · subst hs
      obtain rfl := Option.some.inj (hself.symm.trans ht')
      exact ⟨t, ht, rfl, fun hused => by simp [hnew] at hused⟩
    · exact ⟨t', hother s hs ▸ ht', .refl t'⟩
  · intro g x hpair
    obtain ⟨rfl, rfl⟩ := Prod.mk.inj (Option.some.inj hpair)
    exact ⟨_, hself, rfl, rfl⟩

-- A class is built after its ancestors, which changes nothing about younger ones.
lemma Unfolds.after {h₁ : Heap} {q : TemplateRef} {above : Option (ObjectRef × ObjectRef)}
    {pair : Option (ObjectRef × ObjectRef)} (ha : h.Unfolds guarded q above h₁)
    (hb : h₁.Unfolds guarded r pair h') (hq : q.position < r.position) : h.Unfolds guarded r pair h' where
  classed := hb.classed
  younger s hs := (hb.younger s hs).trans (ha.younger s (Nat.lt_trans hq hs))
  becomes s t' ht' := by
    obtain ⟨t₁, ht₁, hlate⟩ := hb.becomes s t' ht'
    obtain ⟨t, ht, hearly⟩ := ha.becomes s t₁ ht₁
    exact ⟨t, ht, hearly.trans hlate⟩
  given := hb.given

lemma unfolds_instantiateWithin (steps : Nat) (hc : h.Classed guarded) (hwf : h.WellFormed)
    (hroom : (instantiateWithin steps h r).2.Roomy) :
    h.Unfolds guarded r (instantiateWithin steps h r).1 (instantiateWithin steps h r).2 := by
  fun_induction instantiateWithin steps h r with
  | case1 | case2 => exact .refl hc
  | case3 steps h r t ht f p hp hf =>
    refine ⟨hc, fun _ _ => rfl, fun _ t' ht' => ⟨t', ht', .refl t'⟩, fun g x hpair => ?_⟩
    obtain ⟨rfl, rfl⟩ := Prod.mk.inj (Option.some.inj hpair)
    exact ⟨t, ht, hf, hp⟩
  | case4 steps h r t ht hparent pair h' hbuild hnew =>
    refine unfolds_build hc hwf ht (hc.unused ht hnew) (fun q _ hq => ?_) hbuild hroom
    exact absurd (hparent.symm.trans hq) (by simp)
  | case5 steps h r t ht parent hparent h' hnone _ ih =>
    rw [hnone] at ih
    have habove := ih hc hwf hroom
    exact habove.after (.refl habove.classed) (hc.older r t parent ht hparent)
  | case6 steps h r t ht parent hparent f inherited h₁ hsome pair h' hbuild hnew ih =>
    have holder := hc.older r t parent ht hparent
    have hfirst := (h.discreetly_instantiateWithin steps parent).leads
    have hlast := (h₁.discreetly_build r t (some inherited)).leads
    rw [hsome] at ih hfirst
    rw [hbuild] at hlast
    have hroom₁ := hlast.roomy hroom
    have habove := ih hc hwf hroom₁
    refine habove.after (unfolds_build habove.classed (hfirst.wellFormed hwf hroom₁)
      ((habove.younger r holder).trans ht) (hc.unused ht hnew) (fun q tq hq htq => ?_) hbuild hroom) holder
    obtain ⟨tp, htp, -, hprototype⟩ := habove.given f inherited rfl
    obtain rfl := Option.some.inj (hparent.symm.trans hq)
    rw [← Option.some.inj (htp.symm.trans htq)]
    exact ⟨inherited, hprototype, rfl⟩

end Unfolding

section Runs

lemma Stride.classed (hs : Stride (fun _ => guarded) h h') (hwf : h.WellFormed)
    (hroom : h'.Roomy) (hc : h.Classed guarded) : h'.Classed guarded := by
  rcases hs.conserves with hk | ⟨r, rfl⟩
  · exact hk.classed (hs.passes hwf hroom) hc
  · exact (unfolds_instantiateWithin _ hc hwf hroom).classed

lemma Strides.classed (guarded : ObjectRef → Key → Prop) {limits : HeapLimits}
    (hl : (fresh limits).Strides (fun _ => guarded) h)
    (hroom : h.Roomy) : h.Classed guarded := by
  have hnone : ∀ r, (fresh limits).template? r = none := fun r => by
    simp [fresh, template?, Arena.get?]
  refine hl.keeps (fun a b hwf hroom hs => hs.classed hwf hroom)
    ((grown_fresh limits).wellFormed (hl.leads.roomy hroom)) hroom
    ⟨fun r t _ ht => ?_, fun r t ht => ?_, fun r t _ _ ht => ?_⟩
  all_goals exact absurd ((hnone r).symm.trans ht) (by simp)

lemma Leads.template?_between {a b c : Heap} (hab : a.Leads b) (hbc : b.Leads c)
    (ht : a.template? r = some t) (ht' : c.template? r = some t') :
    ∃ between, b.template? r = some between := by
  obtain ⟨slot, hs, hcurrent, -⟩ := (Arena.get?_eq_some_iff _ r t).mp ht
  obtain ⟨last, hlast, -, hentry⟩ := (Arena.get?_eq_some_iff _ r t').mp ht'
  obtain ⟨middle, hmiddle, hkept⟩ := hab.keepsTemplates _ slot hs
  obtain ⟨found, hfound, hstays⟩ := hbc.keepsTemplates _ middle hmiddle
  obtain rfl := Option.some.inj (hfound.symm.trans hlast)
  have hoccupied : middle.entry ≠ none := by
    intro hempty
    rcases hstays with hgone | ⟨-, hsame⟩
    · exact absurd (hgone.symm.trans hentry) (by simp)
    · rw [hempty, hentry] at hsame
      cases hsame
  obtain ⟨between, hbetween⟩ := Option.ne_none_iff_exists'.mp hoccupied
  have hsame := (hkept.resolve_left hoccupied).1
  exact ⟨between, (Arena.get?_eq_some_iff _ r between).mpr
    ⟨middle, hmiddle, hsame.trans hcurrent, hbetween⟩⟩

lemma Stride.template_becomes (hs : Stride (fun _ => guarded) h h') (hwf : h.WellFormed)
    (hroom : h'.Roomy) (hc : h.Classed guarded) (ht : h.template? r = some t)
    (ht' : h'.template? r = some t') : t.Becomes t' := by
  rcases hs.conserves with hk | ⟨q, rfl⟩
  · rcases hk r t' ht' with ⟨before, hbefore, hb, -⟩ | ⟨hposition, -⟩
    · exact Option.some.inj (hbefore.symm.trans ht) ▸ hb
    · exact absurd (Arena.position_lt_of_get? ht) (Nat.not_lt.mpr hposition)
  · obtain ⟨before, hbefore, hb⟩ := (unfolds_instantiateWithin _ hc hwf hroom).becomes r t' ht'
    exact Option.some.inj (hbefore.symm.trans ht) ▸ hb

lemma Strides.template_becomes (hl : h.Strides (fun _ => guarded) h') (hwf : h.WellFormed)
    (hroom : h'.Roomy) (hc : h.Classed guarded) (ht : h.template? r = some t)
    (ht' : h'.template? r = some t') : t.Becomes t' := by
  induction hl generalizing t' with
  | refl => exact Option.some.inj (ht.symm.trans ht') ▸ .refl t
  | @tail a b hrun hs ih =>
    have hroom' := hs.leads.roomy hroom
    have hwf' := (Strides.leads hrun).wellFormed hwf hroom'
    have hc' : a.Classed guarded :=
      Strides.keeps (fun a b hwf hroom hs => hs.classed hwf hroom) hrun hwf hroom' hc
    obtain ⟨between, hbetween⟩ := (Strides.leads hrun).template?_between hs.leads ht ht'
    exact (ih hroom' hbetween).trans (hs.template_becomes hwf' hroom hc' hbetween ht')

lemma Strides.object_becomes (hl : h.Strides barred h') (hwf : h.WellFormed)
    (hroom : h'.Roomy) {r : ObjectRef} {o' : HeapObject} (ho : h.object? r = some o)
    (ho' : h'.object? r = some o') :
    o.body.Becomes h.limits.maxArrayLength o'.body ∧ o'.prototype = o.prototype := by
  induction hl generalizing o' with
  | refl => exact Option.some.inj (ho.symm.trans ho') ▸ ⟨.same _, rfl⟩
  | @tail a b hrun hs ih =>
    have hroom' := hs.leads.roomy hroom
    obtain ⟨_, hpast⟩ := (Strides.leads hrun).objects
    obtain ⟨_, hnow⟩ := hs.leads.objects
    have halive : a.isAlive r = true := by
      by_contra hdead
      exact hpast.stays_invalid hnow hwf hroom (isAlive_of_object? h r o ho) hdead
        (isAlive_of_object? _ r o' ho')
    obtain ⟨between, hbetween⟩ := (isAlive_iff a r).mp halive
    obtain ⟨hbody, hprototype⟩ := ih hroom' hbetween
    have hb := (hs.passes ((Strides.leads hrun).wellFormed hwf hroom') hroom).becomes hbetween ho'
    rw [(Strides.leads hrun).limits] at hb
    exact ⟨hbody.trans hb.body, hb.prototype.trans hprototype⟩

end Runs

end Heap

end HostBoundary
