import HostBoundary.Proofs.CallbackBinding
import HostBoundary.Proofs.Orderly

namespace HostBoundary

open Engine

variable {σ : Type}

namespace Arena

variable {store : Store} {α : Type} (a : Arena store α)

lemma get?_append (x : α) (hsize : a.slots.size < 2 ^ 32) (r : SlotRef store) :
    (a.append x).2.get? r = if r = (a.append x).1 then some x else a.get? r := by
  have hpos := append_position a x hsize
  unfold get?
  rw [slots_append]
  by_cases hr : r = (a.append x).1
  · simp [hr, hpos]
  · by_cases hp : r.position = a.slots.size
    · simp [hr, hp, Ne.symm hr]
    · simp [hr, hp]

lemma get?_append_fst (x : α) (hsize : a.slots.size < 2 ^ 32) : a.get? (a.append x).1 = none := by
  simp [get?, append_position a x hsize]

lemma get?_retire (r s : SlotRef store) :
    (a.retire r).get? s = if s = r then none else a.get? s := by
  unfold get? retire
  rw [Array.getElem?_modify]
  cases hs : a.slots[s.position]? with
  | none => simp
  | some slot =>
    by_cases hp : r.position = s.position
    · by_cases hc : slot.current = r
      · by_cases hsr : s = r
        · simp [hp, hc, hsr]
        · simp [hp, hc, hsr, Ne.symm hsr]
      · by_cases hsr : s = r
        · simp [hp, hsr, hc]
        · simp [hp, hsr, hc]
    · have hsr : s ≠ r := fun heq => hp (heq ▸ rfl)
      simp [hp, hsr]

end Arena

def Heap.withTemplates (h : Heap) (templates : Arena .template Template) : Heap := { h with templates }

namespace World

-- The world with other callback tables in one environment and other templates on its engine.
def revised (w : World σ) (n : EnvironmentId) (tables : CallbackTables)
    (templates : Arena .template Template) : World σ :=
  (w.modifyEnvironment n ({ · with tables })).modifyEngine (w.environment n).engine
    fun engine => { engine with heap := engine.heap.withTemplates templates }

variable (w : World σ) (n : EnvironmentId) (tables : CallbackTables)
  (templates : Arena .template Template)

lemma environment_revised (hn : w.Has n) :
    (w.revised n tables templates).environment n = { w.environment n with tables } := by
  simp [revised, environment_modifyEnvironment, hn]

lemma heap_revised (he : w.HasEngine (w.environment n).engine) :
    ((w.revised n tables templates).engine (w.environment n).engine).heap =
      (w.heapOf n).withTemplates templates := by
  rw [revised, engine_modifyEngine, if_pos ⟨rfl, by simpa using he⟩]
  rfl

lemma revised_self : w.revised n (w.environment n).tables (w.heapOf n).templates = w := by
  have henvironments : w.environments.modify n.index
      ({ · with tables := (w.environment n).tables }) = w.environments := by
    refine modify_same _ _ _ fun env henv => ?_
    rw [environment_of_getElem? n env henv]
  have hengines : w.engines.modify (w.environment n).engine.index (fun engine =>
      { engine with
        heap := engine.heap.withTemplates (w.heapOf n).templates }) =
      w.engines := by
    refine modify_same _ _ _ fun engine hengine => ?_
    rw [heapOf, engine_of_getElem? _ engine hengine]
    rfl
  simp only [revised, modifyEnvironment, modifyEngine, henvironments, hengines]

lemma registerMember_revised (hn : w.Has n) (member : MemberEntry) :
    Environment.registerMember n member (w.revised n tables templates) =
      ((tables.registerMember member).1, w.revised n (tables.registerMember member).2 templates) := by
  have henvironments : (w.environments.modify n.index ({ · with tables })).modify n.index
      ({ · with tables := (tables.registerMember member).2 }) =
        w.environments.modify n.index ({ · with tables := (tables.registerMember member).2 }) :=
    modify_modify _ _ _ _
  have htables : ((w.revised n tables templates).environment n).tables = tables := by
    rw [w.environment_revised n tables templates hn]
  simp only [Environment.registerMember, modifyGet, MonadStateOf.modifyGet, StateT.modifyGet, pure]
  rw [htables]
  simp only [revised, modifyEnvironment, modifyEngine, henvironments]

lemma onHeap_revised {α : Type} (hn : w.Has n) (he : w.HasEngine (w.environment n).engine)
    (f : Heap → α × Heap) (x : α) (templates' : Arena .template Template)
    (hf : f ((w.heapOf n).withTemplates templates) = (x, (w.heapOf n).withTemplates templates')) :
    Environment.onHeap n f (w.revised n tables templates) = (x, w.revised n tables templates') := by
  have hengine : ((w.revised n tables templates).environment n).engine =
      (w.environment n).engine := by
    rw [w.environment_revised n tables templates hn]
  have hengines : (w.engines.modify (w.environment n).engine.index fun engine =>
      { engine with heap := engine.heap.withTemplates templates }).modify (w.environment n).engine.index
        ({ · with heap := (w.heapOf n).withTemplates templates' }) =
      w.engines.modify (w.environment n).engine.index fun engine =>
        { engine with heap := engine.heap.withTemplates templates' } := by
    rw [modify_modify]
    refine modify_congr _ _ _ _ fun engine hfound => ?_
    rw [Function.comp_apply, ← engine_of_getElem? _ engine hfound]
  simp only [Environment.onHeap, Environment.engineOf, bind_apply, Act.environment, pure,
    StateT.pure, Act.onHeap, hengine, w.heap_revised n tables templates he, hf]
  simp only [revised, modifyEnvironment, modifyEngine, hengines]

end World

lemma CallbackTables.Extends.trans {a b c : CallbackTables} (hab : a.Extends b)
    (hbc : b.Extends c) : a.Extends c :=
  fun data callback h => hbc data callback (hab data callback h)

def Template.bare (t : Template) : Template := { t with accessors := [], methods := [] }

-- Members are added to one template, and nothing else happens to the templates.
structure Amends (r : TemplateRef) (a b : Arena .template Template) : Prop where
  others : ∀ s, s ≠ r → b.get? s = a.get? s
  itself : ∀ t, a.get? r = some t → ∃ t', b.get? r = some t' ∧ t'.bare = t.bare

namespace Amends

variable {r : TemplateRef} {a b c : Arena .template Template}

lemma refl (r : TemplateRef) (a : Arena .template Template) : Amends r a a where
  others _ _ := rfl
  itself t ht := ⟨t, ht, rfl⟩

lemma trans (hab : Amends r a b) (hbc : Amends r b c) : Amends r a c where
  others s hs := (hbc.others s hs).trans (hab.others s hs)
  itself t ht := by
    obtain ⟨t', ht', heq⟩ := hab.itself t ht
    obtain ⟨t'', ht'', heq'⟩ := hbc.itself t' ht'
    exact ⟨t'', ht'', heq'.trans heq⟩

lemma modify (r : TemplateRef) (a : Arena .template Template) (f : Template → Template)
    (hf : ∀ t, (f t).bare = t.bare) : Amends r a (a.modify r f) where
  others s hs := by rw [Arena.get?_modify, if_neg hs]
  itself t ht := ⟨f t, by rw [Arena.get?_modify, if_pos rfl, ht, Option.map_some], hf t⟩

end Amends

namespace Heap

variable (h : Heap) (templates : Arena .template Template) (r : TemplateRef) (t : Template)
  (ht : templates.get? r = some t) (hopen : t.function = none)

include ht hopen

lemma acceptsMember_withTemplates (name : String) :
    (h.withTemplates templates).acceptsMember r name = !name.isEmpty := by
  simp [acceptsMember, template?, withTemplates, ht, hopen]

end Heap

lemma Heap.newTemplate_of_missing (h : Heap) (t : Template) (parent : TemplateRef)
    (hp : t.parent = some parent) (hmissing : h.template? parent = none) :
    h.newTemplate t = (none, h) := by
  simp [newTemplate, hp, hmissing]

lemma Heap.newTemplate_of_present (h : Heap) (t : Template)
    (hp : ∀ parent, t.parent = some parent → (h.template? parent).isSome = true) :
    h.newTemplate t =
      (some (h.templates.append t).1, h.withTemplates (h.templates.append t).2) := by
  unfold newTemplate
  split
  · rename_i parent heq
    rw [if_pos (hp parent heq)]
    rfl
  · rfl

def ClassDefinition.template (d : ClassDefinition) (above : Option CompiledClass)
    (constructor : Option CallbackData) : Template :=
  { className := d.name, constructor, parent := above.map (·.template), fieldCount := 2 }

def ClassDefinition.registered (d : ClassDefinition) (tables : CallbackTables) :
    Option CallbackData × CallbackTables :=
  match d.constructor with
  | some (function, flags) =>
    (tables.registerMember (.construct function flags d.finalizer)).map some id
  | none => (none, tables)

lemma ClassDefinition.extends_registered (d : ClassDefinition) (tables : CallbackTables) :
    tables.Extends (d.registered tables).2 := by
  unfold registered
  split
  · exact tables.extends_register (.member _)
  · exact .refl tables

-- What stands on a template for a property: its name, and the data of its callback for what it has
-- of a getter and a setter.
def PropertyDefinition.Stands (tables : CallbackTables) (p : PropertyDefinition)
    (a : String × Option CallbackData × Option CallbackData) : Prop :=
  ∃ data, a = (p.name, p.getter.map fun _ => data, p.setter.map fun _ => data) ∧
    tables.lookup? data = some (.member (.property p.name p.getter p.setter p.flags))

def MethodDefinition.Stands (tables : CallbackTables) (m : MethodDefinition)
    (a : String × CallbackData) : Prop :=
  a.1 = m.name ∧ tables.lookup? a.2 = some (.member (.method ⟨m.function, m.flags, none⟩))

structure ClassDefinition.Stands (tables : CallbackTables) (d : ClassDefinition) (t : Template) :
    Prop where
  properties : d.properties.Forall₂ (PropertyDefinition.Stands tables) t.accessors
  methods : d.methods.Forall₂ (MethodDefinition.Stands tables) t.methods

lemma ClassDefinition.size_registered (d : ClassDefinition) (tables : CallbackTables) :
    (d.registered tables).2.members.size ≤ tables.members.size + 1 := by
  unfold registered
  split
  · exact (Array.size_push _).le
  · exact Nat.le_succ _

def ClassDefinition.unnamed? (d : ClassDefinition) : Option String :=
  ((d.properties.find? (·.name.isEmpty)).map (·.name)).or
    ((d.methods.find? (·.name.isEmpty)).map (·.name))

namespace Environment

section Members

variable {ι β : Type} {n : EnvironmentId} {r : TemplateRef} {name : ι → String}
  {member : ι → MemberEntry} {entry : ι → CallbackData → β} {put : List β → Template → Template}
  {install : List ι → Act σ (Option String)}

-- Members of one kind are registered and put on a template one after the other, up to the first
-- that has no name.
structure Installs (n : EnvironmentId) (r : TemplateRef) (name : ι → String)
    (member : ι → MemberEntry) (entry : ι → CallbackData → β) (put : List β → Template → Template)
    (install : List ι → Act σ (Option String)) : Prop where
  nil : install [] = pure none
  cons : ∀ x rest, install (x :: rest) = (do
    let data ← registerMember n (member x)
    if ← onHeap n fun h => if h.acceptsMember r (name x) then
        (true, h.modifyTemplate r (put [entry x data])) else (false, h) then
      install rest
    else return some (name x))
  bare : ∀ added t, (put added t).bare = t.bare
  put_nil : ∀ t, put [] t = t
  put_cons : ∀ a added t, put added (put [a] t) = put (a :: added) t

lemma installs_properties (n : EnvironmentId) (r : TemplateRef) :
    Installs n r (·.name) (fun p => .property p.name p.getter p.setter p.flags)
      (fun p data => (p.name, p.getter.map fun _ => data, p.setter.map fun _ => data))
      (fun added t => { t with accessors := t.accessors ++ added })
      (installProperties n r : _ → Act σ _) where
  nil := rfl
  cons _ _ := rfl
  bare _ _ := rfl
  put_nil t := by simp
  put_cons a added t := by simp

lemma installs_methods (n : EnvironmentId) (r : TemplateRef) :
    Installs n r (·.name) (fun m => .method ⟨m.function, m.flags, none⟩) (fun m data => (m.name, data))
      (fun added t => { t with methods := t.methods ++ added })
      (installMethods n r : _ → Act σ _) where
  nil := rfl
  cons _ _ := rfl
  bare _ _ := rfl
  put_nil t := by simp
  put_cons a added t := by simp

lemma Installs.revised (hi : Installs n r name member entry put install) (w : World σ) (hn : w.Has n)
    (he : w.HasEngine (w.environment n).engine) (items : List ι) (tables : CallbackTables)
    (templates : Arena .template Template) (t : Template) (ht : templates.get? r = some t)
    (hopen : t.function = none) :
    ∃ tables' templates', tables.Extends tables' ∧ Amends r templates templates' ∧
      install items (w.revised n tables templates) =
        ((items.find? (name · |>.isEmpty)).map name, w.revised n tables' templates') ∧
      (items.find? (name · |>.isEmpty) = none → tables.members.size + items.length ≤ 2 ^ 32 →
        tables'.members.size = tables.members.size + items.length ∧
        ∃ added, templates'.get? r = some (put added t) ∧ items.Forall₂ (fun x a => ∃ data,
          a = entry x data ∧ tables'.lookup? data = some (.member (member x))) added) := by
  induction items generalizing tables templates t with
  | nil =>
    exact ⟨tables, templates, .refl tables, .refl r templates, by rw [hi.nil]; rfl, fun _ _ =>
      ⟨rfl, [], by rw [ht, hi.put_nil], .nil⟩⟩
  | cons x rest ih =>
    have hregister := w.registerMember_revised n tables templates hn (member x)
    have hext := tables.extends_register (.member (member x))
    have hlookup := tables.lookup?_register (.member (member x))
    have hsize : (tables.registerMember (member x)).2.members.size = _ := Array.size_push _
    change tables.Extends (tables.registerMember (member x)).2 at hext
    change tables.members.size < 2 ^ 32 →
      (tables.registerMember (member x)).2.lookup? (tables.registerMember (member x)).1 = _ at hlookup
    generalize tables.registerMember (member x) = made at hregister hext hlookup hsize
    have haccepts := (w.heapOf n).acceptsMember_withTemplates templates r t ht hopen (name x)
    have hadd := w.onHeap_revised n made.2 templates hn he fun h =>
      if h.acceptsMember r (name x) then (true, h.modifyTemplate r (put [entry x made.1])) else (false, h)
    simp only [hi.cons, bind_apply, hregister, List.find?_cons]
    cases hname : (name x).isEmpty with
    | true =>
      rw [hadd false templates (by rw [haccepts, hname]; rfl)]
      exact ⟨made.2, templates, hext, .refl r templates, rfl, by simp⟩
    | false =>
      rw [hadd true (templates.modify r (put [entry x made.1])) (by rw [haccepts, hname]; rfl)]
      obtain ⟨tables', templates', hext', hamends, hrest, hstands⟩ := ih made.2
        (templates.modify r (put [entry x made.1])) (put [entry x made.1] t)
        (by rw [Arena.get?_modify, if_pos rfl, ht]; rfl)
        ((congrArg Template.function (hi.bare _ t)).trans hopen)
      refine ⟨tables', templates', hext.trans hext', (Amends.modify r templates _ (hi.bare _)).trans
        hamends, hrest, fun hnamed hroom => ?_⟩
      rw [List.length_cons] at hroom ⊢
      obtain ⟨hsize', added, hfound, hall⟩ := hstands hnamed (by omega)
      exact ⟨by omega, entry x made.1 :: added, by rw [hfound, hi.put_cons],
        .cons ⟨made.1, rfl, hext' _ _ (hlookup (by omega))⟩ hall⟩

end Members

-- What is left of compiling once the constructor, if there is one, is registered.
def assemble (n : EnvironmentId) (d : ClassDefinition) (parent : Option ClassId)
    (above : Option CompiledClass) (constructor : Option CallbackData) :
    Act σ (Except ClassError ClassId) := do
  let some template ← onHeap n (·.newTemplate
      { className := d.name, constructor, parent := above.map (·.template), fieldCount := 2 })
    | return .error (.templateCreation (shownName d.name))
  let refused ← do
    match ← installProperties n template d.properties with
    | some name => pure (some name)
    | none => installMethods n template d.methods
  match refused with
  | some member =>
    onHeap n fun h => ((), h.discardTemplate template)
    return .error (.memberInstallation (shownName d.name) member)
  | none =>
    let compiled : CompiledClass :=
      { name := d.name, template, constructible := d.constructor.isSome,
        finalizer := d.finalizer, parent }
    return .ok (← modifyGet (·.addClass compiled))

section Assembly

variable (w : World σ) (n : EnvironmentId) (hn : w.Has n)
  (he : w.HasEngine (w.environment n).engine) (d : ClassDefinition) (parent : Option ClassId)
  (above : Option CompiledClass) (constructor : Option CallbackData) (tables : CallbackTables)

include hn he

lemma assemble_of_missing (p : CompiledClass) (hp : above = some p)
    (hmissing : (w.heapOf n).template? p.template = none) :
    assemble n d parent above constructor (w.revised n tables (w.heapOf n).templates) =
      (.error (.templateCreation (shownName d.name)), w.revised n tables (w.heapOf n).templates) := by
  have hnone := Heap.newTemplate_of_missing (w.heapOf n) (d.template above constructor) p.template
    (by simp [ClassDefinition.template, hp]) hmissing
  unfold assemble
  rw [bind_apply, w.onHeap_revised n tables _ hn he _ none _ hnone]
  rfl

-- Where the parent is there, the members are put on the template one after the other. At one
-- without a name the template goes again.
lemma assemble_of_present (t : Template) (ht : t = d.template above constructor)
    (hsize : (w.heapOf n).templates.slots.size < 2 ^ 32)
    (hpresent : ∀ p, above = some p → ((w.heapOf n).template? p.template).isSome = true) :
    ∃ tables' templates', tables.Extends tables' ∧
      Amends ((w.heapOf n).templates.append t).1 ((w.heapOf n).templates.append t).2 templates' ∧
      (d.unnamed? = none → tables.members.size + d.properties.length + d.methods.length ≤ 2 ^ 32 →
        ∃ t', templates'.get? ((w.heapOf n).templates.append t).1 = some t' ∧ d.Stands tables' t') ∧
      assemble n d parent above constructor (w.revised n tables (w.heapOf n).templates) =
        match d.unnamed? with
        | some member =>
          (.error (.memberInstallation (shownName d.name) member),
            w.revised n tables' (templates'.retire ((w.heapOf n).templates.append t).1))
        | none =>
          (.ok ⟨w.classes.size⟩, ((w.revised n tables' templates').addClass
            { name := d.name, template := ((w.heapOf n).templates.append t).1,
              constructible := d.constructor.isSome, finalizer := d.finalizer, parent }).2) := by
  have hmade : (w.heapOf n).newTemplate t = (some ((w.heapOf n).templates.append t).1,
      (w.heapOf n).withTemplates ((w.heapOf n).templates.append t).2) := by
    refine (w.heapOf n).newTemplate_of_present t fun ref href => ?_
    rw [ht] at href
    obtain ⟨p, hp, rfl⟩ := Option.map_eq_some_iff.mp href
    exact hpresent p hp
  have hget := (w.heapOf n).templates.get?_append t hsize
  generalize (w.heapOf n).templates.append t = appended at hmade hget
  have hfound : appended.2.get? appended.1 = some t := by rw [hget, if_pos rfl]
  have hopen : t.function = none := by rw [ht]; rfl
  have hcreated := w.onHeap_revised n tables _ hn he (·.newTemplate t) _ _ hmade
  have hdiscard := fun tables' templates' => w.onHeap_revised n tables' templates' hn he
    (fun h => ((), h.discardTemplate appended.1)) () (templates'.retire appended.1) rfl
  obtain ⟨tables₁, templates₁, hext₁, hamends₁, hproperties, hstands₁⟩ :=
    (installs_properties n appended.1).revised w hn he d.properties tables _ t hfound hopen
  rw [ht] at hcreated
  simp only [ClassDefinition.template] at hcreated
  simp only [assemble, bind_apply, hcreated, hproperties]
  cases hp : d.properties.find? (·.name.isEmpty) with
  | some p =>
    refine ⟨tables₁, templates₁, hext₁, hamends₁, by simp [ClassDefinition.unnamed?, hp], ?_⟩
    simp only [ClassDefinition.unnamed?, hp, Option.map_some, Option.some_or, bind_apply,
      hdiscard, pure, StateT.pure]
  | none =>
    obtain ⟨t', ht', hbare⟩ := hamends₁.itself t hfound
    have hopen' : t'.function = none := (congrArg Template.function hbare).trans hopen
    obtain ⟨tables₂, templates₂, hext₂, hamends₂, hmethods, hstands₂⟩ :=
      (installs_methods n appended.1).revised w hn he d.methods tables₁ templates₁ t' ht' hopen'
    refine ⟨tables₂, templates₂, hext₁.trans hext₂, hamends₁.trans hamends₂, fun hnamed hroom => ?_, ?_⟩
    · obtain ⟨hsize₁, accessors, hfound₁, hall₁⟩ := hstands₁ hp (by omega)
      obtain rfl := Option.some.inj (ht'.symm.trans hfound₁)
      simp only [ClassDefinition.unnamed?, hp, Option.map_none, Option.none_or, Option.map_eq_none_iff]
        at hnamed
      obtain ⟨-, methods, hfound₂, hall₂⟩ := hstands₂ hnamed (by omega)
      refine ⟨_, hfound₂, ?_, ?_⟩
      · rw [ht]
        exact hall₁.imp fun p a ⟨data, ha, hdata⟩ => ⟨data, ha, hext₂ data _ hdata⟩
      · rw [ht]
        exact hall₂.imp fun m a ⟨data, ha, hdata⟩ => ha ▸ ⟨rfl, hdata⟩
    simp only [ClassDefinition.unnamed?, hp, Option.map_none, Option.none_or, bind_apply,
      hmethods]
    cases d.methods.find? (·.name.isEmpty) with
    | some m => simp only [Option.map_some, bind_apply, hdiscard, pure, StateT.pure]
    | none => rfl

end Assembly

lemma compile_of_fault (w : World σ) (n : EnvironmentId) (d : ClassDefinition)
    (parent : Option ClassId) (fault : ClassError)
    (hf : d.fault? (parent.bind w.class?) = some fault) :
    compile n d parent w = (.error fault, w) := by
  unfold compile
  simp only [bind_apply, show (get : Act σ (World σ)) w = (w, w) from rfl, hf]
  rfl

lemma compile_of_sound (w : World σ) (n : EnvironmentId) (hn : w.Has n) (d : ClassDefinition)
    (parent : Option ClassId) (hf : d.fault? (parent.bind w.class?) = none) :
    compile n d parent w = assemble n d parent (parent.bind w.class?)
      (d.registered (w.environment n).tables).1
      (w.revised n (d.registered (w.environment n).tables).2 (w.heapOf n).templates) := by
  have hregister := w.registerMember_revised n (w.environment n).tables (w.heapOf n).templates hn
  rw [w.revised_self] at hregister
  unfold compile
  simp only [bind_apply, show (get : Act σ (World σ)) w = (w, w) from rfl, hf]
  obtain ⟨name, constructor, finalizer, properties, methods⟩ := d
  cases constructor with
  | none =>
    simp only [ClassDefinition.registered, w.revised_self]
    rfl
  | some c =>
    have hstep := hregister (.construct c.1 c.2 finalizer)
    calc
      _ = assemble n ⟨name, some c, finalizer, properties, methods⟩ parent (parent.bind w.class?)
            (some (registerMember n (.construct c.1 c.2 finalizer) w).1)
            (registerMember n (.construct c.1 c.2 finalizer) w).2 := rfl
      _ = _ := by
        rw [hstep]
        rfl

end Environment

inductive ClassDefinition.Refused (d : ClassDefinition) (h : Heap) (above : Option CompiledClass) :
    Prop where
  | noConstructor (p : CompiledClass) (hp : above = some p) (hd : d.constructor = none)
  | notConstructible (p : CompiledClass) (hp : above = some p) (hc : p.constructible = false)
  | noTemplate (p : CompiledClass) (hp : above = some p) (ht : h.template? p.template = none)
  | emptyProperty (p : PropertyDefinition) (hp : p ∈ d.properties) (hget : p.getter = none)
      (hset : p.setter = none)
  | unnamedProperty (p : PropertyDefinition) (hp : p ∈ d.properties) (hname : p.name = "")
  | unnamedMethod (m : MethodDefinition) (hm : m ∈ d.methods) (hname : m.name = "")

namespace ClassDefinition

variable (d : ClassDefinition) (h : Heap) (above : Option CompiledClass)

lemma refused_of_fault (fault : ClassError) (hf : d.fault? above = some fault) :
    d.Refused h above := by
  have hempty : ∀ p, d.properties.find? (fun p => p.getter.isNone && p.setter.isNone) = some p →
      d.Refused h above := by
    intro p hp
    have hnone := List.find?_some hp
    simp only [Bool.and_eq_true, Option.isNone_iff_eq_none] at hnone
    exact .emptyProperty p (List.mem_of_find?_eq_some hp) hnone.1 hnone.2
  unfold fault? at hf
  dsimp only at hf
  split at hf
  · rename_i p
    split at hf
    · rename_i hc
      exact .noConstructor p rfl (Option.isNone_iff_eq_none.mp hc)
    · split at hf
      · rename_i hc
        exact .notConstructible p rfl (by simpa using hc)
      · obtain ⟨q, hq, -⟩ := Option.map_eq_some_iff.mp hf
        exact hempty q hq
  · obtain ⟨q, hq, -⟩ := Option.map_eq_some_iff.mp hf
    exact hempty q hq

lemma unnamed?_eq_none_iff :
    d.unnamed? = none ↔ (∀ p ∈ d.properties, p.name ≠ "") ∧ ∀ m ∈ d.methods, m.name ≠ "" := by
  simp [unnamed?, String.isEmpty_iff]

-- A definition that is in order itself is refused by the engine for two reasons only.
lemma refused_iff_of_sound (hf : d.fault? above = none) :
    d.Refused h above ↔
      (∃ p, above = some p ∧ h.template? p.template = none) ∨ d.unnamed? ≠ none := by
  have hempty : ∀ p ∈ d.properties, ¬ (p.getter = none ∧ p.setter = none) := by
    have hnone : d.properties.find? (fun p => p.getter.isNone && p.setter.isNone) = none := by
      unfold fault? at hf
      dsimp only at hf
      repeat' split at hf
      all_goals simp_all
    intro p hp hboth
    exact List.find?_eq_none.mp hnone p hp (by simp [hboth])
  have hparent : ∀ p, above = some p → d.constructor ≠ none ∧ p.constructible = true := by
    rintro p rfl
    simp only [fault?] at hf
    repeat' split at hf
    all_goals simp_all
  rw [ne_eq, unnamed?_eq_none_iff]
  constructor
  · intro hr
    cases hr with
    | noConstructor p hp hd => exact absurd hd (hparent p hp).1
    | notConstructible p hp hc => exact absurd (hparent p hp).2 (by simp [hc])
    | noTemplate p hp ht => exact .inl ⟨p, hp, ht⟩
    | emptyProperty p hp hget hset => exact absurd ⟨hget, hset⟩ (hempty p hp)
    | unnamedProperty p hp hname => exact .inr fun hall => hall.1 p hp hname
    | unnamedMethod m hm hname => exact .inr fun hall => hall.2 m hm hname
  · rintro (⟨p, hp, ht⟩ | hunnamed)
    · exact .noTemplate p hp ht
    · by_contra hr
      refine hunnamed ⟨fun p hp hname => hr (.unnamedProperty p hp hname), fun m hm hname =>
        hr (.unnamedMethod m hm hname)⟩

end ClassDefinition

namespace Environment

section Registration

variable (w : World σ) (n : EnvironmentId) (hn : w.Has n)
  (he : w.HasEngine (w.environment n).engine) (d : ClassDefinition) (parent : Option ClassId)
  (hsize : (w.heapOf n).templates.slots.size < 2 ^ 32)

include hn he hsize

-- A refused definition leaves the templates as they were: either none was made, or the one
-- that was made is gone again.
lemma compile_of_refused (hr : d.Refused (w.heapOf n) (parent.bind w.class?)) :
    ∃ fault tables templates, (w.environment n).tables.Extends tables ∧
      (∀ r, templates.get? r = (w.heapOf n).template? r) ∧
      compile n d parent w = (.error fault, w.revised n tables templates) := by
  cases hf : d.fault? (parent.bind w.class?) with
  | some fault =>
    refine ⟨fault, (w.environment n).tables, (w.heapOf n).templates, .refl _, fun _ => rfl, ?_⟩
    rw [compile_of_fault w n d parent fault hf, w.revised_self]
  | none =>
    have hsound := compile_of_sound w n hn d parent hf
    have hext := d.extends_registered (w.environment n).tables
    rw [hsound]
    generalize d.registered (w.environment n).tables = registered at hext
    by_cases hmissing : ∃ p, parent.bind w.class? = some p ∧ (w.heapOf n).template? p.template = none
    · obtain ⟨p, hp, ht⟩ := hmissing
      exact ⟨_, registered.2, (w.heapOf n).templates, hext, fun _ => rfl,
        assemble_of_missing w n hn he d parent _ registered.1 registered.2 p hp ht⟩
    · have hpresent : ∀ p, parent.bind w.class? = some p →
          ((w.heapOf n).template? p.template).isSome = true := by
        intro p hp
        rw [← Option.ne_none_iff_isSome]
        exact fun hnone => hmissing ⟨p, hp, hnone⟩
      obtain ⟨tables, templates, hext', hamends, -, hrun⟩ := assemble_of_present w n hn he d parent _
        registered.1 registered.2 _ rfl hsize hpresent
      obtain ⟨member, hmember⟩ := Option.ne_none_iff_exists'.mp
        (((d.refused_iff_of_sound _ _ hf).mp hr).resolve_left hmissing)
      rw [hmember] at hrun
      refine ⟨_, tables, _, hext.trans hext', fun r => ?_, hrun⟩
      rw [Arena.get?_retire]
      split
      · rename_i heq
        rw [heq]
        exact (Arena.get?_append_fst _ _ hsize).symm
      · rename_i hne
        rw [hamends.others r hne, Arena.get?_append _ _ hsize, if_neg hne]
        rfl

lemma compile_of_accepted (hr : ¬ d.Refused (w.heapOf n) (parent.bind w.class?)) :
    ∃ tables templates r t, (d.registered (w.environment n).tables).2.Extends tables ∧
      (w.heapOf n).template? r = none ∧ templates.get? r = some t ∧
      t.bare = d.template (parent.bind w.class?) (d.registered (w.environment n).tables).1 ∧
      (∀ s, s ≠ r → templates.get? s = (w.heapOf n).template? s) ∧
      compile n d parent w = (.ok ⟨w.classes.size⟩, ((w.revised n tables templates).addClass
        { name := d.name, template := r, constructible := d.constructor.isSome,
          finalizer := d.finalizer, parent }).2) ∧
      ((w.environment n).tables.members.size + 1 + d.properties.length + d.methods.length ≤ 2 ^ 32 →
        d.Stands tables t) := by
  have hf : d.fault? (parent.bind w.class?) = none := by
    by_contra hne
    obtain ⟨fault, hfault⟩ := Option.ne_none_iff_exists'.mp hne
    exact hr (d.refused_of_fault _ _ fault hfault)
  rw [d.refused_iff_of_sound _ _ hf, not_or, not_exists, not_not] at hr
  obtain ⟨hpresent, hnamed⟩ := hr
  have hregistered := d.size_registered (w.environment n).tables
  rw [compile_of_sound w n hn d parent hf]
  generalize d.registered (w.environment n).tables = registered at hregistered
  obtain ⟨tables, templates, hext', hamends, hstands, hrun⟩ := assemble_of_present w n hn he d parent _
    registered.1 registered.2 _ rfl hsize fun p hp => by
      rw [← Option.ne_none_iff_isSome]
      exact fun hnone => hpresent p ⟨hp, hnone⟩
  rw [hnamed] at hrun
  have hget := (w.heapOf n).templates.get?_append
    (d.template (parent.bind w.class?) registered.1) hsize
  obtain ⟨t, ht, hbare⟩ := hamends.itself _ ((hget _).trans (if_pos rfl))
  refine ⟨tables, templates, _, t, hext', Arena.get?_append_fst _ _ hsize, ht, hbare,
    fun s hs => ?_, hrun, fun hroom => ?_⟩
  · rw [hamends.others s hs, hget, if_neg hs]
    rfl
  · obtain ⟨t', ht', hall⟩ := hstands hnamed (by omega)
    exact Option.some.inj (ht.symm.trans ht') ▸ hall

end Registration

variable (w : World σ) (n : EnvironmentId) (d : ClassDefinition) (parent : Option ClassId)

lemma createClass_of_registered (name : String) (c : ClassId) (hname : d.name = some name)
    (hc : (w.environment n).classes.lookup name = some c) :
    createClass n d parent w = (.ok c, w) := by
  unfold createClass
  rw [hname]
  simp only [bind_apply, getClass, Act.environment, hc, pure, StateT.pure]

def enter (name : Option String) (c : ClassId) (env : Environment) : Environment :=
  match name with
  | some name => { env with classes := (name, c) :: env.classes }
  | none => { env with anonymous := env.anonymous ++ [c] }

variable (hnew : ∀ name, d.name = some name → (w.environment n).classes.lookup name = none)

include hnew

lemma createClass_eq_bind :
    createClass n d parent w = (compile n d parent >>= fun
      | .error fault => pure (.error fault)
      | .ok c => do
        Act.updateEnvironment n (enter d.name c)
        return .ok c) w := by
  unfold createClass
  cases hname : d.name with
  | none => rfl
  | some name =>
    simp only [bind_apply, getClass, Act.environment, pure, StateT.pure, hnew name hname]
    rfl

lemma createClass_of_new :
    createClass n d parent w = match compile n d parent w with
      | (.error fault, w') => (.error fault, w')
      | (.ok c, w') => (.ok c, w'.modifyEnvironment n (enter d.name c)) := by
  rw [createClass_eq_bind w n d parent hnew, bind_apply]
  cases compile n d parent w with
  | mk result w' => cases result <;> rfl

end Environment

-- What a refused definition leaves behind: callbacks that nothing refers to.
structure World.Unregistered (n : EnvironmentId) (w w' : World σ) : Prop where
  classes : (w'.environment n).classes = (w.environment n).classes
  anonymous : (w'.environment n).anonymous = (w.environment n).anonymous
  compiled : w'.classes = w.classes
  found : ∀ name, (Environment.getClass n name w').1 = (Environment.getClass n name w).1
  templates : ∀ r, (w'.heapOf n).template? r = (w.heapOf n).template? r
  objects : (w'.heapOf n).objects = (w.heapOf n).objects
  persistents : (w'.heapOf n).persistents = (w.heapOf n).persistents
  scopes : (w'.heapOf n).scopes = (w.heapOf n).scopes ∧
    (w'.heapOf n).overflow = (w.heapOf n).overflow
  rest : ∃ tables templates, (w.environment n).tables.Extends tables ∧ w' = w.revised n tables templates

-- What a definition that is accepted adds: one class, under its name or without one.
structure World.Registered (n : EnvironmentId) (d : ClassDefinition) (parent : Option ClassId)
    (c : ClassId) (w w' : World σ) : Prop where
  compiled : c = ⟨w.classes.size⟩ ∧ ∃ r, w'.classes = w.classes.push
      { name := d.name, template := r, constructible := d.constructor.isSome,
        finalizer := d.finalizer, parent } ∧
    (w.heapOf n).template? r = none ∧ ((w'.heapOf n).template? r).isSome = true ∧
    ∀ s, s ≠ r → (w'.heapOf n).template? s = (w.heapOf n).template? s
  found : ∀ name, (Environment.getClass n name w').1 =
    if d.name = some name then some c else (Environment.getClass n name w).1
  earlier : ∀ name c', (Environment.getClass n name w).1 = some c' →
    (Environment.getClass n name w').1 = some c'
  anonymous : (w'.environment n).anonymous =
    if d.name = none then (w.environment n).anonymous ++ [c] else (w.environment n).anonymous

section Outcome

variable {w : World σ} {n : EnvironmentId} (hn : w.Has n)
  (he : w.HasEngine (w.environment n).engine)

include hn he

lemma World.unregistered_revised (tables : CallbackTables) (templates : Arena .template Template)
    (hext : (w.environment n).tables.Extends tables)
    (ht : ∀ r, templates.get? r = (w.heapOf n).template? r) :
    w.Unregistered n (w.revised n tables templates) := by
  have henv := w.environment_revised n tables templates hn
  have hheap : (w.revised n tables templates).heapOf n = (w.heapOf n).withTemplates templates := by
    rw [World.heapOf, henv]
    exact w.heap_revised n tables templates he
  refine ⟨by rw [henv], by rw [henv], rfl, fun name => ?_, fun r => ?_, by rw [hheap]; rfl,
    by rw [hheap]; rfl, by rw [hheap]; exact ⟨rfl, rfl⟩, tables, templates, hext, rfl⟩
  · show ((w.revised n tables templates).environment n).classes.lookup name = _
    rw [henv]
    rfl
  · rw [hheap]
    exact ht r

omit he in
lemma World.environment_entered_class (compiled : CompiledClass) (tables : CallbackTables)
    (templates : Arena .template Template) (name : Option String) (c : ClassId) :
    (((w.revised n tables templates).addClass compiled).2.modifyEnvironment n
      (Environment.enter name c)).environment n = Environment.enter name c { w.environment n with tables } := by
  have hhas : ((w.revised n tables templates).addClass compiled).2.Has n := by
    simpa [World.Has, World.addClass, World.revised, World.modifyEngine, World.modifyEnvironment]
      using hn
  rw [World.environment_modifyEnvironment, if_pos ⟨rfl, hhas⟩,
    ← w.environment_revised n tables templates hn]
  rfl

lemma World.heapOf_entered_class (compiled : CompiledClass) (tables : CallbackTables)
    (templates : Arena .template Template) (name : Option String) (c : ClassId) :
    (((w.revised n tables templates).addClass compiled).2.modifyEnvironment n
      (Environment.enter name c)).heapOf n = (w.heapOf n).withTemplates templates := by
  have hengine : (Environment.enter name c { w.environment n with tables }).engine =
      (w.environment n).engine := by
    unfold Environment.enter
    split <;> rfl
  rw [World.heapOf, World.environment_entered_class hn, hengine]
  exact w.heap_revised n tables templates he

lemma World.registered_revised (d : ClassDefinition) (parent : Option ClassId)
    (tables : CallbackTables) (templates : Arena .template Template) (r : TemplateRef) (t : Template)
    (hnew : ∀ name, d.name = some name → (w.environment n).classes.lookup name = none)
    (hr : (w.heapOf n).template? r = none) (ht : templates.get? r = some t)
    (hothers : ∀ s, s ≠ r → templates.get? s = (w.heapOf n).template? s) :
    w.Registered n d parent ⟨w.classes.size⟩
      (((w.revised n tables templates).addClass
        { name := d.name, template := r, constructible := d.constructor.isSome,
          finalizer := d.finalizer, parent }).2.modifyEnvironment n
        (Environment.enter d.name ⟨w.classes.size⟩)) := by
  have henv := World.environment_entered_class hn
    { name := d.name, template := r, constructible := d.constructor.isSome,
      finalizer := d.finalizer, parent } tables templates d.name ⟨w.classes.size⟩
  have hheap := World.heapOf_entered_class hn he
    { name := d.name, template := r, constructible := d.constructor.isSome,
      finalizer := d.finalizer, parent } tables templates d.name ⟨w.classes.size⟩
  generalize hw' : ((w.revised n tables templates).addClass
    { name := d.name, template := r, constructible := d.constructor.isSome,
      finalizer := d.finalizer, parent }).2.modifyEnvironment n
    (Environment.enter d.name ⟨w.classes.size⟩) = w' at henv hheap
  have hfound : ∀ name, (Environment.getClass n name w').1 =
      if d.name = some name then some ⟨w.classes.size⟩ else (Environment.getClass n name w).1 := by
    intro name
    show (w'.environment n).classes.lookup name = _
    rw [henv]
    unfold Environment.enter
    cases hname : d.name with
    | none => exact (if_neg (by simp)).symm
    | some own =>
      by_cases heq : own = name
      · simp [heq]
      · rw [if_neg (by simpa using heq)]
        simp [List.lookup_cons, beq_false_of_ne (Ne.symm heq)]
        rfl
  refine ⟨⟨rfl, r, by rw [← hw']; rfl, hr, by rw [hheap]; simp [Heap.template?, Heap.withTemplates, ht],
    fun s hs => by rw [hheap]; exact hothers s hs⟩, hfound, fun name c' hc' => ?_, ?_⟩
  · rw [hfound, if_neg, hc']
    intro hname
    exact absurd hc' (by
      show ¬ (w.environment n).classes.lookup name = some c'
      simp [hnew name hname])
  · rw [henv]
    unfold Environment.enter
    cases d.name <;> simp

-- A class was made of a definition: its template has the members, and its parent is the template of
-- the parent class.
def World.Compiled (w : World σ) (n : EnvironmentId) (d : ClassDefinition) (parent : Option ClassId)
    (c : ClassId) (w' : World σ) : Prop :=
  ∃ compiled t, w'.class? c = some compiled ∧
    (w'.heapOf n).template? compiled.template = some t ∧ t.function = none ∧
    t.parent = (parent.bind w.class?).map (·.template) ∧ d.Stands (w'.environment n).tables t

namespace Environment

variable {d : ClassDefinition} {parent : Option ClassId} {c : ClassId} {w' : World σ}
  (hsize : (w.heapOf n).templates.slots.size < 2 ^ 32)
  (hnew : ∀ name, d.name = some name → (getClass n name w).1 = none)
  (hc : createClass n d parent w = (.ok c, w'))

include hsize hnew hc

lemma createClass_made :
    ∃ compiled t, w'.class? c = some compiled ∧ compiled.finalizer = d.finalizer ∧
      (w'.heapOf n).template? compiled.template = some t ∧
      t.bare = d.template (parent.bind w.class?) (d.registered (w.environment n).tables).1 ∧
      (d.registered (w.environment n).tables).2.Extends (w'.environment n).tables ∧
      ((w.environment n).tables.members.size + 1 + d.properties.length + d.methods.length ≤ 2 ^ 32 →
        d.Stands (w'.environment n).tables t) := by
  rw [createClass_of_new w n d parent hnew] at hc
  by_cases hr : d.Refused (w.heapOf n) (parent.bind w.class?)
  · obtain ⟨fault, tables, templates, -, -, hcompile⟩ := compile_of_refused w n hn he d parent hsize hr
    rw [hcompile] at hc
    exact absurd (congrArg Prod.fst hc) (by simp)
  · obtain ⟨tables, templates, r, t, hext, -, ht, hbare, -, hcompile, hstands⟩ :=
      compile_of_accepted w n hn he d parent hsize hr
    rw [hcompile] at hc
    obtain ⟨hclass, rfl⟩ := Prod.mk.inj hc
    obtain rfl := Except.ok.inj hclass
    have htables : (enter d.name ⟨w.classes.size⟩ { w.environment n with tables }).tables = tables := by
      unfold enter
      split <;> rfl
    rw [World.heapOf_entered_class hn he, World.environment_entered_class hn, htables]
    exact ⟨_, t, Array.getElem?_push_size, rfl, ht, hbare, hext, hstands⟩

lemma createClass_compiled (hroom : (w.environment n).tables.members.size + 1 + d.properties.length +
    d.methods.length ≤ 2 ^ 32) : w.Compiled n d parent c w' := by
  obtain ⟨compiled, t, hclass, -, ht, hbare, -, hstands⟩ := createClass_made hn he hsize hnew hc
  exact ⟨compiled, t, hclass, ht, congrArg Template.function hbare, congrArg Template.parent hbare,
    hstands hroom⟩

end Environment

end Outcome

-- Registering a class is idempotent and all or nothing.
theorem class_registration (w : World σ) (n : EnvironmentId) (d : ClassDefinition)
    (parent : Option ClassId) (hn : w.Has n) (he : w.HasEngine (w.environment n).engine)
    (hsize : (w.heapOf n).templates.slots.size < 2 ^ 32) :
    (∀ name c, d.name = some name → (Environment.getClass n name w).1 = some c →
      Environment.createClass n d parent w = (.ok c, w)) ∧
    ((∀ name, d.name = some name → (Environment.getClass n name w).1 = none) →
      ((∃ fault, (Environment.createClass n d parent w).1 = .error fault) ↔
        d.Refused (w.heapOf n) (parent.bind w.class?)) ∧
      (∀ fault, (Environment.createClass n d parent w).1 = .error fault →
        w.Unregistered n (Environment.createClass n d parent w).2) ∧
      ∀ c, (Environment.createClass n d parent w).1 = .ok c →
        w.Registered n d parent c (Environment.createClass n d parent w).2) := by
  refine ⟨fun name c hname hc => Environment.createClass_of_registered w n d parent name c hname hc,
    fun hnew => ?_⟩
  have hcreate := Environment.createClass_of_new w n d parent hnew
  by_cases hr : d.Refused (w.heapOf n) (parent.bind w.class?)
  · obtain ⟨fault, tables, templates, hext, ht, hcompile⟩ :=
      Environment.compile_of_refused w n hn he d parent hsize hr
    rw [hcompile] at hcreate
    rw [hcreate]
    exact ⟨⟨fun _ => hr, fun _ => ⟨fault, rfl⟩⟩,
      fun _ _ => World.unregistered_revised hn he tables templates hext ht, by simp⟩
  · obtain ⟨tables, templates, r, t, -, hfresh, ht, -, hothers, hcompile, -⟩ :=
      Environment.compile_of_accepted w n hn he d parent hsize hr
    rw [hcompile] at hcreate
    rw [hcreate]
    refine ⟨⟨by simp, fun h => absurd h hr⟩, by simp, fun c hc => ?_⟩
    obtain rfl : ⟨w.classes.size⟩ = c := by simpa using hc
    exact World.registered_revised hn he d parent tables templates r t hnew hfresh ht hothers

def World.single : World Unit where
  engines := #[{ heap := .fresh {} }]
  environments := #[{ engine := ⟨0⟩ }]
  host := ()

-- Next to a registered class: one that is refused at its second method, one of the same name, and
-- one without a name.
theorem class_registration_beside_parent :
    let n : EnvironmentId := ⟨0⟩
    let run : NativeFunction := { code := ⟨0⟩ }
    let w := (Environment.createClass n { name := some "A", constructor := some (run, 0) } none
      World.single).2
    let half : ClassDefinition :=
      { name := some "B", constructor := some (run, 0), properties := [{ name := "p", getter := some run }],
        methods := [{ name := "m", function := run }, { name := "", function := run }] }
    let again : ClassDefinition := { name := some "A", properties := [{ name := "p" }] }
    let nameless : ClassDefinition := { constructor := some (run, 0), methods := [{ name := "m", function := run }] }
    (Environment.createClass n half (some ⟨0⟩) w).1 = .error (.memberInstallation "B" "") ∧
    w.Unregistered n (Environment.createClass n half (some ⟨0⟩) w).2 ∧
    Environment.createClass n again none w = (.ok ⟨0⟩, w) ∧
    (Environment.createClass n nameless (some ⟨0⟩) w).1 = .ok ⟨1⟩ ∧
    w.Registered n nameless (some ⟨0⟩) ⟨1⟩ (Environment.createClass n nameless (some ⟨0⟩) w).2 := by
  intro n run w half again nameless
  have hn : w.Has n := by decide +kernel
  have he : w.HasEngine (w.environment n).engine := by decide +kernel
  have hsize : (w.heapOf n).templates.slots.size < 2 ^ 32 := by decide +kernel
  have hhalf : (Environment.createClass n half (some ⟨0⟩) w).1 =
    .error (.memberInstallation "B" "") := by decide +kernel
  have hnameless : (Environment.createClass n nameless (some ⟨0⟩) w).1 = .ok ⟨1⟩ := by
    decide +kernel
  refine ⟨hhalf, ?_, ?_, hnameless, ?_⟩
  · refine ((class_registration w n half (some ⟨0⟩) hn he hsize).2 fun name hname => ?_).2.1 _ hhalf
    obtain rfl := Option.some.inj hname
    decide +kernel
  · exact (class_registration w n again none hn he hsize).1 "A" ⟨0⟩ rfl (by decide +kernel)
  · exact ((class_registration w n nameless (some ⟨0⟩) hn he hsize).2 (by simp [nameless])).2.2 _ hnameless

-- A class is refused that has a constructor, a constructible parent and no members at all,
-- because the template of the parent was discarded.
theorem class_refused_without_parent_template :
    let n : EnvironmentId := ⟨0⟩
    let run : NativeFunction := { code := ⟨0⟩ }
    let d : ClassDefinition := { name := some "B", constructor := some (run, 0) }
    let w := (Environment.createClass n { name := some "A", constructor := some (run, 0) } none
      World.single).2
    let w' := (Engine.serve Host.inert ⟨0⟩ (.discardTemplate (.first 0)) w).2
    (w'.class? ⟨0⟩).map (·.constructible) = some true ∧
    (Environment.getClass n "B" w').1 = none ∧
    (Environment.createClass n d (some ⟨0⟩) w').1 = .error (.templateCreation "B") := by
  decide +kernel

end HostBoundary
