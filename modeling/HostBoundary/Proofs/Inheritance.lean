import HostBoundary.Proofs.PropertyMap
import HostBoundary.Proofs.Prototypes

namespace HostBoundary

variable {σ τ : Type} {host : Host σ} {diary : σ → List (World Unit)} {t : Template}
  {o : HeapObject} {name : String} {classes : List Template} {member : Template.Member}

def PropertySlot.found : PropertySlot → Heap.Found
  | .data v => .value v
  | .accessor (some getter) _ => .getter getter
  | .accessor none _ => .value .undefined

namespace Heap

variable {guarded : ObjectRef → Key → Prop} {h h' : Heap} {r : TemplateRef} {x f p : ObjectRef}

-- A chain of classes, each followed by its parent.
def Ancestry (h : Heap) : Option TemplateRef → List Template → Prop
  | _, [] => True
  | none, _ :: _ => False
  | some r, t :: above => h.template? r = some t ∧ h.Ancestry t.parent above

structure Used (h : Heap) (r : TemplateRef) (f p : ObjectRef) : Prop where
  template : ∃ t, h.template? r = some t ∧ t.function = some f ∧ t.prototype = some p
  function : ∃ o, h.object? f = some o ∧ o.body = .function (.template r)
  prototype : ∃ o, h.object? p = some o ∧ o.body = .plain

def InstanceOf (h : Heap) (x : ObjectRef) (r : TemplateRef) : Prop :=
  ∃ f p o, h.Used r f p ∧ h.object? x = some o ∧ o.body = .plain ∧ o.prototype = some p

variable (hc : h.Classed guarded)

include hc

lemma Classed.function_of_prototype (ht : h.template? r = some t) (hp : t.prototype = some p) :
    ∃ f, t.function = some f := by
  rw [← Option.ne_none_iff_exists', ne_eq, hc.paired r t ht, hp]
  simp

lemma Classed.used (ht : h.template? r = some t) (hf : t.function = some f)
    (hp : t.prototype = some p) : h.Used r f p := by
  obtain ⟨hfunction, o, ho, hplain, -⟩ := hc.crafted r t f p ht hf hp
  exact ⟨⟨t, ht, hf, hp⟩, hfunction, o, ho, hplain⟩

lemma used_instantiate (hwf : h.WellFormed) (hi : h.instantiate r = (some (f, p), h'))
    (hroom : h'.Roomy) : h'.Used r f p := by
  have hu := unfolds_instantiateWithin (r := r) (h.templates.slots.size + 1) hc hwf
  rw [show instantiateWithin (h.templates.slots.size + 1) h r = (some (f, p), h') from hi] at hu
  obtain ⟨t, ht, hf, hp⟩ := (hu hroom).given f p rfl
  exact (hu hroom).classed.used ht hf hp

lemma instanceOf_newInstance (hwf : h.WellFormed) (hn : h.newInstance r = (some x, h'))
    (hroom : h'.Roomy) : h'.InstanceOf x r ∧ ∀ o, h'.object? x = some o → o.properties = [] := by
  obtain ⟨h₁, t, p, hmoves, ht, hp, hnew⟩ := newInstance_of_some hn
  have hmade : Stride (fun _ => guarded) h₁ (h₁.allocate (t.instanceOf p)).2 :=
    .move (.newInstance r t p ht hp)
  have hl : h.Strides (fun _ => guarded) h₁ :=
    Relation.ReflTransGen.mono (fun _ _ hm => .move hm) _ _ hmoves
  obtain ⟨rfl, rfl⟩ := Prod.mk.inj hnew
  have hroom₁ := hmade.leads.roomy hroom
  have hwf₁ := hl.leads.wellFormed hwf hroom₁
  have hc₁ : h₁.Classed guarded :=
    hl.keeps (fun a b hwf hroom hs => hs.classed hwf hroom) hwf hroom₁ hc
  obtain ⟨-, hself, -⟩ := adds_allocate hwf₁ hroom₁ (t.instanceOf p)
  have ht' : (h₁.allocate (t.instanceOf p)).2.template? r = some t := by
    rw [template?, allocate_templates]
    exact ht
  obtain ⟨f, hf⟩ := hc₁.function_of_prototype ht hp
  refine ⟨⟨f, p, t.instanceOf p, (hmade.classed hwf₁ hroom hc₁).used ht' hf hp, hself, rfl, rfl⟩,
    fun o ho => ?_⟩
  rw [← Option.some.inj (hself.symm.trans ho)]
  rfl

omit hc in
lemma foundIn_of_plain (hb : o.body = .plain) (key : Key) :
    h.foundIn o key = (o.own? key).map (·.slot.found) := by
  have hcomputed : h.computed? o key = none :=
    computed?_of_storable (by rw [hb]; trivial) (by rw [hb]; rfl)
  rw [foundIn, hcomputed]
  refine Option.map_congr fun property _ => ?_
  cases property.slot with
  | data v => rfl
  | accessor getter setter => cases getter <;> rfl

-- From the prototype of a class upwards, what is found first is the member of the first class of
-- the chain that declares it.
lemma Classed.found (hname : name ≠ "constructor") (ha : h.Ancestry (some r) classes)
    (hguarded : ∀ t ∈ classes, ∀ p, t.prototype = some p → guarded p (.ofName name))
    (ht : h.template? r = some t) (hp : t.prototype = some p) {steps : Nat}
    (hsteps : classes.length ≤ steps) (hm : classes.findSome? (·.member? name) = some member) :
    ∃ property, h.Installed (some member) (some property) ∧
      (h.chainFrom steps (some p)).findSome? (·.own? (.ofName name)) = some property ∧
      (h.chainFrom steps (some p)).findSome? (h.foundIn · (.ofName name)) =
        some property.slot.found := by
  induction classes generalizing r p t steps with
  | nil => cases hm
  | cons first above ih =>
    obtain ⟨hfirst, habove⟩ := ha
    obtain rfl := Option.some.inj (hfirst.symm.trans ht)
    obtain ⟨f, hf⟩ := hc.function_of_prototype ht hp
    obtain ⟨-, o, ho, hplain, hinherits, hmembers⟩ := hc.crafted r first f p ht hf hp
    have hinstalled := hmembers name hname (hguarded first List.mem_cons_self p hp)
    obtain ⟨steps, rfl⟩ : ∃ n, steps = n + 1 := ⟨steps - 1, by simp at hsteps; omega⟩
    rw [chainFrom_of_object ho, List.findSome?_cons, List.findSome?_cons, foundIn_of_plain hplain]
    rw [List.findSome?_cons] at hm
    cases hfound : first.member? name with
    | some declared =>
      rw [hfound] at hm hinstalled
      obtain rfl := Option.some.inj hm
      cases hown : o.own? (.ofName name) with
      | none =>
        rw [hown] at hinstalled
        exact absurd hinstalled (by rintro ⟨⟩)
      | some property => exact ⟨property, hown ▸ hinstalled, rfl, rfl⟩
    | none =>
      rw [hfound] at hm hinstalled
      cases hown : o.own? (.ofName name) with
      | some property =>
        rw [hown] at hinstalled
        exact absurd hinstalled (by rintro ⟨⟩)
      | none =>
        cases above with
        | nil => cases hm
        | cons second rest =>
          cases hq : first.parent with
          | none =>
            rw [hq] at habove
            exact habove.elim
          | some q =>
            rw [hq] at habove
            obtain ⟨p', hp', hcontinues⟩ := hinherits q second hq habove.1
            rw [hcontinues]
            exact ih habove (fun t ht => hguarded t (List.mem_cons_of_mem _ ht)) habove.1 hp'
              (by simpa using hsteps) hm

lemma Classed.resolved (hname : name ≠ "constructor") (ha : h.Ancestry (some r) classes)
    (hlength : classes.length ≤ 64)
    (hguarded : ∀ t ∈ classes, ∀ p, t.prototype = some p → guarded p (.ofName name))
    (hi : h.InstanceOf x r) (ho : h.object? x = some o) (hown : o.own? (.ofName name) = none)
    (hm : classes.findSome? (·.member? name) = some member) :
    ∃ property, h.Installed (some member) (some property) ∧
      h.lookup x (.ofName name) = property.slot.found ∧
      h.storePlan x (.ofName name) = property.slot.plan := by
  obtain ⟨f, p, o', ⟨⟨t, ht, -, hp⟩, -, -⟩, ho', hplain, hprototype⟩ := hi
  obtain rfl := Option.some.inj (ho'.symm.trans ho)
  obtain ⟨property, hinstalled, hfirst, hfound⟩ := hc.found hname ha hguarded ht hp hlength hm
  have hchain : h.chainFrom maxPrototypes (some x) = o' :: h.chainFrom 64 (some p) := by
    rw [maxPrototypes, chainFrom_of_object ho, hprototype]
  refine ⟨property, hinstalled, ?_, ?_⟩
  · rw [lookup, lookupFrom_eq, hchain, List.findSome?_cons, foundIn_of_plain hplain, hown]
    simp only [Option.map_none, hfound, Option.getD_some]
  · rw [storePlan, storePlanFrom_eq, hchain, List.findSome?_cons, hown]
    simp only [hfirst, Option.map_some, Option.getD_some]

end Heap

namespace Engine

-- What a read comes to where a member is found: the function of a method, or the run of a getter
-- with the object as its receiver.
def ReadsMember (host : Host σ) (w : World σ) (e : EngineId) (x : ObjectRef) (key : Key) :
    Template.Member → Prop
  | .method data => ∃ f o, (w.engine e).heap.object? f = some o ∧
      o.body = .function (.native data) ∧ Reads host w e x key (.object f)
  | .accessor (some getter) _ => Runs host w e x key getter
  | .accessor none _ => Reads host w e x key .undefined

-- What a write comes to: a property of the object's own in front of a method, the run of a setter
-- with the object as its receiver, or nothing.
def WritesMember (host : Host σ) (w : World σ) (e : EngineId) (x : ObjectRef) (key : Key)
    (member : Template.Member) : Prop :=
  ∀ name v, (w.engine e).heap.keyOf name = key → setProperty host e x name v w =
    match member with
    | .method _ => (.ok (), w.modifyEngine e
        ({ · with heap := (w.engine e).heap.modifyObject x (·.define key v true) }))
    | .accessor _ (some setter) =>
      (do return (← outcome e (← dispatch host e setter ⟨.set v, .object x, []⟩)).map fun _ => ()) w
    | .accessor _ none => (.ok (), w)

variable {w : World τ} {handlers : Host τ} {e : EngineId} {x : ObjectRef} {key : Key}
  {member : Template.Member} {property : Property}

lemma readsMember_of_found (halive : (w.engine e).heap.isAlive x = true)
    (hi : (w.engine e).heap.Installed (some member) (some property))
    (hfound : (w.engine e).heap.lookup x key = property.slot.found) :
    ReadsMember handlers w e x key member := by
  cases hi with
  | method data p f o hp ho hb =>
    rw [hp] at hfound
    exact ⟨f, o, ho, hb, reads_of_answer halive (by rw [hfound]; rfl)⟩
  | accessor getter setter p hp =>
    rw [hp] at hfound
    cases getter with
    | some getter => exact runs_of_answer halive (by rw [hfound]; rfl)
    | none => exact reads_of_answer halive (by rw [hfound]; rfl)

lemma writesMember_of_plan (ho : (w.engine e).heap.object? x = some o) (hplain : o.body = .plain)
    (hi : (w.engine e).heap.Installed (some member) (some property))
    (hplan : (w.engine e).heap.storePlan x key = property.slot.plan) :
    WritesMember handlers w e x key member := by
  intro name v hname
  have halive := Heap.isAlive_of_object? _ x o ho
  subst hname
  cases hi with
  | method data p f of hp =>
    rw [hp] at hplan
    exact setProperty_of_stored halive hplan
      (Heap.storeOwn_of_unreserved ho (by rw [hplain]; trivial) (by rw [hplain]; rfl) v)
  | accessor getter setter p hp =>
    rw [hp] at hplan
    cases setter with
    | some setter =>
      rw [setProperty_of_alive halive]
      simp only [hplan, PropertySlot.plan]
    | none =>
      rw [setProperty_of_alive halive]
      simp only [hplan, PropertySlot.plan]
      rfl

end Engine

-- The places that decide what a name stands for on instances: the prototypes of the classes.
def sealed (e : EngineId) (classes : List Template) (name : String) (d : EngineId) (_ : Heap)
    (r : ObjectRef) (key : Key) : Prop :=
  d = e ∧ key = .ofName name ∧ ∃ t ∈ classes, t.prototype = some r

-- A class that has been used keeps its function and its prototype while it is there, and an instance
-- of it stays one.
structure Heap.KeepsClasses (h h' : Heap) : Prop where
  used : ∀ r f p, h.Used r f p → (h'.template? r).isSome = true → h'.Used r f p
  instances : ∀ x r, h.InstanceOf x r → (h'.template? r).isSome = true → h'.isAlive x = true →
    h'.InstanceOf x r

lemma Heap.Strides.keepsClasses (guarded : ObjectRef → Key → Prop) {h h' : Heap}
    (hl : h.Strides (fun _ => guarded) h') (hwf : h.WellFormed) (hroom : h'.Roomy)
    (hc : h.Classed guarded) : h.KeepsClasses h' := by
  have hc' : h'.Classed guarded :=
    hl.keeps (fun a b hwf hroom hs => hs.classed hwf hroom) hwf hroom hc
  have hused : ∀ r f p, h.Used r f p → (h'.template? r).isSome = true → h'.Used r f p := by
    rintro r f p ⟨⟨t, ht, hf, hp⟩, -, -⟩ hthere
    obtain ⟨t', ht'⟩ := Option.isSome_iff_exists.mp hthere
    obtain rfl := (hl.template_becomes hwf hroom hc ht ht').used (by rw [hf]; rfl)
    exact hc'.used ht' hf hp
  refine ⟨hused, ?_⟩
  rintro x r ⟨f, p, o, hu, ho, hplain, hprototype⟩ hthere halive
  obtain ⟨o', ho'⟩ := (isAlive_iff h' x).mp halive
  obtain ⟨hbody, hsame⟩ := hl.object_becomes hwf hroom ho ho'
  exact ⟨f, p, o', hused r f p hu hthere, ho', hbody.plain_iff.mpr hplain, hsame.trans hprototype⟩

-- A class keeps the function and the prototype it gets when it is first used, and reads and writes
-- on an instance go to the first class of the chain that declares the name.
theorem inherited_members_resolve (hh : host.Heedful diary nowhere) (w : World σ)
    (hw : w.Charted diary nowhere host) :
    (w.moments diary).Pairwise (fun m m' => ∀ e, m.HasEngine e → (m'.engine e).heap.Roomy →
      (m.engine e).heap.KeepsClasses (m'.engine e).heap) ∧
    ∀ (handlers : Host τ) (m : World τ), m.seen ∈ w.moments diary → ∀ e, m.HasEngine e →
      (∀ r f p h', (m.engine e).heap.instantiate r = (some (f, p), h') → h'.Roomy → h'.Used r f p) ∧
      (∀ r x h', (m.engine e).heap.newInstance r = (some x, h') → h'.Roomy →
        h'.InstanceOf x r ∧ ∀ o, h'.object? x = some o → o.properties = []) ∧
      (∀ n d parent c m', m.Has n → (m.environment n).engine = e →
        (m.engine e).heap.templates.slots.size < 2 ^ 32 →
        (m.environment n).tables.members.size + 1 + d.properties.length + d.methods.length ≤ 2 ^ 32 →
        (∀ name, d.name = some name → (Environment.getClass n name m).1 = none) →
        Environment.createClass n d parent m = (.ok c, m') → m.Compiled n d parent c m') ∧
      ∀ name r classes, name ≠ "constructor" → host.Heedful diary (sealed e classes name) →
        w.Charted diary (sealed e classes name) host → (m.engine e).heap.Roomy →
        (m.engine e).heap.Ancestry (some r) classes → classes.length ≤ 64 →
        ∀ x o member, (m.engine e).heap.InstanceOf x r → (m.engine e).heap.object? x = some o →
          o.own? (.ofName name) = none → classes.findSome? (·.member? name) = some member →
          Engine.ReadsMember handlers m e x (.ofName name) member ∧
          Engine.WritesMember handlers m e x (.ofName name) member := by
  have hmoment : ∀ m ∈ w.moments diary, ∀ e, m.HasEngine e → (m.engine e).heap.Roomy →
      (m.engine e).heap.WellFormed ∧ (m.engine e).heap.Classed fun _ _ => False := by
    intro m hm e he hroom
    obtain ⟨limits, hl⟩ := hw.strides hh hm he
    exact ⟨((Heap.grown_fresh limits).leads hl.leads).wellFormed hroom,
      Heap.Strides.classed (fun _ _ => False) hl hroom⟩
  refine ⟨?_, fun handlers m hm e he => ⟨fun r f p h' hi hroom => ?_, fun r x h' hn hroom => ?_, ?_, ?_⟩⟩
  · refine (List.pairwise_cons.mp (hw.pairwise_moments hh)).2.imp_of_mem fun {m m'} hm _ hadvances => ?_
    intro e he hroom
    obtain ⟨limits, hstart⟩ := hw.strides hh hm he
    have hl := hadvances.kept e he ((Heap.grown_fresh limits).leads hstart.leads)
    obtain ⟨hwf, hc⟩ := hmoment m hm e he (hl.leads.roomy hroom)
    exact Heap.Strides.keepsClasses (fun _ _ => False) hl hwf hroom hc
  · have hl := ((m.engine e).heap.moves_instantiate r).leads
    rw [hi] at hl
    obtain ⟨hwf, hc⟩ := hmoment m.seen hm e he (hl.roomy hroom)
    exact Heap.used_instantiate hc hwf hi hroom
  · have hl := ((m.engine e).heap.moves_newInstance r).leads
    rw [hn] at hl
    obtain ⟨hwf, hc⟩ := hmoment m.seen hm e he (hl.roomy hroom)
    exact Heap.instanceOf_newInstance hc hwf hn hroom
  · rintro n d parent c m' hn rfl hsize hroom hnew hc
    exact Environment.createClass_compiled hn he hsize hnew hc hroom
  · intro name r classes hname hheedful hcharted hroom ha hlength x o member hi ho hown hdeclared
    obtain ⟨limits, hl⟩ := hcharted.strides hheedful hm he
    have hc := Heap.Strides.classed
      (fun p key => e = e ∧ key = .ofName name ∧ ∃ t ∈ classes, t.prototype = some p) hl hroom
    obtain ⟨property, hinstalled, hfound, hplan⟩ := hc.resolved hname ha hlength
      (fun t ht p hp => ⟨rfl, rfl, t, ht, hp⟩) hi ho hown hdeclared
    obtain ⟨-, -, o', -, ho', hplain, -⟩ := hi
    obtain rfl := Option.some.inj (ho'.symm.trans ho)
    exact ⟨Engine.readsMember_of_found (Heap.isAlive_of_object? _ x o' ho) hinstalled hfound,
      Engine.writesMember_of_plan ho hplain hinstalled hplan⟩

def upper : ClassDefinition :=
  { name := some "A", constructor := some (⟨⟨0⟩, none⟩, 0)
    properties := [{ name := "v", getter := some ⟨⟨1⟩, none⟩ }]
    methods := [{ name := "m", function := ⟨⟨2⟩, none⟩ }] }

def lower : ClassDefinition :=
  { name := some "B", constructor := some (⟨⟨3⟩, none⟩, 0)
    methods := [{ name := "m", function := ⟨⟨4⟩, none⟩ }] }

def derived : World Unit :=
  World.after Host.inert { host := () } [.newEngine {}, .attach ⟨0⟩,
    .operate ⟨0⟩ (.createClass none upper), .operate ⟨0⟩ (.createClass (some ⟨0⟩) lower),
    .operate ⟨0⟩ (.newInstance ⟨1⟩)]

def derivedClasses : List Template :=
  [{ className := some "B", constructor := some (.encode .member 3), parent := some (.first 0)
     fieldCount := 2, methods := [("m", .encode .member 4)]
     function := some (.first 6), prototype := some (.first 5) },
   { className := some "A", constructor := some (.encode .member 0), fieldCount := 2
     accessors := [("v", some (.encode .member 1), none)], methods := [("m", .encode .member 2)]
     function := some (.first 3), prototype := some (.first 2) }]

lemma derived_ancestry : (derived.engine ⟨0⟩).heap.Ancestry (some (.first 1)) derivedClasses := by
  refine ⟨?_, ?_, trivial⟩ <;> decide +kernel

lemma derived_instance : (derived.engine ⟨0⟩).heap.object? (.first 7) =
    some { body := .plain, prototype := some (.first 5), fields := some {} } := by
  cbv

lemma derived_instanceOf : (derived.engine ⟨0⟩).heap.InstanceOf (.first 7) (.first 1) := by
  have hfunction : ((derived.engine ⟨0⟩).heap.object? (.first 6)).map (·.body) =
      some (.function (.template (.first 1))) := by cbv
  have hprototype : ((derived.engine ⟨0⟩).heap.object? (.first 5)).map (·.body) = some .plain := by cbv
  exact ⟨.first 6, .first 5, _, ⟨⟨_, derived_ancestry.1, rfl, rfl⟩,
    Option.map_eq_some_iff.mp hfunction, Option.map_eq_some_iff.mp hprototype⟩, derived_instance,
    rfl, rfl⟩

theorem inherited_members_resolve_derived :
    (Engine.ReadsMember Host.inert derived ⟨0⟩ (.first 7) (.ofName "m") (.method (.encode .member 4)) ∧
      Engine.WritesMember Host.inert derived ⟨0⟩ (.first 7) (.ofName "m")
        (.method (.encode .member 4))) ∧
    Engine.ReadsMember Host.inert derived ⟨0⟩ (.first 7) (.ofName "v")
        (.accessor (some (.encode .member 1)) none) ∧
      Engine.WritesMember Host.inert derived ⟨0⟩ (.first 7) (.ofName "v")
        (.accessor (some (.encode .member 1)) none) := by
  have hroom : (derived.engine ⟨0⟩).heap.Roomy := show _ < _ by decide +kernel
  have hcharted : ∀ name,
      derived.Charted (fun _ => []) (sealed ⟨0⟩ derivedClasses name) Host.inert := fun name =>
    World.charted_after_of_spares Host.inert rfl _ fun action ha w x hx => by
      simp only [List.mem_cons, List.not_mem_nil, or_false] at ha
      rcases ha with rfl | rfl | rfl | rfl | rfl <;> exact absurd hx List.not_mem_nil
  have hresolve := fun name => ((inherited_members_resolve Host.inert_heedful derived
    (World.charted_inert () _)).2 Host.inert derived (by simp [World.moments]) ⟨0⟩
      (by decide +kernel)).2.2.2 name (.first 1) derivedClasses
  exact ⟨hresolve "m" (by decide) Host.inert_heedful (hcharted "m") hroom derived_ancestry (by decide)
      (.first 7) _ _ derived_instanceOf derived_instance (by cbv) (by cbv),
    hresolve "v" (by decide) Host.inert_heedful (hcharted "v") hroom derived_ancestry (by decide)
      (.first 7) _ _ derived_instanceOf derived_instance (by cbv) (by cbv)⟩

-- The first class alone, used once. Then its prototype gets a property before an instance is made,
-- or its template is discarded.
def engaged : World Unit :=
  World.after Host.inert { host := () } [.newEngine {}, .attach ⟨0⟩,
    .operate ⟨0⟩ (.createClass none upper), .operate ⟨0⟩ (.classConstructor ⟨0⟩)]

def overlaid : World Unit :=
  engaged.after Host.inert [
    .operate ⟨0⟩ (.setProperty (.transient (.first 2)) (.utf8 "m") (.int 5)),
    .operate ⟨0⟩ (.newInstance ⟨0⟩)]

def abandoned : World Unit :=
  engaged.after Host.inert [.request ⟨0⟩ (.discardTemplate (.first 0))]

-- The property hides the method, and the class that was discarded has no constructor function any
-- more.
theorem stored_property_hides_method :
    (((overlaid.engine ⟨0⟩).heap.template? (.first 0)).bind (·.member? "m") =
        some (.method (.encode .member 2)) ∧
      (overlaid.engine ⟨0⟩).heap.object? (.first 4) =
        some { body := .plain, prototype := some (.first 2), fields := some {} } ∧
      (Environment.getProperty Host.inert ⟨0⟩ (.transient (.first 4)) (.utf8 "m") 0 overlaid).1 =
        some (.int 5)) ∧
    (Environment.classConstructor ⟨0⟩ ⟨0⟩ engaged).1 = some (.transient (.first 3)) ∧
      (Environment.classConstructor ⟨0⟩ ⟨0⟩ abandoned).1 = none :=
  ⟨⟨by cbv, by cbv, by cbv⟩, by cbv, by cbv⟩

end HostBoundary
