import HostBoundary.Proofs.PropertyMap

namespace HostBoundary

variable {σ : Type} {n m : EnvironmentId} {e : EngineId} {name : String} {done : Bool × World σ}
  {v : Value} {refused : ConversionError} {f : NativeFunction}

namespace Environment

section Lookup

variable (w : World σ) (hn : (w.environment n).engine = e)

include hn

lemma toValue_spec (value : Tagged) :
    (toValue n value w).1 = (w.engine e).heap.valueOf? value ∧ w.Rerooted e (toValue n value w).2 := by
  subst hn
  exact ⟨rfl, .onHeap w (·.ofTagged value) (Heap.alike_ofTagged _ value)
    (Heap.moves_ofTagged _ value).leads⟩

variable {object : Handle} {r : ObjectRef} {key : Tagged} {k : Value}
  (hr : ((w.engine e).heap.resolveHandle object).1 = some r)
  (hk : (w.engine e).heap.valueOf? key = some k)

include hr hk

lemma named_spec : ∃ w₁ w₂, resolve n object w = (some r, w₁) ∧ toValue n key w₁ = (some k, w₂) ∧
    w.Rerooted e w₂ := by
  obtain ⟨hfound, hr₁⟩ := resolve_spec w hn object
  generalize hw₁ : (resolve n object w).2 = w₁ at hr₁
  have hn₁ : (w₁.environment n).engine = e := by rw [hr₁.environment, hn]
  obtain ⟨hvalue, hr₂⟩ := toValue_spec w₁ hn₁ key
  exact ⟨w₁, _, Prod.ext (hfound.trans hr) hw₁,
    Prod.ext (hvalue.trans ((hr₁.heap.valueOf? key).trans hk)) rfl, hr₁.trans hr₂⟩

lemma getProperty_eq (flags : Flags) :
    ∃ w', w.Rerooted e w' ∧ ∀ host : Host σ, getProperty host n object key flags w =
      (Engine.getProperty host e r k >>= deliver n flags) w' := by
  obtain ⟨w₁, w₂, hobject, hkey, hrerooted⟩ := named_spec w hn hr hk
  have he : (engineOf n : Act σ EngineId) w₂ = (e, w₂) :=
    congrArg (·, w₂) ((congrArg Environment.engine (hrerooted.environment n)).trans hn)
  refine ⟨w₂, hrerooted, fun host => ?_⟩
  simp only [getProperty, getOn, Engine.bind_apply, hobject, hkey, he]

lemma setProperty_eq {value : Tagged} (hv : (w.engine e).heap.valueOf? value = some v) :
    ∃ w', w.Rerooted e w' ∧ ∀ host : Host σ, setProperty host n object key value w =
      (Engine.setProperty host e r k v >>= succeeded n) w' := by
  obtain ⟨w₁, w₂, hobject, hkey, hr₂⟩ := named_spec w hn hr hk
  have hn₂ : (w₂.environment n).engine = e := by rw [hr₂.environment, hn]
  obtain ⟨hvalue, hr₃⟩ := toValue_spec w₂ hn₂ value
  generalize hw₃ : (toValue n value w₂).2 = w₃ at hr₃
  replace hvalue : toValue n value w₂ = (some v, w₃) :=
    Prod.ext (hvalue.trans ((hr₂.heap.valueOf? value).trans hv)) hw₃
  have he : (engineOf n : Act σ EngineId) w₃ = (e, w₃) :=
    congrArg (·, w₃) ((congrArg Environment.engine ((hr₂.trans hr₃).environment n)).trans hn)
  refine ⟨w₃, hr₂.trans hr₃, fun host => ?_⟩
  simp only [setProperty, setOn, Engine.bind_apply, hobject, hkey, hvalue, he]

end Lookup

-- The text of what stands against an assignment, by what the setter left in the exception slot and
-- what it returned.
def objection? (name : String) (exception : Exception) (accepted : Bool) : Option String :=
  if exception.isSet then
    some (if exception.message.isEmpty then "native callback failed" else exception.message)
  else if accepted then none
  else some s!"property '{name}' rejected the assigned value"

-- What a write comes to for the environment that makes it, if another one runs the setter.
def Acknowledged (m n : EnvironmentId) (name : String) (done result : Bool × World σ) : Prop :=
  match objection? name (done.2.environment m).exception done.1 with
  | none => result.1 = true ∧
    ∀ k, (result.2.environment k).exception = (done.2.environment k).exception
  | some text =>
    result.1 = false ∧ (result.2.environment n).exception = .engine ("Error: " ++ text)

-- A setter that just refuses gets the property named in the slot.
def ruled (name : String) (m : EnvironmentId) (done : Bool × World σ) : World σ :=
  if !done.1 && !(done.2.environment m).exception.isSet then
    done.2.modifyEnvironment m
      ({ · with exception := .native s!"property '{name}' rejected the assigned value" })
  else done.2

lemma ruled_of_accepted (hnone : objection? name (done.2.environment m).exception done.1 = none) :
    ruled name m done = done.2 := by
  unfold objection? at hnone
  unfold ruled
  cases haccepted : done.1 <;> cases hset : (done.2.environment m).exception.isSet <;>
    simp_all

lemma verdict_ruled (hm : done.2.Has m) :
    verdict ((ruled name m done).engine e).heap ((ruled name m done).environment m).exception none =
      match objection? name (done.2.environment m).exception done.1 with
      | none => .ok .undefined
      | some text => .error text := by
  unfold ruled objection?
  cases hset : (done.2.environment m).exception.isSet with
  | true => simp [verdict, hset]
  | false =>
    cases haccepted : done.1 with
    | true => simp [verdict, hset, Heap.resultOf]
    | false =>
      have hfull : (s!"property '{name}' rejected the assigned value").isEmpty = false := by
        simp [toString]
      simp [verdict, World.exception_set hm, Exception.native, Exception.isSet, hfull]

section Assign

variable (host : Host σ) (name : String) (setter : NativeFunction) {flags : Flags} (receiver : Handle)
  {v : Value} {w : World σ} (hm : (View.environment m e).In w)

include hm

lemma assign_of_converted {passed : Tagged} (hv : (w.engine e).heap.toTagged flags v = .ok passed) :
    assign host m name setter flags (some receiver) v w =
      complete m none (ruled name m (setter.set host m receiver passed w)) := by
  obtain ⟨-, -, rfl⟩ := hm
  simp only [assign, Act.environment, Act.heap, bind, StateT.bind, hv]
  rcases setter.set host m receiver passed w with ⟨accepted, w'⟩
  dsimp only [ruled]
  cases accepted <;> cases (w'.environment m).exception.isSet <;> rfl

lemma assign_of_refused (hv : (w.engine e).heap.toTagged flags v = .error refused) :
    assign host m name setter flags (some receiver) v w =
      complete m none (w.modifyEnvironment m
        ({ · with exception := .native s!"cannot assign property '{name}': {refused.message}" })) := by
  rw [complete_of_set _ none (by rw [World.exception_set hm.2.1]; rfl)]
  obtain ⟨-, -, rfl⟩ := hm
  simp only [assign, Act.environment, Act.heap, bind, StateT.bind, hv]
  rfl

end Assign

end Environment

namespace Engine

open Environment (settle)

variable (host : Host σ) {w : World σ} {r : ObjectRef} {k : Value} {data : CallbackData} {name : String}
  {getter setter : Option NativeFunction} {flags : Flags}
  (halive : (w.engine e).heap.isAlive r = true)
  (hreg : w.registration? e data = some (m, .member (.property name getter setter flags)))

include halive hreg

lemma getProperty_of_getter (hf : getter = some f)
    (hfound : (w.engine e).heap.lookup r ((w.engine e).heap.keyOf k) = .getter data) :
    getProperty host e r k w = settle e m (f.get host m (.transient r) (w.entered e m)) := by
  subst hf
  rw [getProperty_of_alive halive, hfound]
  change (do outcome e (← dispatch host e data ⟨.get, .object r, []⟩) : Act σ _) w = _
  rw [bind_apply, dispatch_of_registration host w e m data _ _ hreg, inScope_apply]
  rfl

lemma setProperty_of_setter (hf : setter = some f)
    (hplan : (w.engine e).heap.storePlan r ((w.engine e).heap.keyOf k) = .setter data) (v : Value)
    {w' : World σ}
    (hassign : Environment.assign host m name f flags (some (.transient r)) v (w.entered e m) =
      Environment.complete m none w') :
    setProperty host e r k v w = ((settle e m (none, w')).1.map fun _ => (), (settle e m (none, w')).2) := by
  subst hf
  rw [setProperty_of_alive halive, hplan]
  change (do return (← outcome e (← dispatch host e data ⟨.set v, .object r, []⟩)).map fun _ => () :
    Act σ _) w = _
  rw [bind_apply, bind_apply, dispatch_of_registration host w e m data _ _ hreg, inScope_apply]
  have hrun : Environment.run host m (.member (.property name getter (some f) flags))
      ⟨.set v, .object r, []⟩ = Environment.assign host m name f flags (some (.transient r)) v := by
    cases getter <;> rfl
  rw [hrun, hassign]
  rfl

end Engine

namespace Environment

lemma succeeded_settled (hm : (View.environment m e).In done.2)
    (hn : (View.environment n e).In done.2) (hwf : (done.2.engine e).heap.WellFormed)
    (hroom : (done.2.engine e).heap.Roomy) : let settled := settle e m (none, ruled name m done)
    Acknowledged m n name done (succeeded n (settled.1.map fun _ => ()) settled.2) := by
  intro settled
  have hheap : ((ruled name m done).engine e).heap = (done.2.engine e).heap := by
    unfold ruled
    split <;> rfl
  have hthere : ∀ v : View, v.In done.2 → v.In (ruled name m done) := fun v hv => by
    unfold ruled
    split
    · exact hv.modifyEnvironment m _ fun _ => rfl
    · exact hv
  obtain ⟨hsettled, hstill⟩ := settle_spec (hthere _ hm) (hheap ▸ hwf) (hheap ▸ hroom) none
  rw [verdict_ruled hm.2.1] at hsettled
  unfold Acknowledged
  cases hobjection : objection? name (done.2.environment m).exception done.1 with
  | none =>
    rw [hobjection] at hsettled
    obtain ⟨hok, -, hsame⟩ := hsettled
    have hresult : succeeded n (settled.1.map fun _ => ()) settled.2 = (true, settled.2) := by
      simp only [settled, hok]
      rfl
    rw [hresult]
    exact ⟨rfl, fun k => (hsame k).trans (by rw [ruled_of_accepted hobjection])⟩
  | some text =>
    rw [hobjection] at hsettled
    obtain ⟨thrown, herror, hreport⟩ := hsettled
    have hresult : succeeded n (settled.1.map fun _ => ()) settled.2 =
        (false, settled.2.modifyEnvironment n ({ · with exception := .engine ("Error: " ++ text) })) := by
      simp only [settled, herror, ← hreport]
      rfl
    rw [hresult]
    exact ⟨rfl, World.exception_set (hstill _ (hthere _ hn)).2.1 _⟩

lemma setProperty_of_unfit {w : World σ} (hm : (View.environment m e).In w)
    (hwf : (w.engine e).heap.WellFormed) (hroom : (w.engine e).heap.Roomy) {r : ObjectRef}
    (halive : (w.engine e).heap.isAlive r = true) {data : CallbackData}
    {getter setter : Option NativeFunction} {flags : Flags}
    (hreg : w.registration? e data = some (m, .member (.property name getter setter flags)))
    (hf : setter = some f) {k : Value}
    (hplan : (w.engine e).heap.storePlan r ((w.engine e).heap.keyOf k) = .setter data)
    (hv : (w.engine e).heap.toTagged flags v = .error refused) :
    ∃ thrown w', thrown.report =
        "Error: " ++ s!"cannot assign property '{name}': {refused.message}" ∧ w'.host = w.host ∧
      ∀ host, Engine.setProperty host e r k v w = (.error thrown, w') := by
  have hin := hm.evolves (World.evolves_entered w e m)
  have ha : (w.engine e).heap.Alike ((w.entered e m).engine e).heap := Environment.alike_entered w
  have hset := fun host => Engine.setProperty_of_setter host halive hreg hf hplan v
    (Environment.assign_of_refused host name f (.transient r) hin ((ha.toTagged flags v).trans hv))
  obtain ⟨w', hw'⟩ : ∃ w', w' = (w.entered e m).modifyEnvironment m ({ · with
    exception := .native s!"cannot assign property '{name}': {refused.message}" }) := ⟨_, rfl⟩
  rw [← hw'] at hset
  have hslot : (w'.environment m).exception =
      .native s!"cannot assign property '{name}': {refused.message}" := by
    rw [hw', World.exception_set hin.2.1]
  have hobjects : (w'.engine e).heap.objects = (w.engine e).heap.objects :=
    hw' ▸ ha.objects
  have hwf' : (w'.engine e).heap.WellFormed := by rw [Heap.WellFormed, hobjects]; exact hwf
  have hroom' : (w'.engine e).heap.Roomy := by rw [Heap.Roomy, hobjects]; exact hroom
  have hisSet : (w'.environment m).exception.isSet = true := by rw [hslot]; rfl
  obtain ⟨⟨thrown, herror, hreport⟩, -⟩ := Environment.settle_of_set
    (hw' ▸ hin.modifyEnvironment m _ fun _ => rfl) hwf' hroom' none hisSet
  have hfull : (s!"cannot assign property '{name}': {refused.message}").isEmpty = false := by
    simp [toString]
  refine ⟨thrown, (Environment.settle e m (none, w')).2, ?_, ?_, fun host => ?_⟩
  · simpa [hslot, Exception.native, hfull] using hreport
  · rw [Environment.settle, Environment.complete_of_set w' none hisSet, Engine.left_apply, hw']
    rfl
  · rw [hset host, herror]
    rfl

end Environment

-- A property of a class fails where anyone can see it, with what its setter or getter left in the
-- slot or with its name, and a value the host cannot have never reaches the setter.
theorem accessor_failures_surface (host : Host σ) (hc : host.Conforming) (s : σ) (w : World σ)
    (hrun : World.Evolves { host := s } w) (n m : EnvironmentId) (e : EngineId)
    (hn : (View.environment n e).In w) (hm : (View.environment m e).In w) (data : CallbackData)
    (name : String) (getter setter : Option NativeFunction) (flags : Flags)
    (hreg : w.registration? e data = some (m, .member (.property name getter setter flags)))
    (object : Handle) (r : ObjectRef) (hr : ((w.engine e).heap.resolveHandle object).1 = some r)
    (key : Tagged) (k : Value) (hk : (w.engine e).heap.valueOf? key = some k) :
    let h := (w.engine e).heap
    (∀ f, setter = some f → h.storePlan r (h.keyOf k) = .setter data →
      (∀ value v, h.valueOf? value = some v → ∃ passed w', h.toTagged flags v = .ok passed ∧
        w.Rerooted e w' ∧
        let done := f.set host m (.transient r) passed (w'.entered e m)
        ((done.2.engine e).heap.Roomy → Environment.Acknowledged m n name done
          (Environment.setProperty host n object key value w))) ∧
      ∀ v refused, h.toTagged flags v = .error refused → h.Roomy →
        ∃ thrown w', thrown.report =
            "Error: " ++ s!"cannot assign property '{name}': {refused.message}" ∧
          w'.host = w.host ∧
          ∀ host, Engine.setProperty host e r k v w = (.error thrown, w')) ∧
    ∀ f, getter = some f → h.lookup r (h.keyOf k) = .getter data → ∀ answer, ∃ w', w.Rerooted e w' ∧
      let done := f.get host m (.transient r) (w'.entered e m)
      (done.2.engine e).heap.Roomy →
        Environment.Replied e m n answer done (Environment.getProperty host n object key answer w) := by
  intro h
  have halive : h.isAlive r = true := h.isAlive_of_resolveHandle object r hr
  have hentered : ∀ {w'}, w.Rerooted e w' → w.Evolves (w'.entered e m) := fun hrerooted =>
    hrerooted.evolves.trans (World.evolves_entered _ e m)
  have hwf : ∀ {w'}, w.Evolves w' → (w'.engine e).heap.Roomy → (w'.engine e).heap.WellFormed :=
    fun hev hroom => ((hrun.trans hev).grown (hev.hasEngine hn.1)).wellFormed hroom
  refine ⟨fun f hf hplan => ⟨fun value v hv => ?_, fun v refused hv hroom => ?_⟩,
    fun f hf hfound answer => ?_⟩
  · obtain ⟨passed, hpassed⟩ := h.exists_toTagged flags hv
    obtain ⟨w', hrerooted, hset⟩ := Environment.setProperty_eq w hn.2.2 hr hk hv
    refine ⟨passed, w', hpassed, hrerooted, ?_⟩
    intro done hroom
    have hdone : w.Evolves done.2 :=
      (hentered hrerooted).trans ((hc.visits m).setBy f _ _ _)
    have hassign := Environment.assign_of_converted host name f (.transient r)
      (hm.evolves (hentered hrerooted))
      (((hrerooted.heap.trans (Environment.alike_entered w')).toTagged flags v).trans hpassed)
    rw [hset, Engine.bind_apply, Engine.setProperty_of_setter host
      ((hrerooted.heap.isAlive r).trans halive) ((hrerooted.registration data).trans hreg) hf
      (by rwa [Heap.keyOf_of_objects hrerooted.heap.objects, Heap.storePlan_of_objects hrerooted.heap.objects]) v hassign]
    exact Environment.succeeded_settled (hm.evolves hdone) (hn.evolves hdone) (hwf hdone hroom) hroom
  · exact Environment.setProperty_of_unfit hm (hwf (.refl w) hroom) hroom halive hreg hf hplan hv
  · obtain ⟨w', hrerooted, hget⟩ := Environment.getProperty_eq w hn.2.2 hr hk answer
    refine ⟨w', hrerooted, ?_⟩
    intro done hroom
    have hdone : w.Evolves done.2 :=
      (hentered hrerooted).trans ((hc.visits m).getBy f _ _)
    rw [hget, Engine.bind_apply, Engine.getProperty_of_getter host
      ((hrerooted.heap.isAlive r).trans halive) ((hrerooted.registration data).trans hreg) hf
      (by rwa [Heap.keyOf_of_objects hrerooted.heap.objects, Heap.lookup_of_objects hrerooted.heap.objects])]
    exact Environment.deliver_settled (hn.evolves hdone) (hm.evolves hdone) (hwf hdone hroom) hroom
      answer done.1

-- A host whose setters refuse, and an instance of a class with an accessor.
def stern : Host Unit := { Host.inert with setter := fun _ _ _ _ => pure false }

lemma stern_conforming : stern.Conforming :=
  { Host.inert_conforming with setter := fun _ _ _ _ => .pure _ }

def guarded : World Unit :=
  World.after stern { host := () } [.newEngine {}, .attach ⟨0⟩,
    .operate ⟨0⟩ (.createClass none
      { name := some "A", constructor := some (⟨⟨0⟩, none⟩, 0)
        properties := [{ name := "v", getter := some ⟨⟨1⟩, none⟩, setter := some ⟨⟨2⟩, none⟩ }] }),
    .operate ⟨0⟩ (.newInstance ⟨0⟩)]

theorem accessor_failures_surface_guarded :
    let written := Environment.setProperty stern ⟨0⟩ (.transient (.first 3)) (.utf8 "v") (.int 1) guarded
    (written.1 = false ∧ (written.2.environment ⟨0⟩).exception =
      .engine "Error: property 'v' rejected the assigned value") ∧
    (∃ thrown w', thrown.report = "Error: cannot assign property 'v': engine value of kind symbol has no boundary representation" ∧
      ∀ host, Engine.setProperty host ⟨0⟩ (.first 3) (.text "v") (.symbol 7) guarded =
        (.error thrown, w')) ∧
    (Environment.getProperty stern ⟨0⟩ (.transient (.first 3)) (.utf8 "v") 0 guarded).1 = some .null := by
  have hroom : (guarded.engine ⟨0⟩).heap.Roomy := by
    unfold Heap.Roomy
    decide +kernel
  have hin : (View.environment ⟨0⟩ ⟨0⟩).In guarded :=
    ⟨by decide +kernel, by decide +kernel, by decide +kernel⟩
  obtain ⟨hwrite, -⟩ := accessor_failures_surface stern stern_conforming () guarded
    (World.after_evolves stern_conforming { host := () } _) ⟨0⟩ ⟨0⟩ ⟨0⟩ hin hin (.encode .member 1) "v"
    (some ⟨⟨1⟩, none⟩) (some ⟨⟨2⟩, none⟩) 0 (by decide +kernel) (.transient (.first 3)) (.first 3)
    (by decide +kernel) (.utf8 "v") (.text "v") rfl
  obtain ⟨-, hunfit⟩ := hwrite _ rfl (by decide +kernel)
  obtain ⟨thrown, w', hreport, -, hthrows⟩ := hunfit (.symbol 7) _ rfl hroom
  exact ⟨by decide +kernel, ⟨thrown, w', hreport, hthrows⟩, by decide +kernel⟩

end HostBoundary
