import HostBoundary.Proofs.Tending

namespace HostBoundary

open Environment

variable {σ : Type} {host : Host σ} {ledger : σ → List Entry} {e : EngineId} {n : EnvironmentId}
  {w w' : World σ} {f r : ObjectRef} {hook : ReclaimHook} {data : CallbackData} {h : Heap} {s : σ}
  {c : ClassId} {args : List Tagged} {action : Action} {memory : HostMemory} {slot : PersistentRef}

-- The finalizer of the class whose constructor a function is, as native calls go at the time.
def World.finalizer? (w : World σ) (e : EngineId) (f : ObjectRef) : Option ReclaimHook :=
  ((w.engine e).heap.callback? (.function f)).bind fun data =>
    (w.registration? e data).bind fun found =>
      match found.2 with
      | .member (.construct _ _ finalizer) => finalizer
      | _ => none

lemma World.finalizer?_eq_some (hf : w.finalizer? e f = some hook) :
    ∃ data n function flags, (w.engine e).heap.callback? (.function f) = some data ∧
      w.registration? e data = some (n, .member (.construct function flags (some hook))) := by
  obtain ⟨data, hdata, hbind⟩ := Option.bind_eq_some_iff.mp hf
  obtain ⟨⟨n, callback⟩, hfound, hhook⟩ := Option.bind_eq_some_iff.mp hbind
  dsimp only at hhook
  split at hhook
  · rename_i function flags _
    exact ⟨data, n, function, flags, hdata, hhook ▸ hfound⟩
  · cases hhook

lemma World.dispatcher_of_registration? {callback : Callback}
    (h : w.registration? e data = some (n, callback)) : (w.engine e).dispatcher = some n := by
  obtain ⟨m, hd, hm⟩ := Option.bind_eq_some_iff.mp h
  obtain ⟨_, -, hpair⟩ := Option.map_eq_some_iff.mp hm
  obtain ⟨rfl, -⟩ := Prod.mk.inj hpair
  exact (Option.filter_eq_some_iff.mp hd).1

lemma Heap.hold_of_isAlive (ha : h.isAlive r = true) (hook : Option ReclaimHook) :
    ∃ slot, (h.hold r hook).1 = some slot := by
  simp [hold, persist, ha]

namespace Engine

lemma constructTarget_callback {w₁ : World σ} {target : ObjectRef}
    (hc : constructTarget e f w = (.ok (data, target), w₁)) :
    (w.engine e).heap.callback? (.function f) = some data := by
  obtain ⟨h, -, ⟨hbody, -⟩ | ⟨t, hbody, hdata, -⟩⟩ := constructTarget_of_ok hc
  · exact callback?_of_native w e f data hbody
  · exact callback?_of_template w e f t data hbody hdata

lemma isAlive_modifyEngine
    (ha : ((w.setHeap e h).engine e).heap.isAlive r = true)
    (hobjects : h.objects = (w.engine e).heap.objects) : (w.engine e).heap.isAlive r = true := by
  rw [World.engine_modifyEngine] at ha
  split at ha
  · rwa [Heap.isAlive, hobjects] at ha
  · exact ha

lemma isAlive_of_left {c : Completion} (ha : ((left e n (c, w)).2.engine e).heap.isAlive r = true) :
    (w.engine e).heap.isAlive r = true := by
  rw [left_apply] at ha
  exact isAlive_modifyEngine ha (Heap.leave_objects _ c)

lemma construct_of_ok {args : List Value} (hc : construct host e f args w = (.ok r, w')) :
    ∃ data target w₁ value, constructTarget e f w = (.ok (data, target), w₁) ∧
      dispatch host e data ⟨.construct, .object target, args⟩ w₁ = (.ok value, w') ∧
      r = value.object?.getD target := by
  simp only [construct, bind_apply] at hc
  cases hfound : constructTarget e f w with
  | mk found w₁ =>
    rw [hfound] at hc
    cases found with
    | error thrown => exact absurd (Prod.mk.inj hc).1 (by simp)
    | ok pair =>
      obtain ⟨data, target⟩ := pair
      dsimp only at hc
      cases hdone : dispatch host e data ⟨.construct, .object target, args⟩ w₁ with
      | mk c w₂ =>
        rw [bind_apply, hdone] at hc
        cases c with
        | error thrown => exact absurd (Prod.mk.inj hc).1 (by simp [Except.map])
        | ok value =>
          obtain ⟨hr, rfl⟩ := Prod.mk.inj hc
          exact ⟨data, target, w₁, value, rfl, hdone, (Except.ok.inj hr).symm⟩

-- The object that a constructor with a finalizer returns is the one that it was made for, and it has
-- its finalizer, if it is still there.
lemma construct_tells (hh : host.Keeps (World.Told ledger) (World.Noted ledger)) (hw : w.Staffed)
    {args : List Value} (hf : w.finalizer? e f = some hook)
    (hc : construct host e f args w = (.ok r, w')) (halive : (w'.engine e).heap.isAlive r = true) :
    ∃ fresh slot, .ward ⟨e, r, hook, slot⟩ ∈ fresh ∧ World.Tells ledger fresh w w' := by
  obtain ⟨data, target, w₁, value, htarget, hdispatch, hr⟩ := construct_of_ok hc
  obtain ⟨found, n, function, flags, hfound, hregistration⟩ := World.finalizer?_eq_some hf
  obtain rfl := Option.some.inj (hfound.symm.trans (constructTarget_callback htarget))
  obtain ⟨he, h, rfl, hb⟩ := constructTarget_bears htarget
  have hprepared : Prepared w e (w.setHeap e h) :=
    .inr ⟨h, hb.works.leads, rfl⟩
  have hstaffed : (w.setHeap e h).Staffed := hw.modifyEngine e _ rfl
  have hfound' := (hprepared.registration? found).trans hregistration
  obtain ⟨hn, hengine⟩ : _ ∧ _ := hstaffed e n (World.dispatcher_of_registration? hfound')
  rw [dispatch_of_registration _ _ e n found _ _ hfound', inScope_apply,
    run_construct] at hdispatch
  have hinvoke := Host.Keeps.entered hstaffed hn e
    ((hh.visits (World.order_told ledger) List.mem_cons_self).invoke function flags
      (some (.transient target)) args)
  generalize invoke host n function flags (some (.transient target)) args _ = ran
    at hinvoke hdispatch
  obtain ⟨c, w₂⟩ := ran
  cases c with
  | error thrown =>
    rw [left_apply] at hdispatch
    exact absurd (Prod.mk.inj hdispatch).1 (by simp)
  | ok _ =>
    have hsame : (w₂.environment n).engine = e := by
      rw [hinvoke.retains.engine n ((has_entered _ e n n).mpr hn), environment_entered hn, if_pos rfl]
      exact hengine
    dsimp only at hdispatch
    rw [hsame] at hdispatch
    have hleft : (left e n (_, _)).2 = w' := congrArg Prod.snd hdispatch
    rw [left_apply] at hdispatch
    obtain rfl := Except.ok.inj (Prod.mk.inj hdispatch).1
    obtain rfl : r = target := hr
    obtain ⟨fresh, hbody⟩ := hinvoke.kept
    have hthere : (w₂.engine e).heap.isAlive r = true := by
      rw [← hleft] at halive
      exact isAlive_modifyEngine (isAlive_of_left halive) (Heap.hold_objects r (some hook))
    obtain ⟨slot, hslot⟩ := Heap.hold_of_isAlive hthere (some hook)
    obtain ⟨h₁, o, hl, ho, hmade, -⟩ := hb
    have hborn := World.Tells.birth he hl ho hmade ((World.Tells.enter _ e n).trans hbody) hslot
    rw [← hleft]
    exact ⟨_, slot, by simp, hborn.trans (.leave _ e n _)⟩

end Engine

namespace Environment

lemma newInstance_tells {compiled : CompiledClass} {f : ReclaimHook}
    (hclass : w.class? c = some compiled) (hf : compiled.finalizer = some f)
    (hmade : (newInstance n c w).1 = some (.transient r))
    (halive : ((newInstance n c w).2.engine (w.environment n).engine).heap.isAlive r = true) :
    ∃ fresh slot, .ward ⟨(w.environment n).engine, r, f, slot⟩ ∈ fresh ∧
      World.Tells ledger fresh w (newInstance n c w).2 := by
  rcases newInstance_cases n c w with ⟨h, -, -, hnone⟩ | ⟨he, found, f', r', h, hfound, hf', hnew, hr, hreplaces⟩
  · rw [hnone compiled f hclass hf] at hmade
    cases hmade
  · obtain rfl := Option.some.inj (hclass.symm.trans hfound)
    obtain rfl := Option.some.inj (hf.symm.trans hf')
    obtain rfl : r' = r := by
      rw [hr] at hmade
      exact Handle.transient.inj (Option.some.inj hmade)
    generalize (w.environment n).engine = e at *
    generalize (newInstance n c w).2 = w' at *
    have hthere : h.isAlive r' = true := by
      rw [hreplaces.heap, World.heap_modifyEngine he] at halive
      rwa [Heap.isAlive, Heap.hold_objects] at halive
    obtain ⟨slot, hslot⟩ := Heap.hold_of_isAlive hthere (some f)
    obtain ⟨h₁, o, hl, ho, hallocate, -⟩ := Heap.bears_newInstance hnew
    have hheap := World.heap_modifyEngine he h
    have hborn : World.Tells ledger _ w _ :=
      .birth he hl ho hallocate (.of_eq rfl rfl) (hheap ▸ hslot)
    rw [hheap] at hborn
    have hagain := (World.Replaces.modifyEngine w e h).again (h.hold r' (some f)).2
    exact ⟨_, slot, by simp, hborn.trans
      (.of_eq (hreplaces.estates.trans hagain.estates.symm) (congrArg ledger hreplaces.host))⟩

end Environment

namespace Action

def instance? : Action → Option (EnvironmentId × ClassId)
  | .operate n (.newInstance c) => some (n, c)
  | .foreign env (.newInstance c) => (Foreign.fullEnvironment env).bind fun n => c.map (n, ·)
  | _ => none

lemma perform_of_instance? (ha : action.instance? = some (n, c)) :
    (action.perform host w).2 = (Environment.newInstance n c w).2 := by
  cases action with
  | operate m op =>
    cases op with
    | newInstance d =>
      obtain ⟨rfl, rfl⟩ := Prod.mk.inj (Option.some.inj ha)
      rfl
    | _ => exact absurd ha (by simp [instance?])
  | foreign env call =>
    cases call with
    | newInstance d =>
      obtain ⟨m, hm, hd⟩ := Option.bind_eq_some_iff.mp ha
      obtain ⟨d, rfl, hpair⟩ := Option.map_eq_some_iff.mp hd
      obtain ⟨rfl, rfl⟩ := Prod.mk.inj hpair
      simp only [perform, Foreign.perform, Foreign.withFull, hm]
      rfl
    | _ => exact absurd ha (by simp [instance?])
  | _ => exact absurd ha (by simp [instance?])

-- The function that is to construct and what it is given, once all that is looked up.
def constructing (n : EnvironmentId) (f : ObjectRef) (args : List Tagged) :
    Act σ (Option (EngineId × ObjectRef × List Value)) := do
  let some values ← Environment.toValues n args | return none
  return some (← Environment.engineOf n, f, values)

def constructs : Action → Act σ (Option (EngineId × ObjectRef × List Value))
  | .operate n (.newInstanceWithConstructor c args) => ofClass n c args
  | .operate n (.construct args function) => ofHandle n function args
  | .request e (.construct f args) => pure (some (e, f, args))
  | .foreign env (.newInstanceWithConstructor (some c) args) =>
    match Foreign.fullEnvironment env, Foreign.readValues args with
    | some n, some args => ofClass n c args
    | _, _ => pure none
  | .foreign env (.callAsConstructor function args) =>
    match Foreign.fullEnvironment env, Handle.ofRaw? function, Foreign.readValues args with
    | some n, some function, some args => ofHandle n function args
    | _, _, _ => pure none
  | _ => pure none
where
  ofClass (n : EnvironmentId) (c : ClassId) (args : List Tagged) :
      Act σ (Option (EngineId × ObjectRef × List Value)) := do
    let some compiled := (← get).class? c | return none
    let some f ← Environment.onHeap n (·.templateFunction compiled.template) | return none
    constructing n f args
  ofHandle (n : EnvironmentId) (function : Handle) (args : List Tagged) :
      Act σ (Option (EngineId × ObjectRef × List Value)) := do
    let some f ← Environment.resolve n function | return none
    constructing n f args

section Constructs

variable {w w₁ w' : World σ} {f g r : ObjectRef} {values : List Value}

lemma constructWith_of_constructing (ha : constructing n f args w = (some (e, g, values), w₁))
    (hc : Engine.construct host e g values w₁ = (.ok r, w')) :
    constructWith host n f args w = (some (.transient r), w') := by
  simp only [constructing, constructWith, Engine.bind_apply] at ha ⊢
  cases hfound : toValues n args w with
  | mk found w₂ =>
    rw [hfound] at ha
    cases found with
    | none => exact absurd (Prod.mk.inj ha).1 (by simp)
    | some found =>
      obtain ⟨hsome, rfl⟩ := Prod.mk.inj ha
      obtain ⟨rfl, hrest⟩ := Prod.mk.inj (Option.some.inj hsome)
      obtain ⟨rfl, rfl⟩ := Prod.mk.inj hrest
      have hdone : Engine.construct host (engineOf n w₂).1 f found
          (engineOf n w₂).2 = (.ok r, w') := hc
      dsimp only
      rw [Engine.bind_apply, Engine.bind_apply, hdone]
      rfl

lemma newInstanceWithConstructor_of_ofClass
    (ha : constructs.ofClass n c args w = (some (e, f, values), w₁))
    (hc : Engine.construct host e f values w₁ = (.ok r, w')) :
    (Environment.newInstanceWithConstructor host n c args w).2 = w' := by
  have hget : (MonadState.get : Act σ (World σ)) w = (w, w) := rfl
  simp only [constructs.ofClass, Environment.newInstanceWithConstructor, Engine.bind_apply, hget] at ha ⊢
  cases hclass : w.class? c with
  | none =>
    rw [hclass] at ha
    exact absurd (Prod.mk.inj ha).1 (by simp)
  | some compiled =>
    rw [hclass] at ha
    dsimp only at ha ⊢
    rw [Engine.bind_apply] at ha ⊢
    cases hfound : (onHeap n (·.templateFunction compiled.template) :
        Act σ (Option ObjectRef)) w with
    | mk found w₂ =>
      rw [hfound] at ha
      cases found with
      | none => exact absurd (Prod.mk.inj ha).1 (by simp)
      | some found => exact congrArg Prod.snd (constructWith_of_constructing ha hc)

lemma callAsConstructor_of_ofHandle {function : Handle}
    (ha : constructs.ofHandle n function args w = (some (e, f, values), w₁))
    (hc : Engine.construct host e f values w₁ = (.ok r, w')) :
    (Environment.callAsConstructor host n function args w).2 = w' := by
  simp only [constructs.ofHandle, Environment.callAsConstructor, Engine.bind_apply] at ha ⊢
  cases hfound : resolve n function w with
  | mk found w₂ =>
    rw [hfound] at ha
    cases found with
    | none => exact absurd (Prod.mk.inj ha).1 (by simp)
    | some found => exact congrArg Prod.snd (constructWith_of_constructing ha hc)

lemma perform_of_constructs (ha : action.constructs w = (some (e, f, values), w₁))
    (hc : Engine.construct host e f values w₁ = (.ok r, w')) : (action.perform host w).2 = w' := by
  have hnone : ∀ {P : Prop}, (pure none : Act σ (Option (EngineId × ObjectRef × List Value))) w =
      (some (e, f, values), w₁) → P := fun h => absurd (Prod.mk.inj h).1 (by simp)
  cases action with
  | operate m op =>
    cases op with
    | newInstanceWithConstructor c args => exact newInstanceWithConstructor_of_ofClass ha hc
    | construct args function => exact callAsConstructor_of_ofHandle ha hc
    | _ => exact hnone ha
  | request d request =>
    cases request with
    | construct g args =>
      obtain ⟨hsome, rfl⟩ := Prod.mk.inj ha
      obtain ⟨rfl, hrest⟩ := Prod.mk.inj (Option.some.inj hsome)
      obtain ⟨rfl, rfl⟩ := Prod.mk.inj hrest
      change (Engine.serve host d (.construct g args) w).2 = w'
      simp only [Engine.serve, Engine.bind_apply, hc]
      rfl
    | _ => exact hnone ha
  | foreign env call =>
    cases call with
    | newInstanceWithConstructor c args =>
      cases c with
      | none => exact hnone ha
      | some c =>
        cases hn : Foreign.fullEnvironment env with
        | none => exact hnone (by simpa only [constructs, hn] using ha)
        | some m =>
          cases hargs : Foreign.readValues args with
          | none => exact hnone (by simpa only [constructs, hn, hargs] using ha)
          | some args =>
            simp only [constructs, hn, hargs] at ha
            simp only [perform, Foreign.perform, Foreign.withFull, hn, hargs]
            exact newInstanceWithConstructor_of_ofClass ha hc
    | callAsConstructor function args =>
      cases hn : Foreign.fullEnvironment env with
      | none => exact hnone (by simpa only [constructs, hn] using ha)
      | some m =>
        cases hhandle : Handle.ofRaw? function with
        | none => exact hnone (by simpa only [constructs, hn, hhandle] using ha)
        | some handle =>
          cases hargs : Foreign.readValues args with
          | none => exact hnone (by simpa only [constructs, hn, hhandle, hargs] using ha)
          | some args =>
            simp only [constructs, hn, hhandle, hargs] at ha
            simp only [perform, Foreign.perform, Foreign.withObject, Foreign.withFull, hn,
              hhandle, hargs]
            exact callAsConstructor_of_ofHandle ha hc
    | _ => exact hnone ha
  | _ => exact hnone ha

lemma constructs_goes {R : World σ → World σ → Prop} {V : Host.Visit → World σ → World σ → Prop}
    (hR : World.Order R V) (hh : host.Keeps R V) (hw : w.Staffed) (action : Action) :
    w.Goes R (action.constructs w).2 := by
  have hconstructing : ∀ n f args, Act.Keeps R [] (constructing n f args : Act σ _) := fun n f args => by
    have hclosed := closed_keeps hR hh [] n
    refine hclosed.bind (hclosed.toValues args) fun found => ?_
    cases found with
    | none => exact hclosed.pure none
    | some values => exact hclosed.onEngine fun e => hclosed.pure _
  have hclass : ∀ n c args, Act.Keeps R [] (constructs.ofClass n c args : Act σ _) := fun n c args => by
    have hclosed := closed_keeps hR hh [] n
    refine hclosed.bind hclosed.get fun w => ?_
    split
    · refine hclosed.bind (hclosed.onHeap fun h => h.moves_templateFunction _) fun found => ?_
      cases found with
      | none => exact hclosed.pure none
      | some f => exact hconstructing n f args
    · exact hclosed.pure none
  have hhandle : ∀ n function args, Act.Keeps R [] (constructs.ofHandle n function args : Act σ _) :=
    fun n function args =>
      have hclosed := closed_keeps hR hh [] n
      hclosed.resolving function (hclosed.pure none) fun f => hconstructing n f args
  have hpure : ∀ x, Act.Keeps R [] (pure x : Act σ (Option (EngineId × ObjectRef × List Value))) :=
    fun _ w _ _ => .refl hR w
  suffices hkeeps : Act.Keeps R [] (action.constructs : Act σ _) from hkeeps w hw (by simp)
  unfold constructs
  split
  · exact hclass _ _ _
  · exact hhandle _ _ _
  · exact hpure _
  · split
    · exact hclass _ _ _
    · exact hpure _
  · split
    · exact hhandle _ _ _
    · exact hpure _
  · exact hpure _

end Constructs

-- The action makes an instance whose class has a finalizer, whichever way, and does not throw.
inductive Bears (host : Host σ) (action : Action) (w : World σ) :
    EngineId → ObjectRef → ReclaimHook → Prop where
  | plain (n : EnvironmentId) (c : ClassId) (compiled : CompiledClass) (f : ReclaimHook) (r : ObjectRef)
      (haction : action.instance? = some (n, c)) (hclass : w.class? c = some compiled)
      (hf : compiled.finalizer = some f)
      (hmade : (Environment.newInstance n c w).1 = some (.transient r)) :
      Bears host action w (w.environment n).engine r f
  | construct (e : EngineId) (function : ObjectRef) (values : List Value) (f : ReclaimHook)
      (r : ObjectRef) (w₁ w' : World σ)
      (haction : action.constructs w = (some (e, function, values), w₁))
      (hf : w₁.finalizer? e function = some f)
      (hmade : Engine.construct host e function values w₁ = (.ok r, w')) :
      Bears host action w e r f

lemma Bears.tells {f : ReclaimHook} (hb : action.Bears host w e r f)
    (hh : host.Keeps (World.Told ledger) (World.Noted ledger)) (hw : w.Staffed)
    (halive : ((action.perform host w).2.engine e).heap.isAlive r = true) :
    ∃ fresh slot, .ward ⟨e, r, f, slot⟩ ∈ fresh ∧ World.Tells ledger fresh w (action.perform host w).2 := by
  cases hb with
  | plain n c compiled f r haction hclass hf hmade =>
    rw [perform_of_instance? haction] at halive ⊢
    exact Environment.newInstance_tells hclass hf hmade halive
  | construct e function values f r w₁ w' haction hf hmade =>
    have hgoes := constructs_goes (World.order_told ledger) hh hw action
    rw [haction] at hgoes
    rw [perform_of_constructs haction hmade] at halive ⊢
    obtain ⟨before, hbefore⟩ := hgoes.kept
    obtain ⟨fresh, slot, hmem, htells⟩ :=
      Engine.construct_tells hh (hgoes.staffed hw) hf hmade halive
    exact ⟨_, slot, List.mem_append_left _ hmem, hbefore.trans htells⟩

def lends : Action → Option (EnvironmentId × HostMemory × ReleaseHook)
  | .operate n (.newExternalArrayBuffer (some bytes) (some hook) address) =>
    some (n, ⟨address, bytes⟩, hook)
  | .foreign env (.newExternalArrayBuffer (some bytes) (some hook) address) =>
    (Foreign.fullEnvironment env).map (·, ⟨address, bytes⟩, hook)
  | _ => none

lemma perform_of_lends {hook : ReleaseHook} (ha : action.lends = some (n, memory, hook)) :
    (action.perform host w).2 = w.modifyEngine (w.environment n).engine ({ · with
      heap := ((w.engine (w.environment n).engine).heap.newExternalBuffer memory (some hook)).2 }) := by
  have hdone : ∀ bytes address, (newExternalArrayBuffer n (some bytes) (some hook) address w).2 =
      w.setHeap (w.environment n).engine ((w.engine (w.environment n).engine).heap.newExternalBuffer ⟨address, bytes⟩ (some hook)).2 :=
    fun _ _ => rfl
  unfold lends at ha
  split at ha
  · obtain ⟨rfl, hrest⟩ := Prod.mk.inj (Option.some.inj ha)
    obtain ⟨rfl, rfl⟩ := Prod.mk.inj hrest
    exact hdone _ _
  · obtain ⟨m, hm, hpair⟩ := Option.map_eq_some_iff.mp ha
    obtain ⟨rfl, hrest⟩ := Prod.mk.inj hpair
    obtain ⟨rfl, rfl⟩ := Prod.mk.inj hrest
    simp only [perform, Foreign.perform, Foreign.withFull, hm]
    exact hdone _ _
  · cases ha

end Action

def Host.Visit.entries : Host.Visit → List Entry
  | .reclaim hook fields => [.ran (.reclaim hook fields)]
  | .release hook memory => [.ran (.release hook memory)]
  | _ => []

-- All that native code may do which keeps a ledger. It lets go of slots only that are its own.
inductive Bookkept (ledger : σ → List Entry) (host : Host σ) (w : World σ) : World σ → Prop where
  | start : Bookkept ledger host w w
  | think (w' : World σ) (s : σ) (hs : ledger s = ledger w'.host) (hw : Bookkept ledger host w w') :
      Bookkept ledger host w { w' with host := s }
  | act (w' : World σ) (action : Action)
      (hreleases : ∀ e slot, action.releases w' = some (e, slot) → .given e slot ∈ ledger w'.host)
      (hentrusts : action.entrusts w' = none) (hw : Bookkept ledger host w w') :
      Bookkept ledger host w (action.perform host w').2
  | take (w' : World σ) (e : EngineId) (slot : PersistentRef) (entry : Persistent) (s : σ)
      (hentry : (w'.engine e).heap.persistents.get? slot = some entry) (hhook : entry.hook = none)
      (hs : ledger s = ledger w'.host ++ [.given e slot]) (hw : Bookkept ledger host w w') :
      Bookkept ledger host w { w' with host := s }
  | entrust (w' : World σ) (action : Action) (e : EngineId) (slot : PersistentRef) (s : σ)
      (hentrusts : action.entrusts w' = some (e, slot))
      (hs : ledger s = ledger w'.host ++ [.given e slot]) (hw : Bookkept ledger host w w') :
      Bookkept ledger host w { (action.perform host w').2 with host := s }
  | bear (w' : World σ) (action : Action) (e : EngineId) (r : ObjectRef) (f : ReclaimHook) (s : σ)
      (hbears : action.Bears host w' e r f)
      (halive : ((action.perform host w').2.engine e).heap.isAlive r = true)
      (hs : ledger s = ledger (action.perform host w').2.host ++ [.born e r f])
      (hw : Bookkept ledger host w w') :
      Bookkept ledger host w { (action.perform host w').2 with host := s }
  | lend (w' : World σ) (action : Action) (n : EnvironmentId) (memory : HostMemory) (hook : ReleaseHook)
      (s : σ) (hlends : action.lends = some (n, memory, hook))
      (he : w'.HasEngine (w'.environment n).engine)
      (hdropped : (w'.engine (w'.environment n).engine).dropped = false)
      (hs : ledger s = ledger w'.host ++ [.lent (w'.environment n).engine
        ((w'.engine (w'.environment n).engine).heap.newExternalBuffer memory (some hook)).1 hook memory])
      (hw : Bookkept ledger host w w') :
      Bookkept ledger host w { (action.perform host w').2 with host := s }

lemma Bookkept.after (hw : Bookkept ledger host w w') (actions : List Action)
    (hplain : ∀ action ∈ actions, ∀ w : World σ, action.releases w = none ∧ action.entrusts w = none) :
    Bookkept ledger host w (w'.after host actions) := by
  induction actions generalizing w' with
  | nil => exact hw
  | cons action rest ih =>
    obtain ⟨hreleases, hentrusts⟩ := hplain action List.mem_cons_self w'
    exact ih (.act w' action (by simp [hreleases]) hentrusts hw)
      fun later hlater => hplain later (List.mem_cons_of_mem _ hlater)

-- A host of routines that keep a ledger, down to routines that take hooks down and do nothing else.
def Host.Ledgered (ledger : σ → List Entry) (host : Host σ) : Prop :=
  host.Built (fun visit w s => ledger s = ledger w.host ++ visit.entries) fun inner visit w w' =>
    ∃ s, ledger s = ledger w.host ++ visit.entries ∧ Bookkept ledger inner { w with host := s } w'

section Conducts

variable {R : World σ → World σ → Prop} {V : Host.Visit → World σ → World σ → Prop}

lemma Action.perform_retains (hh : host.Keeps R V) (hw : w.Staffed) (action : Action) :
    w.Goes (fun _ _ => True) (action.perform host w).2 := by
  have hR : World.Order (fun _ _ : World σ => True) fun _ _ _ => True := by
    constructor <;> intros <;> trivial
  have hkeeps : host.Keeps (fun _ _ => True) fun _ _ _ => True := by
    intro visit w hvalid hw
    have hgoes := hh visit w hvalid hw
    exact ⟨hgoes.staffed, hgoes.retains, by cases visit <;> trivial⟩
  exact action.perform_goes hR hkeeps hw ⟨Action.perform_of_stores hR hkeeps (by simp) hw, by simp,
    by simp, by simp, by simp⟩

lemma World.Goes.noting (hg : w.Goes (fun _ _ => True) w') (hk : R w { w' with host := s }) :
    w.Goes R { w' with host := s } where
  staffed hw := (hg.staffed hw).of_eq rfl rfl
  retains := hg.retains.trans (.of_eq rfl rfl)
  kept := hk

end Conducts

namespace World

variable {w w' : World σ} {fresh : List Bond}

lemma Tells.note {entry : Entry} (ht : Tells ledger fresh w w')
    (hentry : ∀ owed begun bonds, (w'.scene ledger owed begun (fresh ++ bonds)).Notes entry)
    (hs : ledger s = ledger w'.host ++ [entry]) : Tells ledger fresh w { w' with host := s } := by
  obtain ⟨xs, haccount⟩ := ht
  refine ⟨xs ++ [.note entry], fun owed begun bonds => (haccount owed begun bonds).append (.single ?_)⟩
  rw [scene, scene, hs]
  exact .note _ entry (hentry owed begun bonds)

lemma Tells.entrust {f : ReclaimHook} (he : w.HasEngine e) (hl : (w.engine e).heap.Works h)
    (hslot : (h.hold r (some f)).1 = some slot) (hr : w.Replaces e (h.hold r (some f)).2 w')
    (hs : ledger s = ledger w.host ++ [.given e slot]) :
    Tells ledger [] w { w' with host := s } := by
  have hbefore : Tells ledger [] w (w.setHeap e h) :=
    .modest w e h hl.plainly.modestly
  have hheap := heap_modifyEngine he h
  have hagain := (Replaces.modifyEngine w e h).again (h.hold r (some f)).2
  refine hbefore.trans (.single (i := .entrust e r f slot) fun owed begun bonds => ?_)
  have hstep := Scene.Step.entrust ((w.setHeap e h).scene ledger owed begun
    bonds) e r f slot (by rwa [heap_scene, hheap])
  rw [scene_enact, hheap] at hstep
  have hestates : w'.estates = _ := hr.estates.trans hagain.estates.symm
  have hafter : ({ w' with host := s } : World σ).scene ledger owed begun bonds =
      ⟨w'.estates, owed, begun, bonds, ledger w.host ++ [.given e slot]⟩ := by
    rw [scene, hs]
    rfl
  rw [hafter, hestates]
  exact hstep

lemma Tells.lend {hook : ReleaseHook} (he : w.HasEngine e)
    (hdropped : (w.engine e).dropped = false)
    (hs : ledger s = ledger w.host ++
      [.lent e ((w.engine e).heap.newExternalBuffer memory (some hook)).1 hook memory]) :
    Tells ledger [.loan ⟨e, ((w.engine e).heap.newExternalBuffer memory (some hook)).1, hook, memory⟩] w
      { w.modifyEngine e ({ · with
        heap := ((w.engine e).heap.newExternalBuffer memory (some hook)).2 }) with host := s } := by
  have hloans : (w.scene ledger [] [] []).loans e memory (some hook) =
      [.loan ⟨e, ((w.engine e).heap.newExternalBuffer memory (some hook)).1, hook, memory⟩] := by
    rw [Scene.loans, estate_scene, heap_scene, hdropped]
    rfl
  have hlent : Tells ledger _ w _ := .wrap w he memory (some hook)
  rw [hloans] at hlent
  exact hlent.note (fun _ _ _ => .lent ⟨_, _, _, _⟩ List.mem_cons_self) hs

lemma Tells.letGo {op : Heap.Operation} (hop : op = .dispose slot ∨ ∃ hook, op = .weaken slot hook)
    (hgiven : .given e slot ∈ ledger w.host) :
    Tells ledger [] w (w.setHeap e ((w.engine e).heap.apply op).2) := by
  refine .single (i := .letGo e slot op) fun owed begun bonds => ?_
  have hstep := Scene.Step.letGo (w.scene ledger owed begun bonds) e slot op hop hgiven
  rwa [scene_enact] at hstep

end World

lemma Bookkept.goes (hc : Bookkept ledger host w w') (hw : w.Staffed)
    (hh : host.Keeps (World.Told ledger) (World.Noted ledger)) : w.Goes (World.Told ledger) w' := by
  have hR := World.order_told ledger
  induction hc with
  | start => exact .refl hR w
  | think w' s hs _ ih => exact ih.trans hR (.think w' s ⟨[], .of_eq rfl hs⟩)
  | act w' action hreleases hentrusts _ ih =>
    have hstaffed := ih.staffed hw
    refine ih.trans hR (action.perform_goes hR hh hstaffed
      ⟨Action.perform_of_stores hR hh ?_ hstaffed, ?_, ?_, ?_, ?_⟩)
    · exact fun w d h hs => ⟨[], .modest w d h hs.discreetly.plainly.modestly⟩
    · exact fun d _ => ⟨[], .deed w' d (.op .pushScope) trivial⟩
    · exact fun d _ => ⟨[], .deed w' d (.op .popScope) trivial⟩
    · exact fun d slot hslot op hop => ⟨[], .letGo hop (hreleases d slot hslot)⟩
    · intro d slot hslot
      exact absurd (hentrusts.symm.trans hslot) (by simp)
  | take w' e slot entry s hentry hhook hs _ ih =>
    refine ih.trans hR (.think w' s ⟨[], .note (.of_eq rfl rfl) (fun owed begun bonds => ?_) hs⟩)
    exact .given e slot entry (by rwa [World.heap_scene]) hhook
  | entrust w' action e slot s hentrusts hs _ ih =>
    obtain ⟨he, h, r, f, hl, hmade, hreplaces⟩ := Action.perform_of_entrusts hentrusts
    exact ih.trans hR ((action.perform_retains hh (ih.staffed hw)).noting
      ⟨[], .entrust he hl hmade hreplaces hs⟩)
  | bear w' action e r f s hbears halive hs _ ih =>
    obtain ⟨fresh, slot, hmem, htells⟩ := hbears.tells hh (ih.staffed hw) halive
    refine ih.trans hR ((action.perform_retains hh (ih.staffed hw)).noting
      ⟨fresh, htells.note (fun owed begun bonds => ?_) hs⟩)
    exact .born ⟨e, r, f, slot⟩ (List.mem_append_left _ hmem) (by rwa [World.heap_scene])
  | lend w' action n memory hook s hlends he hdropped hs _ ih =>
    refine ih.trans hR ((action.perform_retains hh (ih.staffed hw)).noting ?_)
    rw [Action.perform_of_lends hlends]
    exact ⟨_, .lend he hdropped hs⟩

lemma Host.Ledgered.keeps (hh : host.Ledgered ledger) :
    host.Keeps (World.Told ledger) (World.Noted ledger) := by
  -- A hook is taken down before anything else is done, and in between nothing is told.
  have hnoted : ∀ (visit : Visit) (w w' : World σ) (s : σ),
      ledger s = ledger w.host ++ visit.entries → World.Told ledger { w with host := s } w' →
        visit.relation (World.Told ledger) (World.Noted ledger) w w' := by
    intro visit w w' s hs htold
    cases visit with
    | reclaim | release => exact ⟨s, hs, htold⟩
    | _ =>
      have hthink : World.Told ledger w { w with host := s } :=
        ⟨[], .of_eq rfl (hs.trans (List.append_nil _))⟩
      exact hthink.trans htold
  refine Host.Built.keeps (fun visit w s hs => ?_) (fun host hk visit w w' hw hc => ?_) hh
  · exact hnoted visit w _ s hs ⟨[], .of_eq rfl rfl⟩
  · obtain ⟨s, hs, hbooks⟩ := hc
    have hgoes := hbooks.goes (hw.of_eq rfl rfl) hk
    have hthink : w.Retains { w with host := s } := .of_eq rfl rfl
    exact ⟨fun hw => hgoes.staffed (hw.of_eq rfl rfl), hthink.trans hgoes.retains,
      hnoted visit w w' s hs hgoes.kept⟩

def World.Roomy (w : World σ) : Prop :=
  ∀ e, (w.engine e).heap.objects.slots.size < 2 ^ 32 ∧
    (w.engine e).heap.persistents.slots.size < 2 ^ 32

lemma World.roomy_of_all (hw : (w.engines.all fun engine =>
    engine.heap.objects.slots.size < 2 ^ 32 && engine.heap.persistents.slots.size < 2 ^ 32) = true) :
    w.Roomy := by
  intro e
  by_cases he : w.HasEngine e
  · have hfound : w.engines[e.index]? = some w.engines[e.index] := Array.getElem?_eq_getElem he
    rw [engine_of_getElem? e _ hfound]
    simpa using Array.all_eq_true.mp hw e.index he
  · rw [engine_of_missing he]
    exact ⟨Nat.two_pow_pos 32, Nat.two_pow_pos 32⟩

lemma World.Roomy.scene (hw : w.Roomy) (ledger : σ → List Entry) (owed : List Debt)
    (begun : List (EngineId × ObjectRef)) (bonds : List Bond) :
    (w.scene ledger owed begun bonds).Roomy := by
  intro e
  rw [heap_scene]
  exact hw e

-- Of a whole run there is an account, at the end of which nothing is owed or left to be done.
lemma Bookkept.account (hh : host.Ledgered ledger) (hs : ledger s = [])
    (hw : Bookkept ledger host { host := s } w) :
    ∃ incidents bonds, Account {} incidents (w.scene ledger [] [] bonds) := by
  obtain ⟨fresh, incidents, haccount⟩ :=
    (hw.goes (fun e n hd => (World.sound_empty s).dispatcher e n hd) hh.keeps).kept
  refine ⟨incidents, fresh ++ [], ?_⟩
  have hempty : ({ host := s } : World σ).scene ledger [] [] [] = {} := by
    simp [World.scene, World.estates, hs]
  rw [← hempty]
  exact haccount [] [] []

def scribe : Host (List Entry) :=
  { Host.inert with
    reclaim := fun hook fields => modify fun w => { w with host := w.host ++ [.ran (.reclaim hook fields)] }
    release := fun hook memory => modify fun w => { w with host := w.host ++ [.ran (.release hook memory)] } }

def restless : Host (List Entry) :=
  { scribe with
    reclaim := fun hook fields => do
      scribe.reclaim hook fields
      Engine.collectGarbage scribe ⟨0⟩ }

lemma scribe_ledgered : scribe.Ledgered id := by
  refine .idle _ fun visit w => ?_
  cases visit with
  | reclaim | release => exact ⟨_, rfl, rfl⟩
  | _ => exact ⟨w.host, (List.append_nil _).symm, rfl⟩

lemma restless_ledgered : restless.Ledgered id := by
  refine .nested _ (fun _ _ => scribe) (fun _ _ => scribe_ledgered) fun visit w _ _ => ?_
  cases visit with
  | reclaim hook fields =>
    exact ⟨_, rfl, .act _ (.request ⟨0⟩ .collect) (by simp [Action.releases]) rfl .start⟩
  | release => exact ⟨_, rfl, .start⟩
  | _ => exact ⟨w.host, (List.append_nil _).symm, .start⟩

def World.noting (w : World (List Entry)) (entry : Entry) : World (List Entry) :=
  { w with host := w.host ++ [entry] }

end HostBoundary
