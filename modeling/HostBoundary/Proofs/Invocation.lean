import HostBoundary.Proofs.CallSites
import HostBoundary.Proofs.Evolution

namespace HostBoundary

open Environment

variable {σ : Type}

-- The environment that native calls of an engine go to, while it is there.
def World.dispatcher? (w : World σ) (e : EngineId) : Option EnvironmentId :=
  (w.engine e).dispatcher.filter w.isLive

-- The registration that a native call runs: whose it is, and the callback.
def World.registration? (w : World σ) (e : EngineId) (data : CallbackData) :
    Option (EnvironmentId × Callback) :=
  (w.dispatcher? e).bind fun n => ((w.environment n).tables.lookup? data).map (n, ·)

def Environment.run (host : Host σ) (n : EnvironmentId) (callback : Callback) (i : Invocation) :
    Act σ Completion :=
  match callback with
  | .domain entry | .function entry =>
    Environment.invoke host n entry.function entry.flags
      (entry.owner <|> i.this.object?.map Handle.transient) i.args
  | .member member => Environment.invokeMember host n member i

def Engine.inScope (e : EngineId) (n : EnvironmentId) (act : Act σ Completion) :
    Act σ Completion := do
  Act.updateHeap e (·.pushScope)
  Act.updateEnvironment n fun env => { env with running := env.running + 1 }
  let completion ← act
  Act.updateEnvironment n fun env => { env with running := env.running - 1 }
  Act.updateHeap e fun h =>
    let h := h.popScope.2
    match completion with
    | .ok (.object r) | .error (.object r) => h.root r
    | _ => h
  return completion

-- A call that the engine refused. Whatever the host, an error object is thrown and the state
-- of the host is as it was: none of its routines has run.
def Engine.Refused (w : World σ) (call : Host σ → Completion × World σ) : Prop :=
  ∃ r w', w'.host = w.host ∧ ∀ host, call host = (.error (.object r), w')

section Dispatch

variable (host : Host σ) (w : World σ) (e : EngineId) (n : EnvironmentId) (data : CallbackData)
  (i : Invocation)

def World.entered : World σ :=
  (w.modifyEngine e ({ · with heap := (w.engine e).heap.pushScope })).modifyEnvironment n
    fun env => { env with running := env.running + 1 }

def Engine.left (done : Completion × World σ) : Completion × World σ :=
  (do
    Act.updateEnvironment n fun env => { env with running := env.running - 1 }
    Act.updateHeap e fun h =>
      let h := h.popScope.2
      match done.1 with
      | .ok (.object r) | .error (.object r) => h.root r
      | _ => h
    return done.1 : Act σ Completion) done.2

lemma Engine.inScope_apply (act : Act σ Completion) :
    Engine.inScope e n act w = Engine.left e n (act (w.entered e n)) := rfl

lemma World.tables_entered : ((w.entered e n).environment n).tables = (w.environment n).tables := by
  simp only [entered, environment, modifyEnvironment, modifyEngine, Array.getD_eq_getD_getElem?,
    Array.getElem?_modify, if_pos]
  cases w.environments[n.index]? <;> rfl

-- Leaving the scope changes neither what came of the call nor the state of the host.
lemma Engine.refused_inScope (act : Host σ → Act σ Completion)
    (h : Engine.Refused w fun host => act host (w.entered e n)) :
    Engine.Refused w fun host => Engine.inScope e n (act host) w := by
  obtain ⟨r, w', hhost, hact⟩ := h
  refine ⟨r, (Engine.left e n (.error (.object r), w')).2, hhost, fun host => ?_⟩
  exact congrArg (Engine.left e n) (hact host)

lemma Environment.dispatch_of_lookup (callback : Callback)
    (h : (w.environment n).tables.lookup? data = some callback) :
    dispatch host n data i w = run host n callback i w := by
  simp only [dispatch, Act.environment, bind, StateT.bind, h]
  cases callback <;> rfl

lemma Environment.refused_of_lookup (h : (w.environment n).tables.lookup? data = none) :
    Engine.Refused w fun host => dispatch host n data i w := by
  simp only [Engine.Refused, dispatch, Act.environment, bind, StateT.bind, h]
  refine ⟨_, _, ?_, fun _ => rfl⟩
  rfl

lemma Engine.dispatch_of_some (hd : w.dispatcher? e = some n) :
    Engine.dispatch host e data i w =
      Engine.inScope e n (Environment.dispatch host n data i) w := by
  have hstep : (Engine.dispatcher? e : Act σ (Option EnvironmentId)) w = (some n, w) :=
    congrArg (·, w) hd
  simp only [Engine.dispatch, bind, StateT.bind, hstep]
  rfl

lemma Engine.refused_of_none (hd : w.dispatcher? e = none) :
    Engine.Refused w fun host => Engine.dispatch host e data i w := by
  have hstep : (Engine.dispatcher? e : Act σ (Option EnvironmentId)) w = (none, w) :=
    congrArg (·, w) hd
  simp only [Engine.Refused, Engine.dispatch, bind, StateT.bind, hstep]
  refine ⟨_, _, ?_, fun _ => rfl⟩
  rfl

-- A native call runs the registration that is found for it and nothing else.
lemma Engine.dispatch_of_registration (callback : Callback)
    (h : w.registration? e data = some (n, callback)) :
    Engine.dispatch host e data i w = Engine.inScope e n (run host n callback i) w := by
  obtain ⟨m, hd, hm⟩ := Option.bind_eq_some_iff.mp h
  obtain ⟨found, hfound, hpair⟩ := Option.map_eq_some_iff.mp hm
  obtain ⟨rfl, rfl⟩ := Prod.mk.inj hpair
  have hentered : ((w.entered e m).environment m).tables.lookup? data = some found :=
    (w.tables_entered e m).symm ▸ hfound
  rw [Engine.dispatch_of_some host w e m data i hd, Engine.inScope_apply, Engine.inScope_apply,
    dispatch_of_lookup host _ m data i found hentered]

lemma Engine.refused_of_unregistered (h : w.registration? e data = none) :
    Engine.Refused w fun host => Engine.dispatch host e data i w := by
  cases hd : w.dispatcher? e with
  | none => exact Engine.refused_of_none w e data i hd
  | some m =>
    have hlookup : (w.environment m).tables.lookup? data = none := by
      simpa [World.registration?, hd] using h
    have hentered : ((w.entered e m).environment m).tables.lookup? data = none :=
      (w.tables_entered e m).symm ▸ hlookup
    simp only [Engine.dispatch_of_some _ w e m data i hd]
    exact Engine.refused_inScope w e m _ (refused_of_lookup _ m data i hentered)

end Dispatch

namespace Heap

variable (h : Heap)

lemma callback?_of_lookupFrom (key : Key) (steps : Nat) (r : Option ObjectRef) (data : CallbackData)
    (hl : h.lookupFrom key steps r = .getter data) :
    ∃ owner, h.callback? (.getter owner key) = some data := by
  induction steps generalizing r with
  | zero => simp [lookupFrom] at hl
  | succ steps ih =>
    cases r with
    | none => simp [lookupFrom] at hl
    | some r =>
      simp only [lookupFrom] at hl
      split at hl
      · simp at hl
      · rename_i object ho
        split at hl
        · rename_i found hf
          subst hl
          unfold foundIn at hf
          split at hf
          · simp at hf
          · obtain ⟨p, hp, hslot⟩ := Option.map_eq_some_iff.mp hf
            refine ⟨r, ?_⟩
            simp only [callback?, ho, Option.bind_some, hp]
            split at hslot <;> simp_all
        · exact ih _ hl

lemma callback?_of_storePlanFrom (key : Key) (steps : Nat) (r : Option ObjectRef)
    (data : CallbackData) (hs : h.storePlanFrom key steps r = .setter data) :
    ∃ owner, h.callback? (.setter owner key) = some data := by
  induction steps generalizing r with
  | zero => simp [storePlanFrom] at hs
  | succ steps ih =>
    cases r with
    | none => simp [storePlanFrom] at hs
    | some r =>
      simp only [storePlanFrom] at hs
      split at hs
      · simp at hs
      · rename_i object ho
        split at hs
        · rename_i hp
          refine ⟨r, ?_⟩
          simp only [callback?, ho, Option.bind_some, hp]
          simpa using hs
        · simp at hs
        · simp at hs
        · exact ih _ hs

end Heap

namespace Engine

inductive Use where
  | call (f : ObjectRef) (this : Value) (args : List Value)
  | construct (f : ObjectRef) (args : List Value)
  | get (r : ObjectRef) (key : Value)
  | set (r : ObjectRef) (key value : Value)

def Use.run (host : Host σ) (e : EngineId) : Use → Act σ (Except Throw Unit)
  | .call f this args => do return (← Engine.call host e f this args).map fun _ => ()
  | .construct f args => do return (← Engine.construct host e f args).map fun _ => ()
  | .get r key => do return (← Engine.getProperty host e r key).map fun _ => ()
  | .set r key value => Engine.setProperty host e r key value

-- The places that a use may go to. Accessors can be inherited, so their object is open.
def Use.Through (h : Heap) : Use → Heap.Site → Prop
  | .call f _ _, .function r => r = f
  | .construct f _, .function r => r = f
  | .get _ key, .getter _ k => k = h.keyOf key
  | .set _ key _, .setter _ k => k = h.keyOf key
  | _, _ => False

def concluded (e : EngineId) (done : Completion × World σ) : Except Throw Unit × World σ :=
  ((outcome e done.1 done.2).1.map fun _ => (), done.2)

-- A use that goes without native code: which host there is makes no difference to it.
def Use.Idle (w : World σ) (e : EngineId) (use : Use) : Prop :=
  ∀ host other : Host σ, use.run host e w = use.run other e w

-- A use that ends with an error, whatever the host, and before any of its routines.
def Use.Fails (w : World σ) (e : EngineId) (use : Use) : Prop :=
  ∃ thrown w', w'.host = w.host ∧ ∀ host, use.run host e w = (.error thrown, w')

def Use.Passes : Use → Invocation → Prop
  | .call _ this args, i => i = ⟨.call, this, args⟩
  | .construct _ args, i => ∃ target, i = ⟨.construct, .object target, args⟩
  | .get r _, i => i = ⟨.get, .object r, []⟩
  | .set r _ value, i => i = ⟨.set value, .object r, []⟩

-- The world as a native call finds it: at most an object has been made for it to fill.
def Prepared (w : World σ) (e : EngineId) (w₁ : World σ) : Prop :=
  w₁ = w ∨ ∃ h, (w.engine e).heap.Leads h ∧ w₁ = w.modifyEngine e ({ · with heap := h })

-- A use that runs a callback of an environment.
def Use.Runs (host : Host σ) (w : World σ) (e : EngineId) (use : Use) (n : EnvironmentId)
    (callback : Callback) : Prop :=
  ∃ i w₁, use.Passes i ∧ Prepared w e w₁ ∧
    use.run host e w = concluded e (inScope e n (Environment.run host n callback i) w₁)

-- A use that is a native call for what is stored at one of its places.
def Use.Dispatches (w : World σ) (e : EngineId) (use : Use) : Prop :=
  ∃ site data i w₁, use.Through (w.engine e).heap site ∧
    (w.engine e).heap.callback? site = some data ∧ use.Passes i ∧ Prepared w e w₁ ∧
    ∀ host, use.run host e w = concluded e (Engine.dispatch host e data i w₁)

section Uses

variable (w : World σ) (e : EngineId)

lemma functionBody_cases (f : ObjectRef) :
    (∃ body, (w.engine e).heap.body? f = some (.function body) ∧
      (functionBody e f : Act σ (Except Throw FunctionBody)) w = (.ok body, w)) ∨
    ∃ thrown w₁, (functionBody e f : Act σ (Except Throw FunctionBody)) w = (.error thrown, w₁) := by
  simp only [functionBody, Act.heap, bind, StateT.bind]
  cases (w.engine e).heap.body? f with
  | none => exact .inr ⟨_, _, rfl⟩
  | some body =>
    cases body with
    | function body => exact .inl ⟨body, rfl, rfl⟩
    | _ => exact .inr ⟨_, _, rfl⟩

lemma callback?_of_native (f : ObjectRef) (data : CallbackData)
    (hb : (w.engine e).heap.body? f = some (.function (.native data))) :
    (w.engine e).heap.callback? (.function f) = some data := by
  obtain ⟨o, ho, hbody⟩ := Option.map_eq_some_iff.mp hb
  simp [Heap.callback?, ho, HeapObject.function?, hbody]

lemma callback?_of_template (f : ObjectRef) (t : TemplateRef) (data : CallbackData)
    (hb : (w.engine e).heap.body? f = some (.function (.template t)))
    (ht : (w.engine e).heap.constructor? t = some data) :
    (w.engine e).heap.callback? (.function f) = some data := by
  obtain ⟨o, ho, hbody⟩ := Option.map_eq_some_iff.mp hb
  simp [Heap.callback?, ho, HeapObject.function?, hbody, ht]

-- Only a heap was changed, so native calls still go where they went.
lemma Prepared.registration? {w w₁ : World σ} {e : EngineId} (hp : Prepared w e w₁)
    (data : CallbackData) : w₁.registration? e data = w.registration? e data := by
  rcases hp with rfl | ⟨h, -, rfl⟩
  · rfl
  have hengine : ∀ e', ((w.setHeap e h).engine e').dispatcher =
        (w.engine e').dispatcher ∧
      ((w.setHeap e h).engine e').attached = (w.engine e').attached := by
    intro e'
    simp only [World.engine, World.modifyEngine, Array.getD_eq_getD_getElem?, Array.getElem?_modify]
    split
    · cases w.engines[e'.index]? <;> exact ⟨rfl, rfl⟩
    · exact ⟨rfl, rfl⟩
  have henv : (w.setHeap e h).environments = w.environments := rfl
  have hlive : (w.setHeap e h).isLive = w.isLive := by
    funext n
    exact congrArg (fun attached : Option EnvironmentId =>
      0 < (w.environment n).owners || 0 < (w.environment n).running || attached = some n)
      (hengine (w.environment n).engine).2
  simp only [World.registration?, World.dispatcher?, (hengine e).1, hlive, World.environment, henv]

lemma Prepared.host {w w₁ : World σ} {e : EngineId} (hp : Prepared w e w₁) : w₁.host = w.host := by
  rcases hp with rfl | ⟨h, -, rfl⟩ <;> rfl

lemma bind_apply {α β : Type} (act : Act σ α) (next : α → Act σ β) :
    (act >>= next) w = next (act w).1 (act w).2 := rfl

lemma heap_bind_apply {β : Type} (next : Heap → Act σ β) :
    ((Act.heap e : Act σ Heap) >>= next) w = next (w.engine e).heap w := rfl

lemma concluded_eq (done : Completion × World σ) :
    ((outcome e done.1 done.2).1.map fun _ => (), (outcome e done.1 done.2).2) =
      concluded e done := by
  obtain ⟨completion, w⟩ := done
  cases completion <;> rfl

lemma concluded_map {β : Type} (done : Completion × World σ) (f : Value → β) :
    (((outcome e done.1 done.2).1.map f).map fun _ => (), (outcome e done.1 done.2).2) =
      concluded e done := by
  rw [← concluded_eq e done]
  cases (outcome e done.1 done.2).1 <;> rfl

lemma call_cases (f : ObjectRef) (this : Value) (args : List Value) :
    Use.Idle w e (.call f this args) ∨ Use.Dispatches w e (.call f this args) := by
  rcases functionBody_cases w e f with ⟨body, hb, hstep⟩ | ⟨thrown, w₁, hstep⟩
  · cases body with
    | native data =>
      refine .inr ⟨.function f, data, ⟨.call, this, args⟩, w, rfl,
        callback?_of_native w e f data hb, rfl, .inl rfl, fun host => ?_⟩
      simp only [Use.run, call, bind_apply, hstep, Act.heap]
      exact concluded_eq e _
    | template t =>
      cases ht : (w.engine e).heap.constructor? t with
      | none =>
        left
        intro host other
        simp only [Use.run, call, bind_apply, hstep, Act.heap, ht]
      | some data =>
        refine .inr ⟨.function f, data, ⟨.call, this, args⟩, w, rfl,
          callback?_of_template w e f t data hb ht, rfl, .inl rfl, fun host => ?_⟩
        simp only [Use.run, call, bind_apply, hstep, Act.heap, ht]
        exact concluded_eq e _
  · left
    intro host other
    simp only [Use.run, call, bind_apply, hstep]

lemma construct_cases (f : ObjectRef) (args : List Value) :
    Use.Idle w e (.construct f args) ∨ Use.Dispatches w e (.construct f args) := by
  rcases functionBody_cases w e f with ⟨body, hb, hstep⟩ | ⟨thrown, w₁, hstep⟩
  · cases body with
    | native data =>
      let made := (Act.onHeap e (·.newObject) : Act σ ObjectRef) w
      refine .inr ⟨.function f, data, ⟨.construct, .object made.1, args⟩, made.2, rfl,
        callback?_of_native w e f data hb, ⟨_, rfl⟩, .inr ⟨_, Heap.leads_allocate _ _, rfl⟩,
        fun host => ?_⟩
      simp only [Use.run, construct, constructTarget, bind_apply, hstep]
      exact concluded_map e _ _
    | template t =>
      cases ht : (w.engine e).heap.constructor? t with
      | none =>
        left
        intro host other
        simp only [Use.run, construct, constructTarget, bind_apply, hstep, Act.heap, ht]
        rfl
      | some data =>
        have hsite := callback?_of_template w e f t data hb ht
        cases hn : ((Act.onHeap e (·.newInstance t) : Act σ (Option ObjectRef)) w).1 with
        | none =>
          left
          intro host other
          simp only [Use.run, construct, constructTarget, bind_apply, hstep, Act.heap, ht, hn]
          rfl
        | some target =>
          refine .inr ⟨.function f, data, ⟨.construct, .object target, args⟩, _, rfl, hsite,
            ⟨_, rfl⟩, .inr ⟨_, (Heap.moves_newInstance _ t).leads, rfl⟩, fun host => ?_⟩
          simp only [Use.run, construct, constructTarget, bind_apply, hstep, Act.heap, ht, hn]
          exact concluded_map e _ _
  · left
    intro host other
    simp only [Use.run, construct, constructTarget, bind_apply, hstep]
    rfl

lemma get_cases (r : ObjectRef) (key : Value) :
    Use.Idle w e (.get r key) ∨ Use.Dispatches w e (.get r key) := by
  simp only [Use.Idle, Use.Dispatches, Use.run, bind_apply]
  simp only [getProperty, heap_bind_apply]
  by_cases ha : (!(w.engine e).heap.isAlive r) = true
  · simp only [if_pos ha]
    exact .inl fun _ _ => trivial
  · simp only [if_neg ha]
    cases hl : (w.engine e).heap.lookup r ((w.engine e).heap.keyOf key) with
    | value | missing => exact .inl fun _ _ => rfl
    | getter data =>
      obtain ⟨owner, hsite⟩ := Heap.callback?_of_lookupFrom _ _ _ _ data hl
      exact .inr ⟨.getter owner _, data, ⟨.get, .object r, []⟩, w, rfl, hsite, rfl, .inl rfl,
        fun _ => concluded_eq e _⟩

lemma set_cases (r : ObjectRef) (key value : Value) :
    Use.Idle w e (.set r key value) ∨ Use.Dispatches w e (.set r key value) := by
  simp only [Use.Idle, Use.Dispatches, Use.run, setProperty, heap_bind_apply]
  by_cases ha : (!(w.engine e).heap.isAlive r) = true
  · simp only [if_pos ha]
    exact .inl fun _ _ => trivial
  · simp only [if_neg ha]
    cases hp : (w.engine e).heap.storePlan r ((w.engine e).heap.keyOf key) with
    | readOnly | define => exact .inl fun _ _ => rfl
    | setter data =>
      obtain ⟨owner, hsite⟩ := Heap.callback?_of_storePlanFrom _ _ _ _ data hp
      exact .inr ⟨.setter owner _, data, ⟨.set value, .object r, []⟩, w, rfl, hsite, rfl, .inl rfl,
        fun _ => concluded_eq e _⟩

lemma Use.cases (use : Use) : use.Idle w e ∨ use.Dispatches w e := by
  cases use with
  | call f this args => exact call_cases w e f this args
  | construct f args => exact construct_cases w e f args
  | get r key => exact get_cases w e r key
  | set r key value => exact set_cases w e r key value

lemma Use.spec (host : Host σ) (use : Use) :
    use.Idle w e ∨ ∃ site data, use.Through (w.engine e).heap site ∧
      (w.engine e).heap.callback? site = some data ∧
      match w.registration? e data with
      | none => use.Fails w e
      | some (n, callback) => use.Runs host w e n callback := by
  rcases use.cases w e with hidle | ⟨site, data, i, w₁, hthrough, hsite, hpasses, hp, hrun⟩
  · exact .inl hidle
  · refine .inr ⟨site, data, hthrough, hsite, ?_⟩
    cases hr : w.registration? e data with
    | none =>
      obtain ⟨r, w', hquiet, hrefused⟩ :=
        Engine.refused_of_unregistered w₁ e data i ((hp.registration? data).trans hr)
      refine ⟨(w'.engine e).heap.throwing (.object r), w', hquiet.trans hp.host, fun host => ?_⟩
      rw [hrun host]
      exact congrArg (concluded e) (hrefused host)
    | some found =>
      obtain ⟨n, callback⟩ := found
      refine ⟨i, w₁, hpasses, hp, ?_⟩
      rw [hrun host, Engine.dispatch_of_registration host w₁ e n data i callback
        ((hp.registration? data).trans hr)]

end Uses

end Engine

end HostBoundary
