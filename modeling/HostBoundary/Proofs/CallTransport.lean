import HostBoundary.Proofs.CallbackBinding
import HostBoundary.Proofs.Conversions
import HostBoundary.Proofs.Steady

namespace HostBoundary

open Engine World Heap

variable {σ : Type} {host : Host σ} {n : EnvironmentId} {e : EngineId} {h : Heap}
  {exception : Exception} {result : Option Tagged} {value : Value} {r t : ObjectRef}
  {data : CallbackData} {function : Handle} {this : Option Handle} {args : List Tagged}
  {values : List Value}

namespace Heap

-- The receiver of a call. Without one it is the global object.
def receiver? (h : Heap) : Option Handle → Option ObjectRef
  | some handle => (h.resolveHandle handle).1
  | none => some (h.global.getD default)

lemma Alike.receiver? {h' : Heap} (ha : h.Alike h') (this : Option Handle) :
    h'.receiver? this = h.receiver? this := by
  cases this with
  | some handle => exact ha.resolveHandle handle
  | none => rw [Heap.receiver?, ha.global, Heap.receiver?]

-- What a call asks for, as far as it is there: the function, the receiver, and the arguments in
-- order.
def request? (h : Heap) (function : Handle) (this : Option Handle) (args : List Tagged) :
    Option (ObjectRef × ObjectRef × List Value) := do
  let f ← (h.resolveHandle function).1
  let receiver ← h.receiver? this
  let values ← args.mapM h.valueOf?
  return (f, receiver, values)

end Heap

namespace View.In

variable {w : World σ} {v : View} (hv : v.In w)

include hv

lemma modifyEngine (d : EngineId) (f : Engine → Engine) : v.In (w.modifyEngine d f) := by
  cases v with
  | engine e => exact (hasEngine_modifyEngine ..).mpr hv
  | environment n e => exact ⟨(hasEngine_modifyEngine ..).mpr hv.1, hv.2⟩

lemma modifyEnvironment (m : EnvironmentId) (f : Environment → Environment)
    (hf : ∀ env, (f env).engine = env.engine) : v.In (w.modifyEnvironment m f) := by
  cases v with
  | engine e => exact hv
  | environment n e =>
    exact ⟨hv.1, (has_modifyEnvironment ..).mpr hv.2.1,
      (environment_modifyEnvironment_congr (·.engine) (hf _) n).trans hv.2.2⟩

lemma evolves {w' : World σ} (hev : w.Evolves w') : v.In w' := by
  cases v with
  | engine d => exact hev.hasEngine hv
  | environment m d => exact ⟨hev.hasEngine hv.1, hev.has hv.2.1, (hev.engine hv.2.1).trans hv.2.2⟩

end View.In

lemma World.exception_set {w : World σ} (hn : w.Has n) (exception : Exception) :
    ((w.modifyEnvironment n ({ · with exception })).environment n).exception = exception := by
  rw [environment_modifyEnvironment, if_pos ⟨rfl, hn⟩]

-- Something has been looked up, which may have added roots.
structure World.Rerooted (e : EngineId) (w w' : World σ) : Prop where
  environments : w'.environments = w.environments
  host : w'.host = w.host
  heap : (w.engine e).heap.Alike (w'.engine e).heap
  registration : ∀ data, w'.registration? e data = w.registration? e data
  evolves : w.Evolves w'

namespace World.Rerooted

variable {w w' w'' : World σ}

lemma refl (w : World σ) : w.Rerooted e w := ⟨rfl, rfl, .refl _, fun _ => rfl, .refl w⟩

lemma trans (ha : w.Rerooted e w') (hb : w'.Rerooted e w'') : w.Rerooted e w'' :=
  ⟨hb.environments.trans ha.environments, hb.host.trans ha.host, ha.heap.trans hb.heap,
    fun data => (hb.registration data).trans (ha.registration data), ha.evolves.trans hb.evolves⟩

lemma environment (hr : w.Rerooted e w') (n : EnvironmentId) :
    w'.environment n = w.environment n := by
  rw [World.environment, hr.environments, World.environment]

lemma inView (hr : w.Rerooted e w') {v : View} (hv : v.In w) : v.In w' := hv.evolves hr.evolves

lemma onHeap (w : World σ) {α : Type} (f : Heap → α × Heap)
    (ha : (w.engine e).heap.Alike (f (w.engine e).heap).2)
    (hl : (w.engine e).heap.Leads (f (w.engine e).heap).2) : w.Rerooted e (Act.onHeap e f w).2 where
  environments := rfl
  host := rfl
  heap := by
    show (w.engine e).heap.Alike ((w.modifyEngine e _).engine e).heap
    rw [engine_modifyEngine]
    split
    · exact ha
    · exact .refl _
  registration data := Engine.Prepared.registration? (.inr ⟨_, hl, rfl⟩) data
  evolves := .modifyEngine w e _ fun engine he => engine_of_getElem? e engine he ▸ hl

end World.Rerooted

namespace Environment

section Lookup

variable (w : World σ)

lemma resolve_spec (hn : (w.environment n).engine = e) (handle : Handle) :
    (resolve n handle w).1 = ((w.engine e).heap.resolveHandle handle).1 ∧
    w.Rerooted e (resolve n handle w).2 := by
  subst hn
  exact ⟨rfl, .onHeap w (·.resolveHandle handle) (alike_resolveHandle _ handle)
    (moves_resolveHandle _ handle).leads⟩

lemma toValues_spec (hn : (w.environment n).engine = e) (args : List Tagged) :
    (toValues n args w).1 = args.mapM (w.engine e).heap.valueOf? ∧
    w.Rerooted e (toValues n args w).2 := by
  subst hn
  obtain ⟨hvalues, ha⟩ := ofTaggedAll_eq (w.engine (w.environment n).engine).heap args
  exact ⟨hvalues, .onHeap w (·.ofTaggedAll args) ha (moves_ofTaggedAll _ args).leads⟩

lemma receiver_spec (hn : (w.environment n).engine = e) (this : Option Handle) :
    (receiver n this w).1 = (w.engine e).heap.receiver? this ∧
    w.Rerooted e (receiver n this w).2 := by
  cases this with
  | some handle => exact resolve_spec w hn handle
  | none =>
    subst hn
    exact ⟨rfl, .refl w⟩

-- Whatever has to be looked up for a call is looked up first, and a call that asks for something
-- that is not there ends with that.
lemma callFunction_eq (hn : (w.environment n).engine = e) (function : Handle) (this : Option Handle)
    (args : List Tagged) (flags : Flags) :
    ∃ w', w.Rerooted e w' ∧ ∀ host : Host σ, callFunction host n function this args flags w =
      match (w.engine e).heap.request? function this args with
      | none => (none, w')
      | some (f, receiver, values) =>
        (Engine.call host e f (.object receiver) values >>= deliver n flags) w' := by
  simp only [callFunction_receiver, bind, StateT.bind]
  obtain ⟨hf, hr₁⟩ := resolve_spec w hn function
  rcases hstep₁ : resolve n function w with ⟨f?, w₁⟩
  rw [hstep₁] at hf hr₁
  have hn₁ : (w₁.environment n).engine = e := by rw [hr₁.environment, hn]
  obtain ⟨ht, hr₂⟩ := receiver_spec w₁ hn₁ this
  rcases hstep₂ : receiver n this w₁ with ⟨t?, w₂⟩
  rw [hstep₂, hr₁.heap.receiver?] at ht
  rw [hstep₂] at hr₂
  have hr₂ := hr₁.trans hr₂
  have hn₂ : (w₂.environment n).engine = e := by rw [hr₂.environment, hn]
  obtain ⟨hvalues, hr₃⟩ := toValues_spec w₂ hn₂ args
  rcases hstep₃ : toValues n args w₂ with ⟨values?, w₃⟩
  rw [hstep₃, funext hr₂.heap.valueOf?] at hvalues
  rw [hstep₃] at hr₃
  have hr₃ := hr₂.trans hr₃
  simp only [Heap.request?, ← hf, ← ht, ← hvalues]
  -- The first of the three that is missing decides where the call ends.
  cases f? with
  | none => exact ⟨w₁, hr₁, fun _ => rfl⟩
  | some f =>
    cases t? with
    | none =>
      refine ⟨w₂, hr₂, fun _ => ?_⟩
      simp only [bind, StateT.bind, hstep₂]
      rfl
    | some t =>
      refine ⟨w₃, hr₃, fun host => ?_⟩
      simp only [bind, StateT.bind, hstep₂, hstep₃]
      cases values? with
      | none => rfl
      | some values =>
        have he : (engineOf n : Act σ EngineId) w₃ = (e, w₃) :=
          congrArg (·, w₃) ((congrArg Environment.engine (hr₃.environment n)).trans hn)
        simp only [bind, StateT.bind, he]
        rfl

end Lookup

-- What is left to do when the routine of a call is done, with what it returned. No host takes
-- part in it.
def conclude (e : EngineId) (n : EnvironmentId) (flags : Flags)
    (done : Option Tagged × World σ) : Option Tagged × World σ :=
  let completed := Engine.left e n (complete n done.1 done.2)
  (Engine.outcome e completed.1 >>= deliver n flags) completed.2

lemma engine_entered (w : World σ) :
    ((w.entered e n).environment n).engine = (w.environment n).engine :=
  environment_modifyEnvironment_congr (·.engine) rfl n

lemma alike_entered (w : World σ) : (w.engine e).heap.Alike ((w.entered e n).engine e).heap := by
  rw [entered, engine_modifyEnvironment, World.engine_modifyEngine]
  split
  · exact .pushScope _
  · exact .refl _

lemma invoke_of_converted (host : Host σ) (w : World σ) (hn : (w.environment n).engine = e)
    (f : NativeFunction) (flags : Flags) (this : Option Handle) (values : List Value)
    (args : List Tagged) (hargs : (w.engine e).heap.toTaggedAll flags values = .ok args) :
    invoke host n f flags this values w =
      complete n (f.call host n this args w).1 (f.call host n this args w).2 := by
  subst hn
  simp only [invoke, Act.environment, Act.heap, bind, StateT.bind, hargs]
  rfl

lemma call_of_registration (host : Host σ) (w : World σ) (hn : (w.environment n).engine = e)
    (r : ObjectRef) (data : CallbackData)
    (hbody : (w.engine e).heap.body? r = some (.function (.native data))) (f : NativeFunction)
    (flags : Flags) (hreg : w.registration? e data = some (n, .function ⟨f, flags, none⟩))
    (t : ObjectRef) (values : List Value) (args : List Tagged)
    (hargs : (w.engine e).heap.toTaggedAll flags values = .ok args) (answer : Flags) :
    (Engine.call host e r (.object t) values >>= deliver n answer) w =
      conclude e n answer (f.call host n (some (.transient t)) args (w.entered e n)) := by
  have hcall : Engine.call host e r (.object t) values w =
      (Engine.dispatch host e data ⟨.call, .object t, values⟩ >>= outcome e) w := by
    simp only [Engine.call, functionBody, Act.heap, bind, StateT.bind, hbody]
    rfl
  have hargs' : ((w.entered e n).engine e).heap.toTaggedAll flags values = .ok args :=
    ((alike_entered w).toTaggedAll flags values).trans hargs
  have hinvoke := invoke_of_converted host (w.entered e n) ((engine_entered w).trans hn) f flags
    (some (.transient t)) values args hargs'
  rw [bind_apply, hcall, bind_apply,
    dispatch_of_registration host w e n data _ _ hreg, inScope_apply]
  have hrun : run host n (.function ⟨f, flags, none⟩) ⟨.call, .object t, values⟩ =
      invoke host n f flags (some (.transient t)) values := rfl
  rw [hrun, hinvoke]
  rfl

end Environment

def Heap.resultOf (h : Heap) : Option Tagged → Except ConversionError Value
  | none => .ok .undefined
  | some value => (h.ofTagged value).1

namespace Environment

-- What should come of a call by what the routine left in the exception slot and what it
-- returned: a value, or the text of an error.
def verdict (h : Heap) (exception : Exception) (result : Option Tagged) : Except String Value :=
  if exception.isSet then
    .error (if exception.message.isEmpty then "native callback failed" else exception.message)
  else
    match h.resultOf result with
    | .ok value => .ok value
    | .error e => .error s!"result conversion failed: {e.message}"

-- A call is answered with what its routine returned, and then the slot is empty, or not at all,
-- and then the slot says why.
def Answered (e : EngineId) (n : EnvironmentId) (flags : Flags)
    (done called : Option Tagged × World σ) : Prop :=
  match verdict (done.2.engine e).heap (done.2.environment n).exception done.1 with
  | .ok value =>
    ∃ answer, (done.2.engine e).heap.toTagged flags value = .ok answer ∧
      called.1 = some answer ∧ (called.2.environment n).exception.isSet = false
  | .error text =>
    called.1 = none ∧ (called.2.environment n).exception = .engine ("Error: " ++ text)

lemma verdict_eq_ok (hverdict : verdict h exception result = .ok value) :
    exception.isSet = false ∧ h.resultOf result = .ok value := by
  unfold verdict at hverdict
  split at hverdict
  · cases hverdict
  · rename_i hset
    cases hresult : h.resultOf result with
    | ok v =>
      rw [hresult] at hverdict
      exact ⟨Bool.eq_false_iff.mpr hset, congrArg Except.ok (Except.ok.inj hverdict)⟩
    | error refused =>
      rw [hresult] at hverdict
      cases hverdict

lemma exists_answer (hverdict : verdict h exception result = .ok value) (flags : Flags) :
    ∃ answer, h.toTagged flags value = .ok answer := by
  have hvalue := (verdict_eq_ok hverdict).2
  cases result with
  | none =>
    obtain rfl : Value.undefined = value := Except.ok.inj hvalue
    exact ⟨.null, rfl⟩
  | some tagged => exact exists_toTagged _ flags (congrArg Except.toOption hvalue)

lemma alike_leave (h : Heap) (c : Completion) : h.Alike (h.leave c) := by
  unfold leave
  split
  · exact (Heap.Alike.popScope h).trans (.root _ _)
  · exact .popScope h

-- The same for an environment that reads a property or calls a function, if it is another one that
-- runs the routine.
def Replied (e : EngineId) (m n : EnvironmentId) (flags : Flags)
    (done replied : Option Tagged × World σ) : Prop :=
  match verdict (done.2.engine e).heap (done.2.environment m).exception done.1 with
  | .ok value =>
    ∃ answer, (done.2.engine e).heap.toTagged flags value = .ok answer ∧ replied.1 = some answer ∧
      ∀ k, (replied.2.environment k).exception = (done.2.environment k).exception
  | .error text =>
    replied.1 = none ∧ (replied.2.environment n).exception = .engine ("Error: " ++ text)

-- What is left to do when a routine is done, until its caller has what came of it.
def settle (e : EngineId) (n : EnvironmentId) (done : Option Tagged × World σ) :
    Except Throw Value × World σ :=
  let completed := Engine.left e n (complete n done.1 done.2)
  Engine.outcome e completed.1 completed.2

def Settled (e : EngineId) (w : World σ) (settled : Except Throw Value × World σ) :
    Except String Value → Prop
  | .ok value =>
    settled.1 = .ok value ∧ (w.engine e).heap.Alike (settled.2.engine e).heap ∧
      ∀ k, (settled.2.environment k).exception = (w.environment k).exception
  | .error text => ∃ thrown, settled.1 = .error thrown ∧ thrown.report = "Error: " ++ text

section Complete

variable {w : World σ}

lemma complete_of_set (w : World σ) (result : Option Tagged)
    (hset : (w.environment n).exception.isSet = true) :
    complete n result w = (.error (throwPending n w).1, (throwPending n w).2) := by
  simp only [complete, Act.environment, bind, StateT.bind, hset]
  rfl

variable {value : Tagged} (hset : (w.environment n).exception.isSet = false)

include hset

lemma complete_none : complete n none w = (.ok .undefined, w) := by
  simp only [complete, Act.environment, bind, StateT.bind, hset]
  rfl

lemma complete_of_ok {v : Value}
    (hv : ((w.engine (w.environment n).engine).heap.ofTagged value).1 = .ok v) :
    complete n (some value) w =
      (.ok v, (Act.onHeap (w.environment n).engine (·.ofTagged value) w).2) := by
  simp only [complete, Act.environment, bind, StateT.bind, Act.onHeap, hset, hv,
    Bool.false_eq_true, if_false]
  rfl

lemma complete_of_refused {refused : ConversionError}
    (hv : ((w.engine (w.environment n).engine).heap.ofTagged value).1 = .error refused) :
    complete n (some value) w =
      (do
        Act.setException n (.native s!"result conversion failed: {refused.message}")
        return .error (← throwPending n) : Act σ Completion)
        (Act.onHeap (w.environment n).engine (·.ofTagged value) w).2 := by
  simp only [complete, Act.environment, bind, StateT.bind, Act.onHeap, hset, hv,
    Bool.false_eq_true, if_false]

end Complete

section Settle

variable {w : World σ} (hin : (View.environment n e).In w)

include hin

lemma throwPending_spec : let exception := (w.environment n).exception
    let text := if exception.message.isEmpty then "native callback failed" else exception.message
    (throwPending n w).1 = ((w.engine e).heap.newError .error text).1 ∧
    ((throwPending n w).2.engine e).heap = ((w.engine e).heap.newError .error text).2 ∧
    ∀ v : View, v.In w → v.In (throwPending n w).2 := by
  intro exception text
  obtain ⟨he, hn, rfl⟩ := hin
  have hheap : (throwPending n w).2.engine (w.environment n).engine =
      { w.engine (w.environment n).engine with
        heap := ((w.engine (w.environment n).engine).heap.newError .error text).2 } :=
    (World.engine_modifyEngine _ _ _ _).trans (if_pos ⟨rfl, he⟩)
  exact ⟨rfl, congrArg (·.heap) hheap, fun v hv =>
    (hv.modifyEnvironment n ({ · with exception := {} }) fun _ => rfl).modifyEngine _ _⟩

lemma left_spec (c : Completion) :
    (left e n (c, w)).1 = c ∧
    (w.engine e).heap.Alike ((left e n (c, w)).2.engine e).heap ∧
    (∀ k, ((left e n (c, w)).2.environment k).exception = (w.environment k).exception) ∧
    ∀ v : View, v.In w → v.In (left e n (c, w)).2 := by
  rw [left_apply]
  refine ⟨rfl, ?_, fun k => ?_, fun v hv => ?_⟩
  · rw [World.engine_modifyEngine, if_pos ⟨rfl, hin.1⟩]
    exact alike_leave _ c
  · exact environment_modifyEnvironment_congr (·.exception) rfl k
  · exact (hv.modifyEnvironment n (fun env => { env with running := env.running - 1 })
      fun _ => rfl).modifyEngine _ _

variable (hwf : (w.engine e).heap.WellFormed)

include hwf

variable (hroom : (w.engine e).heap.Roomy)

include hroom

section

variable (result : Option Tagged)

lemma settle_of_set (hset : (w.environment n).exception.isSet = true) :
    let exception := (w.environment n).exception
    let text := if exception.message.isEmpty then "native callback failed" else exception.message
    Settled e w (settle e n (result, w)) (.error text) ∧
      ∀ v : View, v.In w → v.In (settle e n (result, w)).2 := by
  intro exception text
  obtain ⟨hthrown, hheap, hthere⟩ := throwPending_spec hin
  obtain ⟨hc, ha, -, hstill⟩ := left_spec (hthere _ hin) (.error (throwPending n w).1)
  have htext : text.isEmpty = false := by
    cases hmessage : exception.message.isEmpty <;> simp [text, hmessage]
  have hsettle : settle e n (result, w) = (.error (((left e n (.error (throwPending n w).1,
      (throwPending n w).2)).2.engine e).heap.throwing (throwPending n w).1),
      (left e n (.error (throwPending n w).1, (throwPending n w).2)).2) := by
    simp only [settle, complete_of_set w result hset, hc]
    rfl
  rw [hheap] at ha
  rw [hsettle]
  refine ⟨⟨_, rfl, ?_⟩, fun v hv => hstill v (hthere v hv)⟩
  rw [hthrown, report_newError .error text _ hwf hroom (hthrown ▸ ha), errorText, htext]
  rfl

omit hroom in
omit hwf in
lemma settle_of_value (value : Value) (hset : (w.environment n).exception.isSet = false)
    (hvalue : (w.engine e).heap.resultOf result = .ok value) :
    Settled e w (settle e n (result, w)) (.ok value) ∧
      ∀ v : View, v.In w → v.In (settle e n (result, w)).2 := by
  obtain ⟨w', hr, hcomplete⟩ : ∃ w', w.Rerooted e w' ∧ complete n result w = (.ok value, w') := by
    obtain ⟨-, -, rfl⟩ := hin
    cases result with
    | none =>
      obtain rfl : Value.undefined = value := Except.ok.inj hvalue
      exact ⟨w, .refl w, complete_none hset⟩
    | some tagged =>
      exact ⟨_, .onHeap w (·.ofTagged tagged) (alike_ofTagged _ tagged)
        (moves_ofTagged _ tagged).leads, complete_of_ok hset hvalue⟩
  obtain ⟨hc, ha, hsame, hstill⟩ := left_spec (hr.inView hin) (.ok value)
  have hsettle : settle e n (result, w) = (.ok value, (left e n (.ok value, w')).2) := by
    simp only [settle, hcomplete, hc]
    rfl
  rw [hsettle]
  refine ⟨⟨rfl, hr.heap.trans ha, fun k => ?_⟩, fun v hv => hstill v (hr.inView hv)⟩
  rw [hsame, hr.environment]

lemma settle_of_refused (refused : ConversionError)
    (hset : (w.environment n).exception.isSet = false)
    (hrefused : (w.engine e).heap.resultOf result = .error refused) :
    Settled e w (settle e n (result, w))
        (.error s!"result conversion failed: {refused.message}") ∧
      ∀ v : View, v.In w → v.In (settle e n (result, w)).2 := by
  cases result with
  | none => exact absurd hrefused (by simp [resultOf])
  | some tagged =>
    obtain ⟨w₁, hw₁⟩ : ∃ w₁, w₁ = (Act.onHeap e (·.ofTagged tagged) w).2 := ⟨_, rfl⟩
    have hr : w.Rerooted e w₁ := hw₁ ▸ .onHeap w (·.ofTagged tagged) (alike_ofTagged _ tagged)
      (moves_ofTagged _ tagged).leads
    obtain ⟨w₂, hw₂⟩ : ∃ w₂, w₂ = w₁.modifyEnvironment n
      ({ · with exception := .native s!"result conversion failed: {refused.message}" }) := ⟨_, rfl⟩
    have hthere : ∀ v : View, v.In w → v.In w₂ := fun v hv =>
      hw₂ ▸ (hr.inView hv).modifyEnvironment n _ fun _ => rfl
    have hslot : (w₂.environment n).exception =
        .native s!"result conversion failed: {refused.message}" := by
      rw [hw₂, exception_set (hr.inView hin).2.1]
    have hcomplete : complete n (some tagged) w = complete n none w₂ := by
      rw [complete_of_set w₂ none (by rw [hslot]; rfl), hw₂, hw₁, ← hin.2.2]
      exact complete_of_refused hset (hin.2.2.symm ▸ hrefused)
    have hsettle : settle e n (some tagged, w) = settle e n (none, w₂) := by
      simp only [settle, hcomplete]
    have hobjects : (w₂.engine e).heap.objects = (w.engine e).heap.objects :=
      hw₂ ▸ hr.heap.objects
    have hwf₂ : (w₂.engine e).heap.WellFormed := by rw [Heap.WellFormed, hobjects]; exact hwf
    have hroom₂ : (w₂.engine e).heap.Roomy := by rw [Heap.Roomy, hobjects]; exact hroom
    have hend := settle_of_set (hthere _ hin) hwf₂ hroom₂ none (by rw [hslot]; rfl)
    have hfull : (s!"result conversion failed: {refused.message}").isEmpty = false := by
      simp [toString]
    rw [hsettle]
    refine ⟨?_, fun v hv => hend.2 v (hthere v hv)⟩
    simpa [hslot, Exception.native, hfull, Settled] using hend.1

lemma settle_spec :
    Settled e w (settle e n (result, w))
        (verdict (w.engine e).heap (w.environment n).exception result) ∧
      ∀ v : View, v.In w → v.In (settle e n (result, w)).2 := by
  unfold verdict
  cases hset : (w.environment n).exception.isSet with
  | true => exact settle_of_set hin hwf hroom result hset
  | false =>
    cases hresult : (w.engine e).heap.resultOf result with
    | ok value => exact settle_of_value hin result value hset hresult
    | error refused => exact settle_of_refused hin hwf hroom result refused hset hresult

end

omit hroom in
omit hwf in
lemma deliver_settled {m : EnvironmentId} (hm : (View.environment m e).In w)
    (hwf : (w.engine e).heap.WellFormed) (hroom : (w.engine e).heap.Roomy) (flags : Flags)
    (result : Option Tagged) :
    Replied e m n flags (result, w)
      (deliver n flags (settle e m (result, w)).1 (settle e m (result, w)).2) := by
  obtain ⟨hsettled, hthere⟩ := settle_spec hm hwf hroom result
  obtain ⟨-, hn, hengine⟩ := hthere _ hin
  generalize settle e m (result, w) = settled at hsettled hn hengine
  unfold Replied
  cases hverdict : verdict (w.engine e).heap (w.environment m).exception result with
  | ok value =>
    rw [hverdict] at hsettled
    obtain ⟨hok, ha, hsame⟩ := hsettled
    obtain ⟨answer, hanswer⟩ := exists_answer hverdict flags
    have hdelivered : deliver n flags settled.1 settled.2 = (some answer, settled.2) := by
      have hread : deliver n flags (.ok value) settled.2 =
          (((settled.2.engine (settled.2.environment n).engine).heap.toTagged flags value).toOption,
            settled.2) := rfl
      rw [hok, hread, hengine, ha.toTagged, hanswer]
      rfl
    rw [hdelivered]
    exact ⟨answer, hanswer, rfl, hsame⟩
  | error text =>
    rw [hverdict] at hsettled
    obtain ⟨thrown, herror, hreport⟩ := hsettled
    have hdelivered : deliver n flags settled.1 settled.2 = (none, settled.2.modifyEnvironment n
        ({ · with exception := .engine ("Error: " ++ text) })) := by
      rw [herror, ← hreport]
      rfl
    rw [hdelivered]
    exact ⟨rfl, exception_set hn _⟩

lemma conclude_spec (flags : Flags) (result : Option Tagged) :
    Answered e n flags (result, w) (conclude e n flags (result, w)) := by
  have hreplied : Replied e n n flags (result, w) (conclude e n flags (result, w)) :=
    deliver_settled hin hin hwf hroom flags result
  unfold Answered
  unfold Replied at hreplied
  cases hverdict : verdict (w.engine e).heap (w.environment n).exception result with
  | ok value =>
    rw [hverdict] at hreplied
    obtain ⟨answer, hanswer, hgiven, hsame⟩ := hreplied
    exact ⟨answer, hanswer, hgiven, by rw [hsame]; exact (verdict_eq_ok hverdict).1⟩
  | error text => rwa [hverdict] at hreplied

end Settle

end Environment

section Run

variable {w w' : World σ}

lemma World.Evolves.grown {s : σ} (hrun : World.Evolves { host := s } w) (he : w.HasEngine e) :
    (w.engine e).heap.Grown := by
  have hsome := Array.getElem?_eq_getElem he
  rw [World.engine_of_getElem? e _ hsome]
  exact hrun.added e.index _ rfl hsome

lemma World.Evolves.native (hev : w.Evolves w') (he : w.HasEngine e)
    (hwf : (w.engine e).heap.WellFormed) (hroom : (w'.engine e).heap.Roomy)
    (hbody : (w.engine e).heap.body? r = some (.function (.native data)))
    (halive : (w'.engine e).heap.isAlive r = true) :
    (w'.engine e).heap.body? r = some (.function (.native data)) := by
  obtain ⟨o, ho, hnative⟩ := Option.map_eq_some_iff.mp hbody
  obtain ⟨o', ho'⟩ := (isAlive_iff _ r).mp halive
  have hfaithful := (hev.leads he).faithful hwf hroom r o o' ho ho'
  have hfunction : o'.function? = some (.native data) := by
    rw [hfaithful.function, HeapObject.function?, hnative]
  rw [body?, ho', Option.map_some]
  unfold HeapObject.function? at hfunction
  split at hfunction
  · rename_i body hb
    rw [hb, Option.some.inj hfunction]
  · cases hfunction

lemma World.evolves_entered (w : World σ) (e : EngineId) (n : EnvironmentId) :
    w.Evolves (w.entered e n) := by
  refine .trans (.modifyEngine w e _ fun engine he => ?_) (.modifyEnvironment _ n _ fun _ _ =>
    ⟨rfl, .refl _⟩)
  rw [World.engine_of_getElem? e engine he]
  exact .op .pushScope trivial

lemma World.exception_entered (w : World σ) (e : EngineId) (n : EnvironmentId) :
    ((w.entered e n).environment n).exception = (w.environment n).exception :=
  environment_modifyEnvironment_congr (·.exception) rfl n

lemma Heap.request?_eq_some (hrequest : h.request? function this args = some (r, t, values)) :
    h.isAlive r = true ∧ args.mapM h.valueOf? = some values := by
  obtain ⟨f, hf, hrest⟩ := Option.bind_eq_some_iff.mp hrequest
  obtain ⟨receiver, -, hrest⟩ := Option.bind_eq_some_iff.mp hrest
  obtain ⟨found, hfound, hpair⟩ := Option.bind_eq_some_iff.mp hrest
  obtain ⟨rfl, -, rfl⟩ : f = r ∧ receiver = t ∧ found = values := by simpa using hpair
  exact ⟨h.isAlive_of_resolveHandle function f hf, hfound⟩

lemma Environment.callFunction_runs (w : World σ) (hn : (w.environment n).engine = e)
    (hrequest : (w.engine e).heap.request? function this args = some (r, t, values))
    (hbody : (w.engine e).heap.body? r = some (.function (.native data))) {f : NativeFunction}
    {F : Flags} (hreg : w.registration? e data = some (n, .function ⟨f, F, none⟩)) (G : Flags) :
    ∃ passed w₁, (w.engine e).heap.toTaggedAll F values = .ok passed ∧
      w.Evolves w₁ ∧ (w.engine e).heap.Alike (w₁.engine e).heap ∧ w₁.host = w.host ∧
      (w₁.environment n).exception = (w.environment n).exception ∧
      ∀ host : Host σ, callFunction host n function this args G w =
        conclude e n G (f.call host n (some (.transient t)) passed w₁) := by
  obtain ⟨w', hr, hcall⟩ := callFunction_eq w hn function this args G
  obtain ⟨-, hvalues⟩ := Heap.request?_eq_some hrequest
  obtain ⟨passed, hpassed⟩ := exists_toTaggedAll _ F hvalues
  have hn' : (w'.environment n).engine = e := by rw [hr.environment, hn]
  have hbody' : (w'.engine e).heap.body? r = some (.function (.native data)) := by
    rw [body?, object?, hr.heap.objects]
    exact hbody
  refine ⟨passed, w'.entered e n, hpassed, hr.evolves.trans (w'.evolves_entered e n),
    hr.heap.trans (alike_entered w'), hr.host, ?_, fun host => ?_⟩
  · rw [exception_entered, hr.environment]
  · rw [hcall host, hrequest]
    exact call_of_registration host w' hn' r data hbody' f F ((hr.registration data).trans hreg) t
      values passed ((hr.heap.toTaggedAll F values).trans hpassed) G

lemma Environment.newFunction_kept (hn : w.Has n) (he : w.HasEngine e)
    (hengine : (w.environment n).engine = e) (hgrown : (w.engine e).heap.Grown) (F : Flags)
    (f : NativeFunction) (htable : (w.environment n).tables.functions.size < 2 ^ 32)
    (hev : (newFunction n F f w).2.Evolves w') (hroom : (w'.engine e).heap.Roomy)
    (hmade : (newFunction n F f w).1 = .transient r) (halive : (w'.engine e).heap.isAlive r = true) :
    ∃ data, (w'.engine e).heap.body? r = some (.function (.native data)) ∧
      (w'.environment n).tables.lookup? data = some (.function ⟨f, F, none⟩) := by
  have hev₀ : w.Evolves (newFunction n F f w).2 := newFunction_evolving n F f w
  have he₁ := hev₀.hasEngine he
  have hroom₁ := (hev.leads he₁).roomy hroom
  have hroom₀ := (hev₀.leads he).roomy hroom₁
  have hwf := hgrown.wellFormed hroom₀
  obtain ⟨_, hprogress⟩ := (hev₀.leads he).objects
  subst hengine
  obtain ⟨r', data, hmade', hbody, hlookup⟩ := newFunction_native n F f hn he hwf hroom₀ htable
  obtain rfl : r' = r := Handle.transient.inj (hmade'.symm.trans hmade)
  exact ⟨data, hev.native he₁ (hprogress.wellFormed hwf hroom₁) hroom hbody halive,
    hev.lookup? n data _ hlookup⟩

end Run

-- A function runs its routine once for each call, with the receiver and the arguments as the engine
-- made them out, and what that leaves in the exception slot or returns decides the answer.
theorem native_call_transport (host : Host σ) (hc : host.Conforming) (s : σ)
    (before later : List Action) (n : EnvironmentId) (F : Flags) (f : NativeFunction)
    (function : Handle) (this : Option Handle) (args : List Tagged) (G : Flags) :
    let w₀ := World.after host { host := s } before
    let e := (w₀.environment n).engine
    let made := Environment.newFunction n F f w₀
    let w := made.2.after host later
    let h := (w.engine e).heap
    let call := fun host : Host σ => Environment.callFunction host n function this args G w
    w₀.Has n → w₀.HasEngine e → (w₀.environment n).tables.functions.size < 2 ^ 32 → h.Roomy →
    (h.request? function this args = none →
      ∃ w', w'.environments = w.environments ∧ w'.host = w.host ∧ ∀ host, call host = (none, w')) ∧
    ∀ r t values, made.1 = .transient r → h.request? function this args = some (r, t, values) →
      w.dispatcher? e = some n →
      ∃ passed w₁, h.toTaggedAll F values = .ok passed ∧
        w.Evolves w₁ ∧ h.Alike (w₁.engine e).heap ∧ w₁.host = w.host ∧
        (w₁.environment n).exception = (w.environment n).exception ∧
        (∀ host, call host =
          Environment.conclude e n G (f.call host n (some (.transient t)) passed w₁)) ∧
        let done := f.call host n (some (.transient t)) passed w₁
        (done.2.engine e).heap.Roomy → Environment.Answered e n G done (call host) := by
  intro w₀ e made w h call hn he htable hroom
  have hev₀ : w₀.Evolves made.2 := Environment.newFunction_evolving n F f w₀
  have hev : made.2.Evolves w := after_evolves hc made.2 later
  have hn' : w.Has n := (hev₀.trans hev).has hn
  have hengine : (w.environment n).engine = e := (hev₀.trans hev).engine hn
  obtain ⟨w', hr, hcall⟩ := Environment.callFunction_eq w hengine function this args G
  refine ⟨fun hnone => ?_, fun r t values hmade hrequest hd => ?_⟩
  · refine ⟨w', hr.environments, hr.host, fun host => ?_⟩
    rw [show call host = _ from hcall host, hnone]
  · obtain ⟨halive, -⟩ := Heap.request?_eq_some hrequest
    have hrun : World.Evolves { host := s } w₀ := after_evolves hc { host := s } before
    have hgrown : ∀ {w' : World σ}, w₀.Evolves w' → (w'.engine e).heap.Grown := fun hlater =>
      (hrun.trans hlater).grown (hlater.hasEngine he)
    obtain ⟨data, hbody, hlookup⟩ := Environment.newFunction_kept hn he rfl (hgrown (.refl w₀)) F f
      htable hev hroom hmade halive
    have hreg : w.registration? e data = some (n, .function ⟨f, F, none⟩) := by
      simp [registration?, hd, hlookup]
    obtain ⟨passed, w₁, hpassed, hev₁, halike, hhost, hexception, hruns⟩ :=
      Environment.callFunction_runs w hengine hrequest hbody hreg G
    refine ⟨passed, w₁, hpassed, hev₁, halike, hhost, hexception, hruns, ?_⟩
    intro done hroom'
    have hdone : w.Evolves done.2 := hev₁.trans ((hc.visits n).callBy f _ _ w₁)
    have hin : (View.environment n e).In done.2 :=
      ⟨((hev₀.trans hev).trans hdone).hasEngine he, hdone.has hn', (hdone.engine hn').trans hengine⟩
    have hwf' := (hgrown ((hev₀.trans hev).trans hdone)).wellFormed hroom'
    rw [show call host = _ from hruns host]
    exact Environment.conclude_spec hin hwf' hroom' G done.1

def refusing : Host Unit :=
  { Host.inert with
    function := fun _ n _ _ => do
      Act.setException n (.native "refused")
      return none }

lemma refusing_conforming : refusing.Conforming :=
  { Host.inert_conforming with
    function := fun _ n _ _ => (Act.Evolving.setException n _).bind fun _ => .pure _ }

def hosted : List Action := [.newEngine {}, .attach ⟨0⟩]

def functionMade : Handle × World Unit :=
  Environment.newFunction ⟨0⟩ 0 ⟨⟨0⟩, none⟩ (World.after refusing { host := () } hosted)

theorem native_call_transport_of_refusal :
    functionMade.1 = .transient (.first 1) ∧ functionMade.2.dispatcher? ⟨0⟩ = some ⟨0⟩ ∧
    (functionMade.2.engine ⟨0⟩).heap.request? (.transient (.first 1)) none [.int 7, .boolean true] =
      some (.first 1, .first 0, [.int 7, .boolean true]) ∧
    let called := Environment.callFunction refusing ⟨0⟩ (.transient (.first 1)) none
      [.int 7, .boolean true] 0 functionMade.2
    called.1 = none ∧
    (called.2.environment ⟨0⟩).exception = .engine "Error: refused" := by
  have hmade : functionMade.1 = .transient (.first 1) := by decide +kernel
  have hd : functionMade.2.dispatcher? ⟨0⟩ = some ⟨0⟩ := by decide +kernel
  have hrequest : (functionMade.2.engine ⟨0⟩).heap.request? (.transient (.first 1)) none
      [.int 7, .boolean true] = some (.first 1, .first 0, [.int 7, .boolean true]) := by
    decide +kernel
  have he : ((after refusing { host := () } hosted).environment ⟨0⟩).engine = ⟨0⟩ := by
    decide +kernel
  have hn : (after refusing { host := () } hosted).Has ⟨0⟩ := by decide +kernel
  have hthere : (after refusing { host := () } hosted).HasEngine ⟨0⟩ := by decide +kernel
  have htable : ((after refusing { host := () } hosted).environment ⟨0⟩).tables.functions.size
      < 2 ^ 32 := by decide +kernel
  have hroom : (functionMade.2.engine ⟨0⟩).heap.Roomy := show _ < _ by decide +kernel
  have hall := native_call_transport refusing refusing_conforming () hosted [] ⟨0⟩ 0 ⟨⟨0⟩, none⟩
    (.transient (.first 1)) none [.int 7, .boolean true] 0
  dsimp only at hall
  rw [he] at hall
  obtain ⟨-, hruns⟩ := hall hn hthere htable hroom
  obtain ⟨passed, w₁, -, hev, halike, -, -, -, hend⟩ := hruns _ _ _ hmade hrequest hd
  have hn₁ : w₁.Has ⟨0⟩ := hev.has ((Environment.newFunction_evolving _ _ _ _).has hn)
  have hroom₁ : (w₁.engine ⟨0⟩).heap.Roomy := by
    rw [Heap.Roomy, halike.objects]
    exact hroom
  let w₂ := w₁.modifyEnvironment ⟨0⟩ ({ · with exception := .native "refused" })
  have hdone : NativeFunction.call refusing ⟨⟨0⟩, none⟩ ⟨0⟩ (some (.transient (.first 0))) passed w₁ =
      (none, w₂) := rfl
  have hslot : (w₂.environment ⟨0⟩).exception = .native "refused" := exception_set hn₁ _
  have hverdict : Environment.verdict (w₂.engine ⟨0⟩).heap (w₂.environment ⟨0⟩).exception none =
      .error "refused" := by
    rw [hslot]
    rfl
  rw [hdone] at hend
  have hfinal := hend hroom₁
  simp only [Environment.Answered, hverdict] at hfinal
  exact ⟨hmade, hd, hrequest, hfinal.1, hfinal.2.trans (by decide)⟩

-- The environment that made the function is gone, and a call of it runs the routine of another.
theorem call_runs_other_routine :
    let w₀ := World.after twoRoutines { host := {} } hosted
    let w := (World.after twoRoutines { host := {} } keptFunction).after twoRoutines secondTenant
    (Environment.newFunction ⟨0⟩ 0 ⟨⟨0⟩, none⟩ w₀).1 = .transient (.first 1) ∧
    (w.engine ⟨0⟩).heap.request? (.persistent (.first 0)) none [] = some (.first 1, .first 0, []) ∧
    w.dispatcher? ⟨0⟩ = some ⟨1⟩ ∧
    (Environment.callFunction twoRoutines ⟨1⟩ (.persistent (.first 0)) none [] 0 w).2.host.events =
      [.callback "b" (some (.transient (.first 0))) [] [] none] := by
  refine ⟨?_, ?_, ?_, ?_⟩
  · decide +kernel
  · decide +kernel
  · decide +kernel
  · cbv

end HostBoundary
