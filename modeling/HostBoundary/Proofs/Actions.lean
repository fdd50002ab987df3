import HostBoundary.Proofs.ForeignCalls

namespace HostBoundary

open Act (Evolving)

variable {σ α : Type} {host : Host σ} {P : ∀ {α : Type}, Act σ α → Prop}

namespace Environment

variable (n : EnvironmentId)

lemma register_evolving (callback : Callback) :
    Evolving (modifyGet fun w =>
      let (data, tables) := (w.environment n).tables.register callback
      (data, w.modifyEnvironment n ({ · with tables })) : Act σ CallbackData) := by
  intro w
  refine .modifyEnvironment w n _ fun env he => ⟨rfl, ?_⟩
  exact World.environment_of_getElem? n env he ▸ env.tables.extends_register callback

lemma onHeap_evolving {f : Heap → α × Heap} (hf : ∀ h : Heap, h.Leads (f h).2) :
    Evolving (onHeap n f : Act σ α) :=
  .bind (.returning (.environment n) _) fun e => .onHeap e hf

lemma pushScope_evolving : Evolving (pushScope n : Act σ Unit) :=
  .bind (onHeap_evolving n fun _ => .op .pushScope trivial) fun _ =>
    .updateEnvironment n (fun _ => rfl) fun _ => rfl

lemma popScope_evolving (hc : host.Conforming) : Evolving (popScope host n) := by
  refine .bind (.environment n) fun env => ?_
  split
  · exact .bind (.updateEnvironment n (fun _ => rfl) fun _ => rfl) fun _ =>
      Engine.popScope_evolving hc env.engine
  · exact .pure ()

lemma makeWeak_evolving (handle : Handle) (hook : Option ReclaimHook) :
    Evolving (makeWeak n handle hook : Act σ (Option Handle)) := by
  cases handle with
  | transient target => exact .pure none
  | persistent slot =>
    refine .bind (onHeap_evolving n fun h => (h.quietly_weaken slot hook).leads) fun weak => ?_
    split <;> exact .pure _

lemma newWeakReference_evolving (hc : host.Conforming) (object : Handle)
    (hook : Option ReclaimHook) :
    Evolving (newWeakReference n object hook : Act σ (Option Handle)) :=
  hc.frame.newWeakReference n object hook fun handle => makeWeak_evolving n handle hook

lemma releaseHandle_evolving (handle : Handle) : Evolving (releaseHandle n handle : Act σ Bool) :=
  onHeap_evolving n fun h => (h.quietly_releaseHandle handle).leads

lemma closed (hc : host.Conforming) : Act.Closed host n fun act => Evolving act :=
  (Engine.plain hc).closed n (register_evolving n) (fun _ _ => .of_eq rfl rfl)
    (fun c => hc.frame.newInstance n c Engine.attachFinalizer_evolving)
    fun e _ _ => .onHeap e fun h => h.leads_allocate _

lemma newFunction_evolving (flags : Flags) (f : NativeFunction) :
    Evolving (newFunction n flags f : Act σ Handle) :=
  (closed n Host.inert_conforming).newFunction flags f

end Environment

lemma Environment.perform_evolving (hc : host.Conforming) (n : EnvironmentId)
    (op : Environment.Operation.Known) : Evolving (Environment.perform host n op) := by
  have hclosed := Environment.closed n hc
  refine hclosed.perform op (fun hop => ?_) (hclosed.perform_of_stores (Engine.setting_evolving hc) op)
  cases op with
  | pushScope => exact (pushScope_evolving n).bind fun _ => .pure _
  | popScope => exact (popScope_evolving n hc).bind fun _ => .pure _
  | newWeakReference o hook => exact (newWeakReference_evolving n hc o hook).returning _
  | makeWeak o hook => exact (makeWeak_evolving n o hook).returning _
  | deleteReference o => exact ((releaseHandle_evolving n o).map _).bind fun _ => .pure _
  | _ => exact absurd hop (by simp [Operation.plain])

lemma Foreign.perform_evolving (hc : host.Conforming) (env : Option ForeignEnvironment)
    (call : Foreign.Call.Known) : Evolving (Foreign.perform host env call) :=
  hc.frame.foreign env call fun n op _ => Environment.perform_evolving hc n op

def Engine.Request.plain : Engine.Request.Known → Bool
  | .pushScope | .popScope | .setWeak _ _ | .disposePersistent _ => false
  | _ => true

def Engine.Request.stores : Engine.Request.Known → Bool
  | .set _ _ _ => true
  | _ => false

lemma Act.Ground.serve_of_stores (hP : Act.Ground host P) (hset : Act.Setting host P) (e : EngineId)
    (r : Engine.Request.Known) (hr : r.stores = true) : P (Engine.serve host e r) := by
  cases r with
  | set r key value =>
    refine hP.bind (hset e r key value) fun result => ?_
    split <;> exact hP.pure _
  | _ => exact absurd hr (by simp [Engine.Request.stores])

lemma Act.Plain.serve (hP : Act.Plain host P) (e : EngineId) (r : Engine.Request.Known)
    (hr : r.plain = false → P (Engine.serve host e r))
    (hstores : r.stores = true → P (Engine.serve host e r)) : P (Engine.serve host e r) := by
  cases r with
  | pushScope | popScope | setWeak | disposePersistent => exact hr rfl
  | collect => exact hP.bind (hP.collectGarbage e) fun _ => hP.pure _
  | newPersistent r => exact hP.returning (hP.moves e fun _ => .of_move (.persist r)) _
  | persistentTarget s => exact hP.returning (hP.moves e fun _ => .of_move (.target s)) _
  | executeScript code file line =>
    exact hP.returning (hP.moves e fun h => h.moves_execute _ _ _) _
  | newObject => exact hP.returning (hP.moves e fun h => h.moves_newObject) _
  | get r key => exact hP.returning (hP.getProperty e r key) _
  | set => exact hstores rfl
  | setField r i word =>
    simp only [Engine.serve]
    split
    · exact hP.returning (hP.moves e fun _ => .of_move (.assign _ _ _)) _
    · exact hP.pure _
  | newError message => exact hP.returning (hP.moves e fun h => h.moves_newError _ _) _
  | newArray length => exact hP.returning (hP.moves e fun h => h.moves_newArray length) _
  | newFunction data name =>
    exact hP.returning (hP.moves e fun h => h.moves_newFunction data name) _
  | call f this args => exact hP.returning (hP.call e f this args) _
  | construct f args =>
    refine hP.bind (hP.construct e f args) fun result => ?_
    split <;> exact hP.pure _
  | newTemplate parent className constructor fields =>
    exact hP.returning (hP.moves e fun _ => .of_move (.newTemplate _ ⟨rfl, rfl, rfl, rfl⟩)) _
  | addAccessor r name getter setter =>
    exact hP.returning (hP.moves e fun _ => .of_move (.addAccessor r name getter setter)) _
  | addMethod r name data =>
    exact hP.returning (hP.moves e fun _ => .of_move (.addMethod r name data)) _
  | templateFunction r =>
    exact hP.returning (hP.moves e fun h => h.moves_templateFunction r) _
  | newInstance r => exact hP.returning (hP.moves e fun h => h.moves_newInstance r) _
  | discardTemplate r =>
    exact hP.bind (hP.moves e fun _ => .of_move (.discardTemplate r)) fun _ => hP.pure _
  | newArrayBuffer length => exact hP.returning (hP.moves e fun h => h.moves_newArrayBuffer length) _
  | newTypedArray kind buffer offset length =>
    exact hP.returning (hP.moves e fun _ => .of_move (.typedArray _ _ _ _)) _
  | newResolver => exact hP.returning (hP.works e fun h => h.works_newResolver) _
  | resolverPromise r =>
    exact hP.returning (hP.moves e fun h => h.moves_resolverPromise r) _
  | resolve r value => exact hP.returning (hP.works e fun h => h.works_resolve r value) _
  | reject r value => exact hP.returning (hP.works e fun h => h.works_reject r value) _
  | promiseThen r f g => exact hP.returning (hP.works e fun h => h.works_thenPromise r f g) _
  | runMicrotasks => exact hP.bind (hP.runJobs e _) fun _ => hP.pure _
  | statistics | global | isAlive | objectKind | display | ownPropertyNames | field | arrayLength
  | isConstructible | typedArrayView | dataView | promiseState | promiseResult | promiseHandled =>
    exact hP.returning (hP.heap e) _

lemma Engine.serve_evolving (hc : host.Conforming) (e : EngineId) (r : Engine.Request.Known) :
    Evolving (Engine.serve host e r) := by
  refine (Engine.plain hc).serve e r (fun hr => ?_)
    ((Engine.plain hc).serve_of_stores (setting_evolving hc) e r)
  cases r with
  | pushScope => exact .bind (.updateHeap e fun _ => .op .pushScope trivial) fun _ => .pure _
  | popScope => exact (popScope_evolving hc e).bind fun _ => .pure _
  | setWeak s hook => exact .returning (.onHeap e fun h => (h.quietly_weaken s hook).leads) _
  | disposePersistent s => exact .returning (.onHeap e fun h => (h.quietly_dispose s).leads) _
  | _ => exact absurd hr (by simp [Request.plain])

namespace Foreign

lemma registerContext_evolving (e : EngineId) : Evolving (registerContext e : Act σ UInt64) :=
  fun _ => .of_eq rfl rfl

lemma newContext_evolving (limits : HeapLimits) : Evolving (newContext limits : Act σ UInt64) :=
  .bind (fun w => .addEngine w _ (Heap.grown_fresh limits)) fun e => registerContext_evolving e

lemma endContext_evolving (hc : host.Conforming) (context : UInt64) :
    Evolving (endContext host context) := by
  refine .bind .get fun w => ?_
  split
  · exact .bind (fun _ => .of_eq rfl rfl) fun _ => (Evolving.minor.teardown _).bind fun _ =>
      Evolving.bind (hc.frame.reap _) fun _ => .pure true
  · exact .pure false

lemma getEnvironment_evolving (context : UInt64) (version : Int32) :
    Evolving (getEnvironment context version : Act σ (Option ForeignEnvironment)) := by
  refine .bind .get fun w => ?_
  split
  · exact Environment.negotiate_evolving _ version
  · exact .pure none

end Foreign

-- Everything that can be done from outside: to an engine, to an environment or through the
-- flat interface, contexts and the lifetimes of engines and environments included.
inductive Action where
  | newEngine (limits : HeapLimits)
  | dropEngine (e : EngineId)
  | convert (e : EngineId) (value : Tagged)
  | resolveHandle (e : EngineId) (handle : Handle)
  | releaseHandle (e : EngineId) (handle : Handle)
  | attach (e : EngineId)
  | negotiate (e : EngineId) (version : Int32)
  | acquire (n : EnvironmentId)
  | drop (n : EnvironmentId)
  | teardown (e : EngineId)
  | operate (n : EnvironmentId) (op : Environment.Operation.Known)
  | request (e : EngineId) (r : Engine.Request.Known)
  | foreign (env : Option ForeignEnvironment) (call : Foreign.Call.Known)
  | registerContext (e : EngineId)
  | newContext (limits : HeapLimits)
  | endContext (context : UInt64)
  | getEnvironment (context : UInt64) (version : Int32)

def Action.perform (host : Host σ) : Action → Act σ Unit
  | .newEngine limits => modify fun w => (w.addEngine { heap := .fresh limits, held := true }).2
  | .dropEngine e => do
    Act.updateEngine e ({ · with held := false })
    Environment.reap host e
  | .convert e value => discard (Act.onHeap e (·.ofTagged value))
  | .resolveHandle e handle => discard (Act.onHeap e (·.resolveHandle handle))
  | .releaseHandle e handle => discard (Act.onHeap e (·.releaseHandle handle))
  | .attach e => discard (Environment.attach e)
  | .negotiate e version => discard (Environment.negotiate e version)
  | .acquire n => Environment.acquire n
  | .drop n => Environment.drop host n
  | .teardown e => Environment.teardown e
  | .operate n op => discard (Environment.perform host n op)
  | .request e r => discard (Engine.serve host e r)
  | .foreign env call => discard (Foreign.perform host env call)
  | .registerContext e => discard (Foreign.registerContext e)
  | .newContext limits => discard (Foreign.newContext limits)
  | .endContext context => discard (Foreign.endContext host context)
  | .getEnvironment context version => discard (Foreign.getEnvironment context version)

lemma Action.perform_evolving (hc : host.Conforming) (action : Action) :
    Evolving (action.perform host) := by
  cases action with
  | newEngine limits => exact fun w => .addEngine w _ (Heap.grown_fresh limits)
  | dropEngine e =>
    exact .bind (.updateEngine e fun _ => rfl) fun _ => hc.frame.reap e
  | convert e value => exact (Act.Evolving.onHeap e fun h => (h.moves_ofTagged value).leads).map _
  | resolveHandle e handle =>
    exact (Act.Evolving.onHeap e fun h => (h.moves_resolveHandle handle).leads).map _
  | releaseHandle e handle =>
    exact (Act.Evolving.onHeap e fun h => (h.quietly_releaseHandle handle).leads).map _
  | attach e => exact (Environment.attach_evolving e).map _
  | negotiate e version => exact (Environment.negotiate_evolving e version).map _
  | acquire n => exact Evolving.minor.acquire n
  | drop n => exact hc.frame.drop n hc.frame.reap
  | teardown e => exact Evolving.minor.teardown e
  | operate n op => exact (Environment.perform_evolving hc n op).map _
  | request e r => exact (Engine.serve_evolving hc e r).map _
  | foreign env call => exact (Foreign.perform_evolving hc env call).map _
  | registerContext e => exact (Foreign.registerContext_evolving e).map _
  | newContext limits => exact (Foreign.newContext_evolving limits).map _
  | endContext context => exact (Foreign.endContext_evolving hc context).map _
  | getEnvironment context version => exact (Foreign.getEnvironment_evolving context version).map _

def World.after (host : Host σ) (w : World σ) (actions : List Action) : World σ :=
  actions.foldl (fun w action => (action.perform host w).2) w

lemma World.after_evolves (hc : host.Conforming) (w : World σ) (actions : List Action) :
    w.Evolves (w.after host actions) := by
  induction actions generalizing w with
  | nil => exact .refl w
  | cons action rest ih => exact (action.perform_evolving hc w).trans (ih _)

end HostBoundary
