import HostBoundary.Proofs.Boundary

namespace HostBoundary

variable {σ α : Type} {host : Host σ} {n : EnvironmentId} {P : ∀ {α : Type}, Act σ α → Prop}

-- Scopes are pushed and popped, slots are made weak, and those that are there are released, by
-- these operations only.
def Environment.Operation.plain : Environment.Operation.Known → Bool
  | .pushScope | .popScope | .newWeakReference _ _ | .makeWeak _ _ | .deleteReference _ => false
  | _ => true

def Environment.Operation.stores : Environment.Operation.Known → Bool
  | .registerCallback _ _ _ _ | .setGlobal _ _ | .setProperty _ _ _ | .setPropertyValue _ _ _
  | .propertyNames _ | .setIndex _ _ _ | .newArrayWithValues _ => true
  | _ => false

-- A property of acts that everything has that can be asked of an environment, plain operations that
-- set no properties at least, if it holds of what is special: registration, new instances, host
-- memory and promises.
structure Act.Closed (host : Host σ) (n : EnvironmentId) (P : ∀ {α : Type}, Act σ α → Prop) : Prop
    extends Act.Basis host P where
  register : ∀ callback, P (modifyGet fun w =>
    let (data, tables) := (w.environment n).tables.register callback
    (data, w.modifyEnvironment n ({ · with tables })) : Act σ CallbackData)
  addClass : ∀ compiled, P (modifyGet (·.addClass compiled) : Act σ ClassId)
  newInstance : ∀ c, P (Environment.newInstance n c)
  newExternalBuffer : ∀ e memory release,
    P (Act.onHeap e (·.newExternalBuffer memory release) : Act σ ObjectRef)
  newResolver : ∀ e, P (Act.onHeap e (·.newResolver) : Act σ ObjectRef)
  thenPromise : ∀ e r f g, P (Act.onHeap e (·.thenPromise r f g) : Act σ (Option ObjectRef))
  resolvePromise : ∀ resolver value, P (Environment.resolvePromise n resolver value)
  rejectPromise : ∀ resolver value, P (Environment.rejectPromise n resolver value)
  runMicrotasks : ∀ e, P (Engine.runMicrotasks host e)

namespace Act.Frame

variable (hP : Act.Frame host P)

include hP

variable (n : EnvironmentId)

lemma engineOf : P (Environment.engineOf n) := hP.returning (hP.environment n) _

lemma newReference (object : Handle) : P (Environment.newReference n object) := by
  refine hP.bind (hP.bind (hP.engineOf n) fun e =>
    hP.moves e fun h => h.moves_resolveHandle object) fun r => ?_
  cases r with
  | none => exact hP.pure none
  | some r =>
    exact hP.returning (hP.bind (hP.engineOf n) fun e =>
      hP.moves e fun _ => .of_move (.persist r)) _

lemma newInstance (c : ClassId)
    (hattach : ∀ e target finalizer,
      P (Act.updateHeap e (Environment.attachFinalizer target finalizer))) :
    P (Environment.newInstance n c) := by
  refine hP.bind hP.get fun w => ?_
  split
  · refine hP.bind (hP.bind (hP.engineOf n) fun e =>
      hP.moves e fun h => h.moves_newInstance _) fun made => ?_
    split
    · dsimp only
      split
      · exact hP.bind (hP.bind (hP.engineOf n) fun e => hattach e _ _) fun _ => hP.pure _
      · exact hP.pure _
    · exact hP.pure none
  · exact hP.pure none

lemma newWeakReference (object : Handle) (hook : Option ReclaimHook)
    (hweak : ∀ handle, P (Environment.makeWeak n handle hook)) :
    P (Environment.newWeakReference n object hook) := by
  refine hP.bind (hP.newReference n object) fun strong => ?_
  split
  · exact hweak _
  · exact hP.pure none

end Act.Frame

namespace Act.Plain

variable (hP : Act.Plain host P)

include hP

lemma settleWith (n : EnvironmentId) (resolver : Handle) (value : Tagged)
    (f : Heap → ObjectRef → Value → Bool × Heap) (hf : ∀ (h : Heap) r v, h.Works (f h r v).2) :
    P (Environment.settleWith n resolver value f) := by
  refine hP.bind (hP.bind (hP.engineOf n) fun e =>
    hP.moves e fun h => h.moves_resolveHandle resolver) fun r => ?_
  refine hP.bind (hP.returning (hP.bind (hP.engineOf n) fun e =>
    hP.moves e fun h => h.moves_ofTagged value) _) fun value => ?_
  split
  · exact hP.bind (hP.engineOf n) fun e => hP.works e fun h => hf h _ _
  · exact hP.pure false

lemma closed (n : EnvironmentId)
    (register : ∀ callback, P (modifyGet fun w =>
      let (data, tables) := (w.environment n).tables.register callback
      (data, w.modifyEnvironment n ({ · with tables })) : Act σ CallbackData))
    (addClass : ∀ compiled, P (modifyGet (·.addClass compiled) : Act σ ClassId))
    (newInstance : ∀ c, P (Environment.newInstance n c))
    (newExternalBuffer : ∀ e memory release,
      P (Act.onHeap e (·.newExternalBuffer memory release))) :
    Act.Closed host n P where
  toBasis := hP.toBasis
  register := register
  addClass := addClass
  newInstance := newInstance
  newExternalBuffer := newExternalBuffer
  newResolver e := hP.works e fun h => h.works_newResolver
  thenPromise e r f g := hP.works e fun h => h.works_thenPromise r f g
  resolvePromise r v := hP.settleWith n r v _ fun h r v => h.works_resolve r v
  rejectPromise r v := hP.settleWith n r v _ fun h r v => h.works_reject r v
  runMicrotasks e := hP.runJobs e _

end Act.Plain

namespace Act.Closed

variable (hP : Act.Closed host n P)

include hP

section Handles

lemma onEngine {next : EngineId → Act σ α} (h : ∀ e, P (next e)) :
    P (Environment.engineOf n >>= next) :=
  hP.bind (hP.engineOf n) h

lemma onHeap {f : Heap → α × Heap} (hf : ∀ h : Heap, h.Moves (f h).2) :
    P (Environment.onHeap n f) :=
  hP.onEngine fun e => hP.moves e hf

lemma heapOf : P (Environment.heapOf n) := hP.onEngine fun e => hP.heap e

lemma allocated {f : Heap → ObjectRef × Heap} (hf : ∀ h : Heap, h.Moves (f h).2) :
    P (Environment.allocated n f) := hP.returning (hP.onHeap hf) _

lemma allocated? {f : Heap → Option ObjectRef × Heap} (hf : ∀ h : Heap, h.Moves (f h).2) :
    P (Environment.allocated? n f) := hP.returning (hP.onHeap hf) _

lemma resolve (handle : Handle) : P (Environment.resolve n handle) :=
  hP.onHeap fun h => h.moves_resolveHandle handle

lemma resolving {next : Option ObjectRef → Act σ α} (handle : Handle) (hnone : P (next none))
    (hsome : ∀ r, P (next (some r))) : P (Environment.resolve n handle >>= next) := by
  refine hP.bind (hP.resolve handle) fun found => ?_
  cases found with
  | none => exact hnone
  | some r => exact hsome r

lemma inspect (handle : Handle) (f : Heap → ObjectRef → Option α) :
    P (Environment.inspect n handle f) :=
  hP.resolving handle (hP.pure none) fun _ => hP.returning hP.heapOf _

lemma toValue (value : Tagged) : P (Environment.toValue n value) :=
  hP.returning (hP.onHeap fun h => h.moves_ofTagged value) _

lemma toValues (values : List Tagged) : P (Environment.toValues n values) :=
  hP.returning (hP.onHeap fun h => h.moves_ofTaggedAll values) _

lemma deliver (flags : Flags) (result : Except Throw Value) :
    P (Environment.deliver n flags result) := by
  cases result with
  | ok value => exact hP.returning hP.heapOf _
  | error thrown => exact hP.bind (hP.setException n _) fun _ => hP.pure none

lemma succeeded (result : Except Throw Unit) : P (Environment.succeeded n result) := by
  cases result with
  | ok _ => exact hP.pure true
  | error thrown => exact hP.bind (hP.setException n _) fun _ => hP.pure false

lemma globalOf : P (Environment.globalOf n) := hP.returning hP.heapOf _

end Handles

section Properties

variable (hset : Act.Setting host P)

include hset

lemma write (r : ObjectRef) (key value : Value) :
    P (do
      Environment.succeeded n
        (← Engine.setProperty host (← Environment.engineOf n) r key value)) :=
  hP.onEngine fun e => hP.bind (hset e r key value) fun result =>
    hP.succeeded result

omit hset in
lemma getOn (r : ObjectRef) (key : Tagged) (flags : Flags) :
    P (Environment.getOn host n r key flags) := by
  refine hP.bind (hP.toValue key) fun key => ?_
  split
  · exact hP.onEngine fun e => hP.bind (hP.toBasis.getProperty e r _) fun result =>
      hP.deliver flags result
  · exact hP.pure none

lemma setOn (r : ObjectRef) (key value : Tagged) : P (Environment.setOn host n r key value) := by
  refine hP.bind (hP.toValue key) fun key => hP.bind (hP.toValue value) fun value => ?_
  split
  · exact hP.write hset r _ _
  · exact hP.pure false

omit hset in
lemma getGlobal (key : Tagged) (flags : Flags) : P (Environment.getGlobal host n key flags) :=
  hP.bind hP.globalOf fun r => hP.getOn r key flags

lemma setGlobal (key value : Tagged) : P (Environment.setGlobal host n key value) :=
  hP.bind hP.globalOf fun r => hP.setOn hset r key value

section

variable (object : Handle)

omit hset in
lemma getProperty (key : Tagged) (flags : Flags) :
    P (Environment.getProperty host n object key flags) :=
  hP.resolving object (hP.pure none) fun r => hP.getOn r key flags

lemma setProperty (key value : Tagged) : P (Environment.setProperty host n object key value) :=
  hP.resolving object (hP.pure false) fun r => hP.setOn hset r key value

omit hset in
lemma getIndex (index : UInt32) (flags : Flags) :
    P (Environment.getIndex host n object index flags) :=
  hP.resolving object (hP.pure none) fun r => hP.onEngine fun e =>
    hP.bind (hP.toBasis.getProperty e r _) fun result => hP.deliver flags result

lemma setIndex (index : UInt32) (value : Tagged) :
    P (Environment.setIndex host n object index value) := by
  refine hP.bind (hP.resolve object) fun r => hP.bind (hP.toValue value) fun value => ?_
  split
  · exact hP.write hset _ _ _
  · exact hP.pure false

lemma fill (array : ObjectRef) (index : Nat) (values : List Value) :
    P (Environment.fill host n array index values) := by
  induction values generalizing index with
  | nil => exact hP.pure true
  | cons value rest ih =>
    refine hP.onEngine fun e => hP.bind (hset e array _ value) fun result =>
      hP.bind (hP.succeeded result) fun ok => ?_
    split
    · exact ih (index + 1)
    · exact hP.pure false

lemma arrayOf (values : List Value) : P (Environment.arrayOf host n values) := by
  refine hP.bind (hP.onHeap fun h => h.moves_newArray _) fun array =>
    hP.bind (hP.fill hset array 0 values) fun ok => ?_
  split <;> exact hP.pure _

lemma propertyNames : P (Environment.propertyNames host n object) := by
  refine hP.bind (hP.inspect object _) fun names => ?_
  split
  · exact hP.arrayOf hset _
  · exact hP.pure none

end

lemma newArrayWithValues (values : List Tagged) :
    P (Environment.newArrayWithValues host n values) := by
  refine hP.bind (hP.toValues values) fun values => ?_
  split
  · exact hP.arrayOf hset _
  · exact hP.pure none

end Properties

section Functions

lemma executeScript (code : Tagged) (file : Option String) (startLine : Int) (flags : Flags) :
    P (Environment.executeScript n code file startLine flags) := by
  unfold Environment.executeScript
  dsimp only
  split
  · exact hP.bind (hP.onHeap fun h => h.moves_execute _ _ _) fun result => hP.deliver flags result
  · exact hP.pure none

lemma newFunction (flags : Flags) (f : NativeFunction) : P (Environment.newFunction n flags f) :=
  hP.bind (hP.register (.function ⟨f, flags, none⟩)) fun data =>
    hP.allocated fun h => h.moves_newFunction data none

lemma registerMember (member : MemberEntry) : P (Environment.registerMember n member) :=
  hP.register (.member member)

lemma descend (hset : Act.Setting host P) (target : ObjectRef) (segments : List String) :
    P (Environment.descend host n target segments) := by
  induction segments generalizing target with
  | nil => exact hP.pure _
  | cons segment rest ih =>
    refine hP.onEngine fun e => hP.bind (hP.toBasis.getProperty e target _) fun found => ?_
    split
    · exact hP.bind (hP.setException n _) fun _ => hP.pure none
    · split
      · exact ih _
      · refine hP.bind (hP.onHeap fun h => h.moves_newObject) fun inner =>
          hP.bind (hset e target _ _) fun result =>
            hP.bind (hP.succeeded result) fun ok => ?_
        split
        · exact ih inner
        · exact hP.pure none

lemma receiver (this : Option Handle) : P (Environment.receiver n this) := by
  cases this with
  | some handle => exact hP.resolve handle
  | none => exact hP.map hP.globalOf some

lemma callFunction (function : Handle) (this : Option Handle) (args : List Tagged) (flags : Flags) :
    P (Environment.callFunction host n function this args flags) := by
  rw [Environment.callFunction_receiver]
  refine hP.resolving function (hP.pure none) fun f => hP.bind (hP.receiver this) fun receiver => ?_
  split
  · refine hP.bind (hP.toValues args) fun values => ?_
    split
    · exact hP.onEngine fun e => hP.bind (hP.call e f _ _) fun result => hP.deliver flags result
    · exact hP.pure none
  · exact hP.pure none

lemma constructWith (f : ObjectRef) (args : List Tagged) :
    P (Environment.constructWith host n f args) := by
  refine hP.bind (hP.toValues args) fun values => ?_
  split
  · refine hP.onEngine fun e => hP.bind (hP.construct e f _) fun result => ?_
    split
    · exact hP.pure _
    · exact hP.bind (hP.setException n _) fun _ => hP.pure none
  · exact hP.pure none

lemma callAsConstructor (function : Handle) (args : List Tagged) :
    P (Environment.callAsConstructor host n function args) :=
  hP.resolving function (hP.pure none) fun f => hP.constructWith f args

omit hP in
lemma moves_ownerHandle (h : Heap) (handle : Handle) :
    h.Moves (Environment.ownerHandle h handle).2 := by
  cases handle with
  | persistent slot => exact .refl h
  | transient target =>
    have hhold : (Environment.ownerHandle h (.transient target)).2 = (h.hold target none).2 := by
      simp only [Environment.ownerHandle, Heap.hold]
      split <;> rename_i heq <;> rw [heq]
    rw [hhold]
    exact .of_move (.hold target)

lemma holder (owner : Option Handle) : P (Environment.holder n owner) := by
  cases owner with
  | some handle => exact hP.onHeap fun h => moves_ownerHandle h handle
  | none => exact hP.pure none

lemma putFunction (hset : Act.Setting host P) (target : ObjectRef) (name : String)
    (entry : FunctionEntry) : P (Environment.putFunction host n target name entry) :=
  hP.bind (hP.register (.domain entry)) fun data =>
    hP.bind (hP.onHeap fun h => h.moves_newFunction data (some name)) fun function =>
      hP.write hset target (.text name) (.object function)

lemma registerCallback (hset : Act.Setting host P) (owner : Option Handle) (domain : String)
    (flags : Flags) (f : NativeFunction) :
    P (Environment.registerCallback host n owner domain flags f) := by
  rw [Environment.registerCallback_eq]
  split
  · refine hP.bind (hP.receiver owner) fun root => ?_
    split
    · rw [Environment.registerBelow_eq]
      refine hP.bind (hP.holder owner) fun held => hP.bind (hP.descend hset _ _) fun target => ?_
      split
      · exact hP.putFunction hset _ _ _
      · exact hP.pure false
    · exact hP.pure false
  · exact hP.pure false

end Functions

section Classes

lemma installProperties (template : TemplateRef) (properties : List PropertyDefinition) :
    P (Environment.installProperties n template properties) := by
  induction properties with
  | nil => exact hP.pure none
  | cons p rest ih =>
    refine hP.bind (hP.registerMember _) fun data =>
      hP.bind (hP.onHeap fun _ => .of_move (.addAccessor _ _ _ _)) fun accepted => ?_
    split
    · exact ih
    · exact hP.pure _

lemma installMethods (template : TemplateRef) (methods : List MethodDefinition) :
    P (Environment.installMethods n template methods) := by
  induction methods with
  | nil => exact hP.pure none
  | cons m rest ih =>
    refine hP.bind (hP.registerMember _) fun data =>
      hP.bind (hP.onHeap fun _ => .of_move (.addMethod _ _ _)) fun accepted => ?_
    split
    · exact ih
    · exact hP.pure _

lemma compile (d : ClassDefinition) (parent : Option ClassId) :
    P (Environment.compile n d parent) := by
  refine hP.bind hP.get fun w => ?_
  dsimp only
  split
  · exact hP.pure _
  · split
    on_goal 1 => refine hP.bind (hP.map (hP.registerMember _) some) fun constructor => ?_
    on_goal 2 => refine hP.bind (hP.pure none) fun constructor => ?_
    all_goals
      refine hP.bind (hP.onHeap fun _ => .of_move (.newTemplate _ ⟨rfl, rfl, rfl, rfl⟩)) fun created => ?_
      split
      · refine hP.bind (hP.installProperties _ _) fun refused => ?_
        split
        on_goal 1 => refine hP.bind (hP.pure _) fun refused => ?_
        on_goal 2 => refine hP.bind (hP.installMethods _ _) fun refused => ?_
        all_goals
          split
          · exact hP.bind (hP.onHeap fun _ => .of_move (.discardTemplate _)) fun _ => hP.pure _
          · exact hP.returning (hP.addClass _) _
      · exact hP.pure _

lemma getClass (name : String) : P (Environment.getClass n name) :=
  hP.returning (hP.environment n) _

lemma createClass (d : ClassDefinition) (parent : Option ClassId) :
    P (Environment.createClass n d parent) := by
  unfold Environment.createClass
  dsimp only
  split
  on_goal 1 => refine hP.bind (hP.getClass _) fun existing => ?_
  on_goal 2 => refine hP.bind (hP.pure none) fun existing => ?_
  all_goals
    split
    · exact hP.pure _
    · refine hP.bind (hP.compile d parent) fun result => ?_
      split
      · exact hP.pure _
      · refine hP.bind (hP.update n fun _ => ?_) fun _ => hP.pure _
        split <;> exact ⟨rfl, rfl, rfl, rfl⟩

lemma classConstructor (c : ClassId) : P (Environment.classConstructor n c) := by
  refine hP.bind hP.get fun w => ?_
  split
  · exact hP.allocated? fun h => h.moves_templateFunction _
  · exact hP.pure none

lemma newInstanceWithConstructor (c : ClassId) (args : List Tagged) :
    P (Environment.newInstanceWithConstructor host n c args) := by
  refine hP.bind hP.get fun w => ?_
  split
  · refine hP.bind (hP.onHeap fun h => h.moves_templateFunction _) fun function => ?_
    split
    · exact hP.constructWith _ args
    · exact hP.pure none
  · exact hP.pure none

end Classes

section References

lemma setField (i : Heap.FieldIndex) (object : Handle) (word : Pointer) :
    P (Environment.setField n i object word) :=
  hP.resolving object (hP.pure false) fun r => hP.onHeap fun _ => .of_move (.assign r i word)

end References

section Buffers

lemma newTypedArray (kind : ElementKind) (count : Nat) :
    P (Environment.newTypedArray n kind count) := by
  unfold Environment.newTypedArray
  split
  · exact hP.pure none
  · split
    · exact hP.bind (hP.onHeap fun h => h.moves_newArrayBuffer _) fun _ =>
        hP.allocated? fun _ => .of_move (.typedArray _ _ _ _)
    · exact hP.pure none

lemma newTypedArrayOnBuffer (kind : ElementKind) (buffer : Handle) (offset count : Nat) :
    P (Environment.newTypedArrayOnBuffer n kind buffer offset count) := by
  refine hP.resolving buffer (hP.pure none) fun r => ?_
  dsimp only
  split
  · exact hP.allocated? fun _ => .of_move (.typedArray _ _ _ _)
  · exact hP.pure none

lemma newDataView (buffer : Handle) (offset length : Nat) :
    P (Environment.newDataView n buffer offset length) :=
  hP.resolving buffer (hP.pure none) fun _ => hP.allocated? fun _ => .of_move (.dataView _ _ _)

lemma newArrayBuffer (length : Nat) : P (Environment.newArrayBuffer n length) := by
  unfold Environment.newArrayBuffer
  split
  · exact hP.pure none
  · exact hP.returning (hP.allocated fun h => h.moves_newArrayBuffer _) _

lemma newExternalArrayBuffer (memory : Option (Array UInt8)) (release : Option ReleaseHook)
    (address : Pointer) :
    P (Environment.newExternalArrayBuffer n memory release address) := by
  unfold Environment.newExternalArrayBuffer
  split
  · have hmade : ∀ bytes, P (Environment.onHeap n (·.newExternalBuffer ⟨address, bytes⟩ release) :
        Act σ ObjectRef) := fun bytes => hP.onEngine fun e => hP.newExternalBuffer e _ release
    exact hP.returning (hP.returning (hmade _) _) _
  · exact hP.pure none

lemma writeContents (object : Handle) (offset : Nat) (bytes : List UInt8) :
    P (Environment.writeContents n object offset bytes) :=
  hP.resolving object (hP.pure false) fun r =>
    hP.onHeap fun _ => .of_move (.write r offset bytes)

end Buffers

section Promises

lemma createResolver : P (Environment.createResolver n) :=
  hP.returning (hP.onEngine fun e => hP.newResolver e) _

lemma resolverPromise (resolver : Handle) : P (Environment.resolverPromise n resolver) :=
  hP.resolving resolver (hP.pure none) fun r => hP.allocated? fun h => h.moves_resolverPromise r

lemma handleWith (promise handler : Handle)
    (f : Heap → ObjectRef → ObjectRef → Option ObjectRef × Heap)
    (hf : ∀ e p r, P (Act.onHeap e (f · p r))) :
    P (Environment.handleWith n promise handler f) := by
  refine hP.bind (hP.resolve promise) fun p => hP.bind (hP.resolve handler) fun r => ?_
  split
  · exact hP.returning (hP.onEngine fun e => hf e _ _) _
  · exact hP.pure false

lemma promiseThen (promise handler : Handle) : P (Environment.promiseThen n promise handler) :=
  hP.handleWith promise handler _ fun e p f => hP.thenPromise e p (some f) none

lemma promiseCatch (promise handler : Handle) : P (Environment.promiseCatch n promise handler) :=
  hP.handleWith promise handler _ fun e p f => hP.thenPromise e p none (some f)

lemma promiseResult (promise : Handle) (flags : Flags) :
    P (Environment.promiseResult n promise flags) := by
  refine hP.bind (hP.inspect promise _) fun value => ?_
  split
  · exact hP.returning hP.heapOf _
  · exact hP.pure none

end Promises

lemma perform_of_stores (hset : Act.Setting host P) (op : Environment.Operation.Known)
    (hop : op.stores = true) : P (Environment.perform host n op) := by
  cases op with
  | registerCallback owner domain flags f =>
    exact hP.returning (hP.registerCallback hset owner domain flags f) _
  | setGlobal key value => exact hP.returning (hP.setGlobal hset key value) _
  | setProperty o key value => exact hP.returning (hP.setProperty hset o key value) _
  | setPropertyValue o name value => exact hP.returning (hP.setProperty hset o _ value) _
  | propertyNames o => exact hP.returning (hP.propertyNames hset o) _
  | setIndex o index value => exact hP.returning (hP.setIndex hset o index value) _
  | newArrayWithValues args => exact hP.returning (hP.newArrayWithValues hset args) _
  | _ => exact absurd hop (by simp [Environment.Operation.stores])

lemma perform (op : Environment.Operation.Known)
    (hop : op.plain = false → P (Environment.perform host n op))
    (hstores : op.stores = true → P (Environment.perform host n op)) :
    P (Environment.perform host n op) := by
  have hinspect : ∀ {α β γ : Type} (o : Handle) (f : Heap → ObjectRef → Option α)
      (g : Option α → β) (answer : β → γ),
      P (do return answer (← (do return g (← Environment.inspect n o f) : Act σ β)) : Act σ γ) :=
    fun o f g answer => hP.returning (hP.returning (hP.inspect o f) g) answer
  cases op with
  | info => exact hP.returning (hP.returning (hP.environment n) _) _
  | addReference => exact hP.bind (hP.addReference n) fun _ => hP.pure _
  | releaseReference => exact hP.bind (hP.releaseReference n) fun _ => hP.pure _
  | command code => exact hP.onEngine fun e => hP.returning (hP.command (hP.collectGarbage e) code) _
  | hasException | exception => exact hP.returning (hP.environment n) _
  | takeException =>
    exact hP.returning (hP.bind (hP.environment n) fun _ =>
      hP.bind (hP.setException n {}) fun _ => hP.pure _) _
  | clearException => exact hP.bind (hP.setException n {}) fun _ => hP.pure _
  | setException kind message => exact hP.bind (hP.setException n _) fun _ => hP.pure _
  | executeScript code file line flags => exact hP.returning (hP.executeScript code file line flags) _
  | newFunction flags f => exact hP.returning (hP.newFunction flags f) _
  | createClass parent definition =>
    refine hP.bind (hP.createClass definition parent) fun result => ?_
    split <;> exact hP.pure _
  | getClass name => exact hP.returning (hP.getClass name) _
  | newInstance c => exact hP.returning (hP.newInstance c) _
  | newInstanceWithConstructor c args =>
    exact hP.returning (hP.newInstanceWithConstructor c args) _
  | classConstructor c => exact hP.returning (hP.classConstructor c) _
  | objectType o | typedArrayType o | field _ o | length o | typedArrayCount o
  | typedArrayBuffer o | dataViewLength o | dataViewBuffer o | arrayBufferLength o =>
    exact hinspect o _ _ _
  | newReference o => exact hP.returning (hP.newReference n o) _
  | setField i o word => exact hP.returning (hP.setField i o word) _
  | globalObject => exact hP.returning (hP.returning hP.globalOf _) _
  | getGlobal key flags => exact hP.returning (hP.getGlobal key flags) _
  | getProperty o key flags => exact hP.returning (hP.getProperty o key flags) _
  | getIndex o index flags => exact hP.returning (hP.getIndex o index flags) _
  | call this args f flags => exact hP.returning (hP.callFunction f this args flags) _
  | construct args f => exact hP.returning (hP.callAsConstructor f args) _
  | newObject => exact hP.returning (hP.allocated fun h => h.moves_newObject) _
  | newArray length => exact hP.returning (hP.allocated fun h => h.moves_newArray length) _
  | newTypedArray kind count => exact hP.returning (hP.newTypedArray kind count) _
  | newTypedArrayOnBuffer kind buffer offset count =>
    exact hP.returning (hP.newTypedArrayOnBuffer kind buffer offset count) _
  | typedArrayPointer o | readBuffer o => exact hP.returning (hP.inspect o _) _
  | newDataView buffer offset length => exact hP.returning (hP.newDataView buffer offset length) _
  | newArrayBuffer length => exact hP.returning (hP.newArrayBuffer length) _
  | newExternalArrayBuffer memory release address =>
    exact hP.returning (hP.newExternalArrayBuffer memory release address) _
  | writeBuffer o offset bytes => exact hP.returning (hP.writeContents o offset bytes) _
  | createResolver => exact hP.returning hP.createResolver _
  | resolverPromise o => exact hP.returning (hP.resolverPromise o) _
  | resolve o value => exact hP.returning (hP.resolvePromise o value) _
  | reject o value => exact hP.returning (hP.rejectPromise o value) _
  | promiseThen p f => exact hP.returning (hP.promiseThen p f) _
  | promiseCatch p f => exact hP.returning (hP.promiseCatch p f) _
  | promiseHandled p => exact hinspect p _ _ _
  | promiseState p => exact hP.returning (hP.inspect p _) _
  | promiseResult p flags => exact hP.returning (hP.promiseResult p flags) _
  | runMicrotasks => exact hP.onEngine fun e => hP.bind (hP.runMicrotasks e) fun _ => hP.pure _
  | pushScope | popScope | newWeakReference | makeWeak | deleteReference => exact hop rfl
  | registerCallback | setGlobal | setProperty | setPropertyValue | propertyNames | setIndex
  | newArrayWithValues => exact hstores rfl

end Act.Closed

end HostBoundary
