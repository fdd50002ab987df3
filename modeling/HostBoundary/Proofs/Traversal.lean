import HostBoundary.Proofs.Evolution

namespace HostBoundary

variable {σ α β : Type} {host : Host σ} {P : ∀ {α : Type}, Act σ α → Prop} {act : Act σ α}

namespace Environment

variable {n : EnvironmentId}

def receiver (n : EnvironmentId) : Option Handle → Act σ (Option ObjectRef)
  | some handle => resolve n handle
  | none => some <$> globalOf n

lemma callFunction_receiver (host : Host σ) (function : Handle) (this : Option Handle)
    (args : List Tagged) (flags : Flags) :
    callFunction host n function this args flags = (do
      let some f ← resolve n function | return none
      let some receiver ← receiver n this | return none
      let some values ← toValues n args | return none
      Engine.call host (← engineOf n) f (.object receiver) values >>= deliver n flags) := by
  cases this <;> rfl

def putFunction (host : Host σ) (n : EnvironmentId) (target : ObjectRef) (name : String)
    (entry : FunctionEntry) : Act σ Bool := do
  let data ← modifyGet fun w =>
    let (data, tables) := (w.environment n).tables.registerDomain entry
    (data, w.modifyEnvironment n ({ · with tables }))
  let function ← onHeap n (·.newFunction data (some name))
  succeeded n
    (← Engine.setProperty host (← engineOf n) target (.text name) (.object function))

def registerBelow (host : Host σ) (n : EnvironmentId) (owner : Option Handle)
    (segments : List String) (flags : Flags) (f : NativeFunction) (root : ObjectRef) :
    Act σ Bool := do
  let owner ← match owner with
    | some handle => onHeap n (ownerHandle · handle)
    | none => pure none
  let some target ← descend host n root segments.dropLast | return false
  putFunction host n target (segments.getLast?.getD "") ⟨f, flags, owner⟩

def holder (n : EnvironmentId) : Option Handle → Act σ (Option Handle)
  | some handle => onHeap n (ownerHandle · handle)
  | none => pure none

lemma registerBelow_eq (host : Host σ) (owner : Option Handle) (segments : List String)
    (flags : Flags) (f : NativeFunction) (root : ObjectRef) :
    registerBelow host n owner segments flags f root = (do
      let held ← holder n owner
      let some target ← descend host n root segments.dropLast | return false
      putFunction host n target (segments.getLast?.getD "") ⟨f, flags, held⟩) := by
  cases owner <;> rfl

lemma registerCallback_eq (host : Host σ) (owner : Option Handle) (domain : String)
    (flags : Flags) (f : NativeFunction) :
    registerCallback host n owner domain flags f = (do
      let some segments := segments? domain | return false
      let some root ← receiver n owner | return false
      registerBelow host n owner segments flags f root) := by
  unfold registerCallback
  cases segments? domain with
  | none => rfl
  | some segments => cases owner <;> rfl

end Environment

-- What is left of an environment that changed in minor ways only.
structure Environment.Kept (env env' : Environment) : Prop where
  engine : env'.engine = env.engine
  tables : env'.tables = env.tables
  scopeDepth : env'.scopeDepth = env.scopeDepth
  running : env'.running = env.running

-- The same of an engine.
structure Engine.Kept (engine engine' : Engine) : Prop where
  heap : engine'.heap = engine.heap
  dispatcher : engine'.dispatcher = engine.dispatcher
  dropped : engine'.dropped = engine.dropped

-- A property of acts that everything has that is put together from looking around and from minor
-- changes to environments and engines.
structure Act.Minor (P : ∀ {α : Type}, Act σ α → Prop) : Prop where
  pure : ∀ {α : Type} (x : α), P (Pure.pure x : Act σ α)
  bind : ∀ {α β : Type} {act : Act σ α} {next : α → Act σ β},
    P act → (∀ x, P (next x)) → P (act >>= next)
  read : ∀ {α : Type} (f : World σ → α), P (fun w => (f w, w) : Act σ α)
  update : ∀ n {f : Environment → Environment}, (∀ env, Environment.Kept env (f env)) →
    P (Act.updateEnvironment n f)
  detach : ∀ e {f : Engine → Engine}, (∀ engine, Engine.Kept engine (f engine)) →
    P (Act.updateEngine e f)

-- The same with moves on a heap and with dropping engines that nobody holds.
structure Act.Ground (host : Host σ) (P : ∀ {α : Type}, Act σ α → Prop) : Prop
    extends Act.Minor P where
  moves : ∀ {α : Type} (e : EngineId) {f : Heap → α × Heap},
    (∀ h : Heap, h.Moves (f h).2) → P (Act.onHeap e f : Act σ α)
  reap : ∀ e, P (Environment.reap host e)

-- The same where engines may collect.
structure Act.Frame (host : Host σ) (P : ∀ {α : Type}, Act σ α → Prop) : Prop
    extends Act.Ground host P where
  collectGarbage : ∀ e, P (Engine.collectGarbage host e)

namespace Act.Minor

variable (hP : Act.Minor P)

include hP

lemma returning (h : P act) (f : α → β) : P (act >>= fun x => Pure.pure (f x)) :=
  hP.bind h fun _ => hP.pure _

lemma map (h : P act) (f : α → β) : P (f <$> act) := by
  rw [← bind_pure_comp]
  exact hP.returning h f

lemma get : P (MonadState.get : Act σ (World σ)) := hP.read id

lemma heap (e : EngineId) : P (Act.heap e) := hP.read fun w => (w.engine e).heap

lemma environment (n : EnvironmentId) : P (Act.environment n) := hP.read (·.environment n)

lemma setException (n : EnvironmentId) (exception : Exception) : P (Act.setException n exception) :=
  hP.update n fun _ => ⟨rfl, rfl, rfl, rfl⟩

lemma forM (items : List α) {act : α → Act σ Unit} (h : ∀ x, P (act x)) : P (items.forM act) := by
  induction items with
  | nil => exact hP.pure ()
  | cons x rest ih => exact hP.bind (h x) fun _ => ih

section Lifetime

variable (n : EnvironmentId)

lemma addReference : P (Environment.addReference n) := hP.update n fun _ => ⟨rfl, rfl, rfl, rfl⟩

lemma acquire : P (Environment.acquire n) := hP.update n fun _ => ⟨rfl, rfl, rfl, rfl⟩

lemma destroy : P (Environment.destroy n) := by
  refine hP.bind (hP.environment n) fun env => hP.bind ?_ fun _ => hP.detach _ fun engine => ?_
  · exact hP.update n fun _ => ⟨rfl, rfl, rfl, rfl⟩
  · split <;> exact ⟨rfl, rfl, rfl⟩

lemma releaseReference : P (Environment.release n) := by
  refine hP.bind (hP.environment n) fun env => ?_
  split
  · refine hP.bind (hP.update n fun _ => ⟨rfl, rfl, rfl, rfl⟩) fun _ => ?_
    split
    · exact hP.destroy n
    · exact hP.pure ()
  · exact hP.pure ()

lemma drop (hreap : ∀ e, P (Environment.reap host e)) : P (Environment.drop host n) := by
  refine hP.bind (hP.releaseReference n) fun _ => hP.bind ?_ fun _ =>
    hP.bind (hP.environment n) fun env => hreap env.engine
  exact hP.update n fun _ => ⟨rfl, rfl, rfl, rfl⟩

lemma teardown (e : EngineId) : P (Environment.teardown e) := by
  refine hP.bind hP.get fun w => ?_
  split
  · exact hP.pure ()
  · refine hP.bind (hP.environment _) fun env => ?_
    split
    · exact hP.pure ()
    · exact hP.bind (hP.update _ fun _ => ⟨rfl, rfl, rfl, rfl⟩) fun _ => hP.releaseReference _

end Lifetime

section Collection

variable {e : EngineId} (hrelease : ∀ hook memory, P (host.release hook memory))

include hrelease

lemma reap_of (hmark : P (Act.updateEngine e ({ · with dropped := true })))
    (hdrain : P (Act.onHeap e (·.drainReleases))) :
    P (Environment.reap host e) := by
  refine hP.bind hP.get fun w => ?_
  split
  · exact hP.bind hmark fun _ => hP.bind hdrain fun _ =>
      hP.forM _ fun (hook, memory) => hrelease hook memory
  · exact hP.pure ()

lemma collect_of (hreclaim : ∀ hook fields, P (host.reclaim hook fields))
    (hcollect : P (Act.onHeap e (·.collect))) :
    P (Engine.collectGarbage host e) :=
  hP.bind hcollect fun _ => hP.bind (hP.forM _ fun (hook, fields) => hreclaim hook fields) fun _ =>
    hP.forM _ fun (hook, memory) => hrelease hook memory

omit hrelease in
lemma command (hcollect : P (Engine.collectGarbage host e)) (code : Int32) :
    P (Engine.command host e code) := by
  unfold Engine.command
  dsimp only
  split
  · exact hP.bind hcollect fun _ => hP.pure 0
  · exact hP.pure 0

end Collection

end Act.Minor

-- Minor changes, where native routines are given an environment.
structure Act.Calls (host : Host σ) (n : EnvironmentId) (P : ∀ {α : Type}, Act σ α → Prop) : Prop
    extends Act.Minor P where
  reap : ∀ e, P (Environment.reap host e)
  function : ∀ code this args, P (host.function code n this args)
  getter : ∀ code this, P (host.getter code n this)
  setter : ∀ code this value, P (host.setter code n this value)
  foreignFunction : ∀ code surface this args,
    P (host.foreignFunction code ⟨n, surface⟩ this args)
  foreignGetter : ∀ code surface this, P (host.foreignGetter code ⟨n, surface⟩ this)
  foreignSetter : ∀ code surface this value,
    P (host.foreignSetter code ⟨n, surface⟩ this value)

structure Act.Visits (host : Host σ) (n : EnvironmentId) (P : ∀ {α : Type}, Act σ α → Prop) : Prop
    extends Act.Ground host P, Act.Calls host n P

lemma Environment.attachFinalizer_eq (target : ObjectRef) (finalizer : ReclaimHook) (h : Heap) :
    attachFinalizer target finalizer h = (h.hold target (some finalizer)).2 := by
  unfold attachFinalizer Heap.hold
  rcases h.persist target with ⟨_ | slot, h'⟩ <;> rfl

lemma Environment.quietly_attachFinalizer (target : ObjectRef) (finalizer : ReclaimHook)
    (h : Heap) : h.Quietly (attachFinalizer target finalizer h) := by
  rw [attachFinalizer_eq]
  exact h.quietly_hold target (some finalizer)

namespace Act.Calls

variable {n : EnvironmentId} (hP : Act.Calls host n P)

include hP

lemma bracket (surface : Surface) {routine : ForeignEnvironment → Act σ (Bool × WireValue)}
    (hr : P (routine ⟨n, surface⟩)) : P (Foreign.bracket host n surface routine) := by
  have hdrop : ∀ answer : Option Tagged, P (Environment.drop host n >>= fun _ => Pure.pure answer) :=
    fun answer => hP.bind (hP.drop n hP.reap) fun _ => hP.pure answer
  refine hP.bind (hP.acquire n) fun _ => hP.bind hr fun result => ?_
  dsimp only
  split
  · exact hdrop none
  · split
    · exact hdrop _
    · exact hP.bind (hP.setException n _) fun _ => hdrop none

variable (f : NativeFunction)

lemma callBy (this : Option Handle) (args : List Tagged) : P (f.call host n this args) := by
  unfold NativeFunction.call
  split
  · exact hP.function _ _ _
  · exact hP.bracket _ (hP.foreignFunction _ _ _ _)

lemma getBy (this : Handle) : P (f.get host n this) := by
  unfold NativeFunction.get
  split
  · exact hP.getter _ _
  · exact hP.bracket _ (hP.foreignGetter _ _ _)

lemma setBy (this : Handle) (value : Tagged) : P (f.set host n this value) := by
  unfold NativeFunction.set
  split
  · exact hP.setter _ _ _
  · exact hP.bind (hP.acquire n) fun _ => hP.bind (hP.foreignSetter _ _ _ _) fun _ =>
      hP.bind (hP.drop n hP.reap) fun _ => hP.pure _

end Act.Calls

namespace Act.Visits

variable {n : EnvironmentId} (hP : Act.Visits host n P)

include hP

lemma throwPending : P (Environment.throwPending n) :=
  hP.bind (hP.environment n) fun _ => hP.bind (hP.setException n {}) fun _ =>
    hP.moves _ fun h => h.moves_newError _ _

lemma throwNative (exception : Exception) :
    P (do
      Act.setException n exception
      return .error (← Environment.throwPending n) : Act σ Completion) :=
  hP.bind (hP.setException n _) fun _ => hP.returning hP.throwPending _

lemma complete (result : Option Tagged) : P (Environment.complete n result) := by
  refine hP.bind (hP.environment n) fun env => ?_
  split
  · exact hP.returning hP.throwPending _
  · split
    · exact hP.pure _
    · refine hP.bind (hP.moves _ fun h => h.moves_ofTagged _) fun converted => ?_
      split
      · exact hP.pure _
      · exact hP.throwNative _

lemma invoke (f : NativeFunction) (flags : Flags) (this : Option Handle) (args : List Value) :
    P (Environment.invoke host n f flags this args) := by
  refine hP.bind (hP.environment n) fun env => hP.bind (hP.heap _) fun h => ?_
  split
  · exact hP.bind (hP.callBy f this _) fun _ => hP.complete _
  · exact hP.throwNative _

lemma assign (name : String) (setter : NativeFunction) (flags : Flags) (this : Option Handle)
    (value : Value) : P (Environment.assign host n name setter flags this value) := by
  refine hP.bind (hP.environment n) fun env => hP.bind (hP.heap _) fun h => ?_
  split
  · exact hP.throwNative _
  · dsimp only
    -- Both ways of asking the setter go on in the same way.
    split
    on_goal 1 => refine hP.bind (hP.setBy setter _ _) fun accepted => ?_
    on_goal 2 => refine hP.bind (hP.pure false) fun accepted => ?_
    all_goals
      refine hP.bind (hP.environment n) fun env => ?_
      split
      · exact hP.bind (hP.setException n _) fun _ => hP.complete none
      · exact hP.complete none

-- A constructor may have to attach its finalizer, which is a change to the heap of its own kind.
lemma invokeMember (member : MemberEntry) (i : Invocation)
    (hattach : ∀ function flags finalizer, member = .construct function flags (some finalizer) →
      i.kind = .construct → ∀ e target,
        P (Act.updateHeap e (Environment.attachFinalizer target finalizer))) :
    P (Environment.invokeMember host n member i) := by
  unfold Environment.invokeMember
  dsimp only
  split
  · rename_i hkind
    refine hP.bind (hP.invoke _ _ _ _) fun completion => ?_
    split
    · exact hP.pure _
    · split
      · exact hP.bind (hP.environment n) fun env =>
          hP.bind (hattach _ _ _ rfl hkind _ _) fun _ => hP.pure _
      · exact hP.pure _
  · exact hP.invoke _ _ _ _
  · exact hP.invoke _ _ _ _
  · split
    · exact hP.bind (hP.getBy _ _) fun _ => hP.complete _
    · exact hP.complete none
  · exact hP.assign _ _ _ _ _
  · exact hP.pure _

lemma dispatch (data : CallbackData) (i : Invocation)
    (hattach : i.kind = .construct → ∀ e target finalizer,
      P (Act.updateHeap e (Environment.attachFinalizer target finalizer))) :
    P (Environment.dispatch host n data i) := by
  refine hP.bind (hP.environment n) fun env => ?_
  split
  · exact hP.returning (hP.moves _ fun h => h.moves_newError _ _) _
  · exact hP.invoke _ _ _ _
  · exact hP.invoke _ _ _ _
  · exact hP.invokeMember _ i fun _ _ finalizer _ hkind e target => hattach hkind e target finalizer

end Act.Visits

namespace Act.Ground

variable (hP : Act.Ground host P)

include hP

lemma raise (e : EngineId) (name : ErrorName) (message : String) :
    P (Engine.raise e name message : Act σ (Except Throw α)) :=
  hP.moves e fun h => h.moves_newError name message

lemma outcome (e : EngineId) (completion : Completion) : P (Engine.outcome e completion) := by
  cases completion with
  | ok value => exact hP.pure _
  | error thrown => exact hP.returning (hP.heap e) _

lemma functionBody (e : EngineId) (f : ObjectRef) : P (Engine.functionBody e f) := by
  refine hP.bind (hP.heap e) fun h => ?_
  split
  · exact hP.pure _
  · exact hP.raise e _ _
  · exact hP.raise e _ _

lemma constructTarget (e : EngineId) (f : ObjectRef) : P (Engine.constructTarget e f) := by
  refine hP.bind (hP.functionBody e f) fun body => ?_
  split
  · exact hP.pure _
  · exact hP.returning (hP.moves e fun h => h.moves_newObject) _
  · refine hP.bind (hP.heap e) fun h => ?_
    split
    · exact hP.raise e _ _
    · refine hP.bind (hP.moves e fun h => h.moves_newInstance _) fun target => ?_
      split
      · exact hP.pure _
      · exact hP.raise e _ _

lemma call (hdispatch : ∀ e data i, i.kind ≠ .construct → P (Engine.dispatch host e data i))
    (e : EngineId) (f : ObjectRef) (this : Value) (args : List Value) :
    P (Engine.call host e f this args) := by
  refine hP.bind (hP.functionBody e f) fun body => ?_
  split
  · exact hP.pure _
  · refine hP.bind (hP.heap e) fun h => ?_
    dsimp only
    split
    · exact hP.raise e _ _
    · exact hP.bind (hdispatch e _ _ (by simp)) fun completion => hP.outcome e completion

lemma construct (hdispatch : ∀ e data i, P (Engine.dispatch host e data i)) (e : EngineId)
    (f : ObjectRef) (args : List Value) : P (Engine.construct host e f args) := by
  refine hP.bind (hP.constructTarget e f) fun target => ?_
  split
  · exact hP.pure _
  · exact hP.bind (hdispatch e _ _) fun completion => hP.returning (hP.outcome e completion) _

end Act.Ground

-- A frame where engines call native code. To construct an object is a matter of its own, since a
-- finalizer may be attached.
structure Act.Basis (host : Host σ) (P : ∀ {α : Type}, Act σ α → Prop) : Prop
    extends Act.Frame host P where
  dispatch : ∀ e data i, i.kind ≠ .construct → P (Engine.dispatch host e data i)
  construct : ∀ e f args, P (Engine.construct host e f args)

-- Setting properties has the property of acts, and so has storing them, which may come of it.
def Act.Setting (host : Host σ) (P : ∀ {α : Type}, Act σ α → Prop) : Prop :=
  ∀ e r key value, P (Engine.setProperty host e r key value)

def Act.Storing (P : ∀ {α : Type}, Act σ α → Prop) : Prop :=
  ∀ (e : EngineId) {f : Heap → Bool × Heap}, (∀ h : Heap, h.Stores (f h).2) →
    P (Act.onHeap e f : Act σ Bool)

namespace Act.Basis

variable (hP : Act.Basis host P)

include hP

lemma getProperty (e : EngineId) (r : ObjectRef) (key : Value) :
    P (Engine.getProperty host e r key) := by
  refine hP.bind (hP.heap e) fun h => ?_
  dsimp only
  split
  · exact hP.raise e _ _
  · split
    · exact hP.pure _
    · exact hP.pure _
    · exact hP.bind (hP.dispatch e _ _ (by simp)) fun completion => hP.outcome e completion

lemma setting (hs : Act.Storing P) : Act.Setting host P := by
  intro e r key value
  refine hP.bind (hP.heap e) fun h => ?_
  dsimp only
  split
  · exact hP.raise e _ _
  · split
    · exact hP.pure _
    · refine hP.bind (hs e fun h => ?_) fun stored => ?_
      · split
        · rename_i hstored
          exact .inr ⟨_, _, _, hstored⟩
        · exact .inl rfl
      · split
        · exact hP.pure _
        · exact hP.raise e _ _
    · exact hP.bind (hP.dispatch e _ _ (by simp)) fun completion => hP.returning (hP.outcome e completion) _

lemma call (e : EngineId) (f : ObjectRef) (this : Value) (args : List Value) :
    P (Engine.call host e f this args) :=
  hP.toGround.call hP.dispatch e f this args

end Act.Basis

-- The same where promises and jobs are handled in whatever plain way.
structure Act.Plain (host : Host σ) (P : ∀ {α : Type}, Act σ α → Prop) : Prop
    extends Act.Basis host P where
  works : ∀ {α : Type} (e : EngineId) {f : Heap → α × Heap},
    (∀ h : Heap, h.Works (f h).2) → P (Act.onHeap e f : Act σ α)

namespace Act.Plain

variable (hP : Act.Plain host P)

include hP

lemma runJob (e : EngineId) (job : Job) : P (Engine.runJob host e job) := by
  unfold Engine.runJob
  dsimp only
  split
  · refine hP.bind (hP.call e _ _ _) fun result => ?_
    split
    · exact hP.works e fun h => h.works_fulfil _ _
    · exact hP.works e fun h => h.works_settle _ _ _
  · split
    · exact hP.works e fun h => h.works_fulfil _ _
    · exact hP.works e fun h => h.works_settle _ _ _

lemma takeJob (e : EngineId) : P (Engine.takeJob e) := by
  refine hP.works e fun h => ?_
  split
  · rename_i hj
    exact h.works_nextJob _ _ hj
  · exact .refl h

lemma runJobs (e : EngineId) (budget : Nat) : P (Engine.runJobs host e budget) := by
  induction budget with
  | zero => exact hP.pure ()
  | succ budget ih =>
    refine hP.bind (hP.takeJob e) fun job => ?_
    split
    · exact hP.pure ()
    · exact hP.bind (hP.runJob e _) fun _ => ih

end Act.Plain

end HostBoundary
