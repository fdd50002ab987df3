import HostBoundary.Proofs.Operations

namespace HostBoundary

variable {σ : Type} {host : Host σ} {env : Option ForeignEnvironment} {n : EnvironmentId}

namespace Foreign

open Environment (Operation.Known)

-- An operation that every surface offers, and one that takes the full surface and operands that
-- have to be read first.
def anyway (env : Option ForeignEnvironment) (op : Operation.Known) :
    Option (EnvironmentId × Operation.Known) :=
  (anyEnvironment env).map (·, op)

def fully (env : Option ForeignEnvironment) (op : Option Operation.Known) :
    Option (EnvironmentId × Operation.Known) :=
  (fullEnvironment env).bind fun n => op.map (n, ·)

-- The operation that an entry point comes to, if everything that it takes can be read.
def Call.operation? (env : Option ForeignEnvironment) :
    Call.Known → Option (EnvironmentId × Operation.Known)
  | .getVersion => none
  | .dispatchCommand command => anyway env (.command command)
  | .hasException => anyway env .hasException
  | .getException _ _ => anyway env .exception
  | .setException kind message => anyway env (.setException
      ((ExceptionKind.ofCode? kind).getD .nativeRuntime) (message.text?.getD ""))
  | .clearException => anyway env .clearException
  | .registerCallback owner domain f flags => do
    let x ← env
    let domain ← domain.text?
    return (x.environment, .registerCallback (Handle.ofRaw? owner) domain flags
      ⟨← f, some x.surface⟩)
  | .executeScript code _ file line flags => do
    let x ← env
    return (x.environment, .executeScript (← readValue code) file.text? line
      (if x.surface = .first then 0 else flags))
  | .newFunction f flags => fully env do return .newFunction flags ⟨← f, some .full⟩
  | .createClass definition parent =>
    fully env do return .createClass parent (← definition).toDefinition
  | .getClass name => fully env do return .getClass (← name.text?)
  | .newInstance c => fully env do return .newInstance (← c)
  | .newInstanceWithConstructor c args =>
    fully env do return .newInstanceWithConstructor (← c) (← readValues args)
  | .classConstructor c => fully env do return .classConstructor (← c)
  | .objectType o => fully env do return .objectType (← Handle.ofRaw? o)
  | .typedArrayType o => fully env do return .typedArrayType (← Handle.ofRaw? o)
  | .newReference o => fully env do return .newReference (← Handle.ofRaw? o)
  | .newWeakReference o hook => fully env do return .newWeakReference (← Handle.ofRaw? o) hook
  | .deleteReference o => fully env do return .deleteReference (← Handle.ofRaw? o)
  | .field i o => fully env do return .field i (← Handle.ofRaw? o)
  | .setField i o word => fully env do return .setField i (← Handle.ofRaw? o) word
  | .globalObject => fully env (some .globalObject)
  | .setGlobal key value => fully env do return .setGlobal (← readValue key) (← readValue value)
  | .getGlobal key _ flags => fully env do return .getGlobal (← readValue key) flags
  | .getProperty o key _ flags =>
    fully env do return .getProperty (← Handle.ofRaw? o) (← readValue key) flags
  | .setProperty o key value =>
    fully env do return .setProperty (← Handle.ofRaw? o) (← readValue key) (← readValue value)
  | .propertyNames o => fully env do return .propertyNames (← Handle.ofRaw? o)
  | .objectLength o => fully env do return .length (← Handle.ofRaw? o)
  | .getIndex o index _ flags => fully env do return .getIndex (← Handle.ofRaw? o) index flags
  | .setIndex o index value =>
    fully env do return .setIndex (← Handle.ofRaw? o) index (← readValue value)
  | .callFunction f this args _ flags => fully env do
    let f ← Handle.ofRaw? f
    return .call (Handle.ofRaw? this) (← readValues args) f flags
  | .callAsConstructor f args => fully env do
    let f ← Handle.ofRaw? f
    return .construct (← readValues args) f
  | .newObject => fully env (some .newObject)
  | .newArray size => fully env (some (.newArray size))
  | .newArrayWithValues args => fully env do return .newArrayWithValues (← readValues args)
  | .newTypedArray kind count =>
    fully env do return .newTypedArray (← ElementKind.ofCode? kind) count
  | .newTypedArrayOnBuffer kind buffer offset count => fully env do
    let buffer ← Handle.ofRaw? buffer
    return .newTypedArrayOnBuffer (← ElementKind.ofCode? kind) buffer offset count
  | .typedArrayCount o => fully env do return .typedArrayCount (← Handle.ofRaw? o)
  | .typedArrayPointer o offset =>
    fully env do return .typedArrayPointer (← Handle.ofRaw? o) offset
  | .typedArrayBuffer o => fully env do return .typedArrayBuffer (← Handle.ofRaw? o)
  | .newDataView buffer offset size =>
    fully env do return .newDataView (← Handle.ofRaw? buffer) offset size
  | .dataViewLength o => fully env do return .dataViewLength (← Handle.ofRaw? o)
  | .newArrayBuffer size => fully env (some (.newArrayBuffer size))
  | .newExternalArrayBuffer memory release address =>
    fully env (some (.newExternalArrayBuffer memory release address))
  | .arrayBufferLength o => fully env do return .arrayBufferLength (← Handle.ofRaw? o)
  | .arrayBufferPointer o => fully env do return .readBuffer (← Handle.ofRaw? o)
  | .createResolver => fully env (some .createResolver)
  | .resolverPromise o => fully env do return .resolverPromise (← Handle.ofRaw? o)
  | .resolve o value => fully env do return .resolve (← Handle.ofRaw? o) (← readValue value)
  | .reject o value => fully env do return .reject (← Handle.ofRaw? o) (← readValue value)
  | .promiseThen p f => fully env do return .promiseThen (← Handle.ofRaw? p) (← Handle.ofRaw? f)
  | .promiseCatch p f => fully env do return .promiseCatch (← Handle.ofRaw? p) (← Handle.ofRaw? f)
  | .promiseHandled p => fully env do return .promiseHandled (← Handle.ofRaw? p)
  | .promiseState p => fully env do return .promiseState (← Handle.ofRaw? p)
  | .promiseResult p _ flags => fully env do return .promiseResult (← Handle.ofRaw? p) flags
  | .pushScope => fully env (some .pushScope)
  | .popScope => fully env (some .popScope)

def refuse (n : EnvironmentId) : Environment.Answer → Act σ Unit
  | .classError e => Act.setException n (.native e.message)
  | _ => pure ()

def carry (host : Host σ) : Option (EnvironmentId × Operation.Known) → Act σ Unit
  | none => pure ()
  | some (n, op) => Environment.perform host n op >>= refuse n

lemma discard_bind {α : Type} (act : Act σ α) (f : α → Act σ Answer) (g : α → Act σ Environment.Answer)
    (hg : ∀ x, discard (f x) = g x >>= refuse n) :
    discard (act >>= f) = (act >>= g) >>= refuse n := by
  funext w
  exact congrFun (hg (act w).1) (act w).2

lemma discard_withFull (failure : Answer) (f : EnvironmentId → Act σ Answer)
    (op : Option Operation.Known) (hf : ∀ n, discard (f n) = carry host (op.map (n, ·))) :
    discard (withFull env failure f) = carry host (fully env op) := by
  unfold withFull fully
  cases fullEnvironment env with
  | none => rfl
  | some n => exact hf n

lemma discard_withObject (object : UInt64) (failure : Answer)
    (f : EnvironmentId → Handle → Act σ Answer) (op : Handle → Option Operation.Known)
    (hf : ∀ n o, discard (f n o) = carry host ((op o).map (n, ·))) :
    discard (withObject env object failure f) = carry host (fully env (Handle.ofRaw? object >>= op)) := by
  refine discard_withFull failure _ _ fun n => ?_
  cases Handle.ofRaw? object with
  | none => rfl
  | some o => exact hf n o

lemma discard_perform (env : Option ForeignEnvironment) (call : Call.Known) :
    discard (perform host env call) = carry host (call.operation? env) := by
  cases call with
  | getVersion => rfl
  | dispatchCommand | hasException | getException | setException | clearException =>
    cases env <;> rfl
  | registerCallback owner domain f flags =>
    simp only [perform, Foreign.registerCallback, Call.operation?]
    cases env <;> cases domain.text? <;> cases f <;> rfl
  | executeScript code out file line flags =>
    simp only [perform, Foreign.executeScript, Call.operation?]
    cases env <;> cases readValue code <;> rfl
  | globalObject | newObject | newArray | newArrayBuffer | newExternalArrayBuffer | createResolver
  | pushScope | popScope => exact discard_withFull _ _ _ fun _ => rfl
  | newFunction x | newInstance x | classConstructor x =>
    exact discard_withFull _ _ _ fun _ => by cases x <;> rfl
  | createClass definition parent =>
    refine discard_withFull _ _ _ fun n => ?_
    cases definition with
    | none => rfl
    | some definition =>
      exact discard_bind _ _ _ fun result => by cases result <;> rfl
  | getClass name => exact discard_withFull _ _ _ fun _ => by cases name.text? <;> rfl
  | newInstanceWithConstructor c args =>
    exact discard_withFull _ _ _ fun _ => by cases c <;> cases readValues args <;> rfl
  | setGlobal key value =>
    exact discard_withFull _ _ _ fun _ => by cases readValue key <;> cases readValue value <;> rfl
  | getGlobal key => exact discard_withFull _ _ _ fun _ => by cases readValue key <;> rfl
  | newArrayWithValues args =>
    exact discard_withFull _ _ _ fun _ => by cases readValues args <;> rfl
  | newTypedArray kind =>
    exact discard_withFull _ _ _ fun _ => by cases ElementKind.ofCode? kind <;> rfl
  | getProperty o x | setIndex o _ x | resolve o x | reject o x =>
    exact discard_withObject _ _ _ _ fun _ _ => by cases readValue x <;> rfl
  | setProperty o key value =>
    exact discard_withObject _ _ _ _ fun _ _ => by
      cases readValue key <;> cases readValue value <;> rfl
  | callFunction _ _ args | callAsConstructor _ args =>
    exact discard_withObject _ _ _ _ fun _ _ => by cases readValues args <;> rfl
  | newTypedArrayOnBuffer kind =>
    exact discard_withObject _ _ _ _ fun _ _ => by cases ElementKind.ofCode? kind <;> rfl
  | promiseThen _ f | promiseCatch _ f =>
    exact discard_withObject _ _ _ _ fun _ _ => by cases Handle.ofRaw? f <;> rfl
  | arrayBufferPointer o =>
    refine discard_withObject _ _ _ _ fun n o => ?_
    exact discard_bind _ _ _ fun found => by cases found <;> rfl
  | _ => exact discard_withObject _ _ _ _ fun _ _ => rfl

lemma Call.environment_of_operation? {call : Call.Known} {op : Operation.Known}
    (hop : call.operation? env = some (n, op)) : ∃ x, env = some x ∧ x.environment = n := by
  cases env with
  | none => cases call <;> cases hop
  | some x =>
    have hfully : ∀ {op'}, fully (some x) op' = some (n, op) → x.environment = n := by
      intro op' hop
      obtain ⟨m, hm, hpair⟩ := Option.bind_eq_some_iff.mp hop
      obtain ⟨_, -, hpair⟩ := Option.map_eq_some_iff.mp hpair
      obtain ⟨-, hfull⟩ := Option.ite_none_right_eq_some.mp hm
      exact (Option.some.inj hfull).trans (Prod.mk.inj hpair).1
    refine ⟨x, rfl, ?_⟩
    cases call with
    | getVersion => cases hop
    | dispatchCommand | hasException | getException | setException | clearException =>
      exact (Prod.mk.inj (Option.some.inj hop)).1
    | registerCallback owner domain f flags =>
      obtain ⟨_, -, hop⟩ := Option.bind_eq_some_iff.mp hop
      obtain ⟨_, -, hop⟩ := Option.bind_eq_some_iff.mp hop
      exact (Prod.mk.inj (Option.some.inj hop)).1
    | executeScript code out file line flags =>
      obtain ⟨_, -, hop⟩ := Option.bind_eq_some_iff.mp hop
      exact (Prod.mk.inj (Option.some.inj hop)).1
    | _ => exact hfully hop

end Foreign

namespace Act.Ground

variable {P : ∀ {α : Type}, Act σ α → Prop} (hP : Act.Ground host P)

include hP

lemma refuse (n : EnvironmentId) (answer : Environment.Answer) : P (Foreign.refuse n answer) := by
  cases answer with
  | classError e => exact hP.setException n _
  | _ => exact hP.pure ()

-- What holds of every operation holds of every entry point.
lemma foreign (env : Option ForeignEnvironment) (call : Foreign.Call.Known)
    (hop : ∀ n op, call.operation? env = some (n, op) → P (Environment.perform host n op)) :
    P (discard (Foreign.perform host env call)) := by
  rw [Foreign.discard_perform]
  cases ho : call.operation? env with
  | none => exact hP.pure ()
  | some pair => exact hP.bind (hop _ _ ho) fun answer => hP.refuse _ answer

end Act.Ground

end HostBoundary
