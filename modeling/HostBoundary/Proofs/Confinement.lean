import HostBoundary.Proofs.Receivers

namespace HostBoundary

variable {σ : Type} {host : Host σ} {n : EnvironmentId} {w w' : World σ} {host' : Host σ}
  {entry : FunctionEntry}

namespace Foreign

-- What the entry points answer that need the full surface and are not given it.
def Call.failure? : Call.Known → Option Answer
  | .newFunction .. | .newInstance _ | .newInstanceWithConstructor .. | .classConstructor _
  | .newReference _ | .newWeakReference .. | .globalObject | .propertyNames _ | .callAsConstructor ..
  | .newObject | .newArray _ | .newArrayWithValues _ | .newTypedArray .. | .newTypedArrayOnBuffer ..
  | .typedArrayBuffer _ | .newDataView .. | .newArrayBuffer _ | .newExternalArrayBuffer ..
  | .createResolver | .resolverPromise _ => some (.handle 0)
  | .createClass .. | .getClass _ => some (.klass none)
  | .setField .. | .setGlobal .. | .setProperty .. | .setIndex .. | .resolve .. | .reject ..
  | .promiseThen .. | .promiseCatch .. | .promiseHandled _ => some (.boolean false)
  | .getGlobal .. | .getProperty .. | .getIndex .. | .callFunction .. | .promiseResult .. =>
    some (.out false .null)
  | .objectType _ | .objectLength _ | .typedArrayCount _ | .dataViewLength _
  | .arrayBufferLength _ => some (.integer 0)
  | .typedArrayType _ | .promiseState _ => some (.integer (-1))
  | .field .. => some (.pointer 0)
  | .typedArrayPointer .. => some (.offset none)
  | .arrayBufferPointer _ => some (.memory 0 none)
  | .deleteReference _ | .pushScope | .popScope => some .done
  | .getVersion | .dispatchCommand _ | .hasException | .getException .. | .setException ..
  | .clearException | .registerCallback .. | .executeScript .. => none

-- The entry points of the first surface that can change anything.
def Call.affects : Call.Known → Bool
  | .dispatchCommand _ | .setException .. | .clearException | .registerCallback ..
  | .executeScript .. => true
  | _ => false

section Refusal

variable {env : Option ForeignEnvironment} (henv : fullEnvironment env = none)

include henv

lemma withFull_of_none (failure : Answer) (f : EnvironmentId → Act σ Answer) :
    withFull env failure f = pure failure := by
  rw [withFull, henv]

lemma perform_of_failure {call : Call.Known} {answer : Answer}
    (hcall : call.failure? = some answer) : perform host env call = pure answer := by
  cases call with
  | getVersion | dispatchCommand | hasException | getException | setException | clearException
  | registerCallback | executeScript => cases hcall
  | _ =>
    obtain rfl := Option.some.inj hcall
    exact withFull_of_none henv _ _

lemma perform_of_unaffecting {call : Call.Known} (hcall : call.affects = false) (w : World σ) :
    (perform host env call w).2 = w := by
  cases hfail : call.failure? with
  | some answer =>
    rw [perform_of_failure henv hfail]
    rfl
  | none =>
    cases call with
    | getVersion => rfl
    | hasException | getException => cases env <;> rfl
    | dispatchCommand | setException | clearException | registerCallback | executeScript =>
      exact absurd hcall (by simp [Call.affects])
    | _ => exact absurd hfail (by simp [Call.failure?])

end Refusal

end Foreign

namespace CallbackTables

lemma lookup?_domain (t : CallbackTables) {i : Nat} (hi : i < 2 ^ 32) :
    t.lookup? (.encode .domain (UInt32.ofNat i)) = t.domains[i]?.map .domain := by
  simp [lookup?, CallbackData.decode?_encode, UInt32.toNat_ofNat_of_lt' hi]

lemma Extends.domains_size {t t' : CallbackTables} (hext : t.Extends t')
    (hroom : t'.domains.size < 2 ^ 32) : t.domains.size ≤ t'.domains.size := by
  by_contra hless
  have hold := t.lookup?_domain hroom
  rw [Array.getElem?_eq_getElem (by omega), Option.map_some] at hold
  have hnew := hext _ _ hold
  rw [lookup?_domain _ hroom, Array.getElem?_eq_none (Nat.le_refl _)] at hnew
  cases hnew

end CallbackTables

namespace Environment

lemma drop_congr (hrelease : host'.release = host.release) : drop host' n = drop host n := by
  simp only [drop, reap, hrelease]

-- A foreign routine is called with the surface that it was registered with. All that counts is what
-- the host does then.
lemma dispatch_congr {data : CallbackData} {code : Code}
    {surface : Surface} {flags : Flags} {owner : Option Handle}
    (hlookup : (w.environment n).tables.lookup? data =
      some (.domain ⟨⟨code, some surface⟩, flags, owner⟩))
    (hsame : ∀ this args, host'.foreignFunction code ⟨n, surface⟩ this args =
      host.foreignFunction code ⟨n, surface⟩ this args)
    (hrelease : host'.release = host.release) (i : Invocation) :
    dispatch host' n data i w = dispatch host n data i w := by
  rw [dispatch_of_lookup host' w n data i _ hlookup, dispatch_of_lookup host w n data i _ hlookup]
  simp only [run, invoke, NativeFunction.call, Foreign.bracket, hsame, drop_congr hrelease]

-- A registration is made, with whatever happens before and after.
def Registers (n : EnvironmentId) (entry : FunctionEntry) (w w' : World σ) : Prop :=
  ∃ w₁, w.Evolves w₁ ∧ (w₁.modifyEnvironment n ({ · with
    tables := ((w₁.environment n).tables.registerDomain entry).2 })).Evolves w'

variable (hc : host.Conforming)

include hc

lemma putFunction_registers (target : ObjectRef) (name : String) (entry : FunctionEntry)
    (w : World σ) : Registers n entry w (putFunction host n target name entry w).2 := by
  refine ⟨w, .refl w, ?_⟩
  have hput : ∀ data, Act.Evolving (do
      let function ← onHeap n (·.newFunction data (some name))
      succeeded n
        (← Engine.setProperty host (← engineOf n) target (.text name) (.object function)) :
          Act σ Bool) := fun data =>
    ((closed n hc).onHeap fun h => h.moves_newFunction data (some name)).bind fun function =>
      (closed n hc).write (Engine.setting_evolving hc) target (.text name) (.object function)
  exact hput _ _

omit hc in
lemma Registers.of_evolves {w₁ : World σ} (hev : w.Evolves w₁) (hr : Registers n entry w₁ w') :
    Registers n entry w w' := by
  obtain ⟨w₂, hev', hafter⟩ := hr
  exact ⟨w₂, hev.trans hev', hafter⟩

lemma descend_putFunction_registers (segments : List String) (entry : FunctionEntry)
    (root : ObjectRef) (w : World σ) : let done := (do
        let some target ← descend host n root segments.dropLast | return false
        putFunction host n target (segments.getLast?.getD "") entry : Act σ Bool) w
    done.1 = true → Registers n entry w done.2 := by
  have hdescend : w.Evolves _ :=
    (closed n hc).descend (Engine.setting_evolving hc) root segments.dropLast w
  dsimp only
  rw [Engine.bind_apply]
  cases (descend host n root segments.dropLast w).1 with
  | none => exact fun hfalse => absurd hfalse (by simp [pure, StateT.pure])
  | some target => exact fun _ => (putFunction_registers hc target _ _ _).of_evolves hdescend

lemma registerBelow_registers (owner : Option Handle) (segments : List String) (flags : Flags)
    (f : NativeFunction) (root : ObjectRef) (w : World σ)
    (hdone : (registerBelow host n owner segments flags f root w).1 = true) :
    ∃ holder, Registers n ⟨f, flags, holder⟩ w
      (registerBelow host n owner segments flags f root w).2 := by
  rw [registerBelow_eq] at hdone ⊢
  exact ⟨_, (descend_putFunction_registers hc segments _ root _ hdone).of_evolves
    ((closed n hc).holder owner w)⟩

omit hc in
lemma Registers.found (hr : Registers n entry w w') (hn : w.Has n)
    (hroom : (w'.environment n).tables.domains.size < 2 ^ 32) :
    ∃ data, (w.environment n).tables.lookup? data = none ∧
      (w'.environment n).tables.lookup? data = some (.domain entry) := by
  obtain ⟨w₁, hbefore, hafter⟩ := hr
  have htables : ((w₁.modifyEnvironment n ({ · with
      tables := ((w₁.environment n).tables.registerDomain entry).2 })).environment n).tables =
      ((w₁.environment n).tables.registerDomain entry).2 := by
    rw [World.environment_modifyEnvironment, if_pos ⟨rfl, hbefore.has hn⟩]
  have hgrown := CallbackTables.Extends.domains_size (fun data found => hafter.lookup? n data found) hroom
  rw [htables] at hgrown
  have hroom₁ : (w₁.environment n).tables.domains.size < 2 ^ 32 := by
    simp only [CallbackTables.registerDomain, Array.size_push] at hgrown
    omega
  have hsize := CallbackTables.Extends.domains_size
    (fun data found => hbefore.lookup? n data found) hroom₁
  refine ⟨.encode .domain (UInt32.ofNat (w₁.environment n).tables.domains.size), ?_, ?_⟩
  · rw [CallbackTables.lookup?_domain _ hroom₁, Array.getElem?_eq_none hsize]
    rfl
  · refine hafter.lookup? n _ _ ?_
    rw [htables]
    exact (w₁.environment n).tables.lookup?_register (.domain entry) hroom₁

lemma registerCallback_registers (owner : Option Handle) (domain : String) (flags : Flags)
    (f : NativeFunction) (w : World σ)
    (hdone : (registerCallback host n owner domain flags f w).1 = true) :
    ∃ holder, Registers n ⟨f, flags, holder⟩ w
      (registerCallback host n owner domain flags f w).2 := by
  revert hdone
  rw [registerCallback_eq]
  cases segments? domain with
  | none => exact fun hfalse => absurd hfalse (by simp [pure, StateT.pure])
  | some segments =>
    have hreceiver := (closed n hc).receiver owner w
    dsimp only
    rw [Engine.bind_apply]
    cases (receiver n owner w).1 with
    | none => exact fun hfalse => absurd hfalse (by simp [pure, StateT.pure])
    | some root =>
      intro hdone
      obtain ⟨holder, hr⟩ := registerBelow_registers hc owner segments flags f root _ hdone
      exact ⟨holder, hr.of_evolves hreceiver⟩

end Environment

namespace Foreign

lemma registerCallback_registers (hc : host.Conforming) (env : ForeignEnvironment) (owner : UInt64)
    (domain : ForeignText) (f : Option Code) (flags : Flags) (w : World σ)
    (hdone : (perform host (some env) (.registerCallback owner domain f flags) w).1 = .boolean true) :
    ∃ code holder, f = some code ∧
      Environment.Registers env.environment ⟨⟨code, some env.surface⟩, flags, holder⟩ w
        (perform host (some env) (.registerCallback owner domain f flags) w).2 := by
  revert hdone
  simp only [perform, registerCallback]
  cases domain.text? with
  | none => exact fun hfalse => absurd hfalse (by simp [pure, StateT.pure])
  | some domain =>
    cases f with
    | none => exact fun hfalse => absurd hfalse (by simp [pure, StateT.pure])
    | some code =>
      intro hdone
      obtain ⟨holder, hr⟩ := Environment.registerCallback_registers hc (Handle.ofRaw? owner)
        domain flags ⟨code, some env.surface⟩ w (Answer.boolean.inj hdone)
      exact ⟨code, holder, rfl, hr⟩

-- A handle of the first surface, in a world: what is not in its surface cannot be had through it,
-- and routines that are registered through it are called with a handle of the same surface.
structure Confined (host : Host σ) (w : World σ) (env : ForeignEnvironment) : Prop where
  version : perform host (some env) .getVersion w = (.integer 1000, w)
  refused : ∀ {call answer}, call.failure? = some answer →
    perform host (some env) call w = (answer, w)
  unaffected : ∀ calls : List Call.Known, (∀ call ∈ calls, call.affects = false) →
    w.after host (calls.map (Action.foreign (some env))) = w
  callback : ∀ owner domain f flags,
    let done := perform host (some env) (.registerCallback owner domain f flags) w
    done.1 = .boolean true → (done.2.environment env.environment).tables.domains.size < 2 ^ 32 →
    ∃ code holder data, f = some code ∧ (w.environment env.environment).tables.lookup? data = none ∧
      ∀ w', done.2.Evolves w' →
        (w'.environment env.environment).tables.lookup? data =
          some (.domain ⟨⟨code, some .first⟩, flags, holder⟩) ∧
        ∀ (host₁ host₂ : Host σ) (i : Invocation),
          (∀ this args, host₂.foreignFunction code env this args = host₁.foreignFunction code env this args) →
          host₂.release = host₁.release →
          Environment.dispatch host₂ env.environment data i w' =
            Environment.dispatch host₁ env.environment data i w'

lemma after_of_unaffecting {env : Option ForeignEnvironment} (henv : fullEnvironment env = none)
    (w : World σ) (calls : List Call.Known) (hcalls : ∀ call ∈ calls, call.affects = false) :
    w.after host (calls.map (Action.foreign env)) = w := by
  induction calls with
  | nil => rfl
  | cons call rest ih =>
    have hfirst : ((Action.foreign env call).perform host w).2 = w :=
      perform_of_unaffecting henv (hcalls call (by simp)) w
    rw [List.map_cons, World.after, List.foldl_cons, hfirst]
    exact ih fun other hmem => hcalls other (List.mem_cons_of_mem _ hmem)

end Foreign

lemma Foreign.confined_first (hc : host.Conforming) (w : World σ) (hn : w.Has n) :
    Confined host w ⟨n, .first⟩ where
  version := rfl
  refused hcall := by
    rw [perform_of_failure rfl hcall]
    rfl
  unaffected calls hcalls := after_of_unaffecting rfl w calls hcalls
  callback owner domain f flags hdone hroom := by
    obtain ⟨code, holder, hf, hr⟩ := registerCallback_registers hc _ owner domain f flags w hdone
    obtain ⟨data, hfresh, hfound⟩ := hr.found hn hroom
    refine ⟨code, holder, data, hf, hfresh, fun w' hev => ?_⟩
    have hlookup := hev.lookup? n data _ hfound
    exact ⟨hlookup, fun host₁ host₂ i hsame hrelease =>
      Environment.dispatch_congr hlookup hsame hrelease i⟩

lemma Foreign.surface_of_getEnvironment {context : UInt64} {version : Int32}
    {env : ForeignEnvironment} (hgiven : (getEnvironment context version w).1 = some env) :
    env.surface = .ofVersion version := by
  have hnone : (none : Option ForeignEnvironment) ≠ some env := by simp
  revert hgiven
  rw [getEnvironment, Engine.bind_apply]
  cases ((get : Act σ (World σ)) w).1.contexts.lookup context with
  | none => exact fun hgiven => absurd hgiven hnone
  | some e =>
    dsimp only [Environment.negotiate]
    split
    · exact fun hgiven => congrArg ForeignEnvironment.surface (Option.some.inj hgiven).symm
    · exact fun hgiven => absurd hgiven hnone

-- Whoever asks for version 1000 is confined to the first surface, and so is everything that is
-- registered through it.
theorem first_surface_confinement (hc : host.Conforming) (w : World σ) :
    (∀ context env, (Foreign.getEnvironment context 1000 w).1 = some env → env.surface = .first) ∧
    (∀ env : ForeignEnvironment, env.surface = .first → w.Has env.environment →
      Foreign.Confined host w env) ∧
    ∀ call answer, call.failure? = some answer → Foreign.perform host none call w = (answer, w) := by
  refine ⟨fun context env hgiven => Foreign.surface_of_getEnvironment hgiven, ?_, ?_⟩
  · rintro ⟨n, surface⟩ rfl hn
    exact Foreign.confined_first hc w hn
  · intro call answer hcall
    rw [Foreign.perform_of_failure rfl hcall]
    rfl

-- A routine is registered through a handle of the first surface. Later its environment is let go,
-- and the engine gets another one.
def firstSurface : ForeignEnvironment := ⟨⟨0⟩, .first⟩

def firstRegistered : Foreign.Answer × World Unit :=
  Foreign.perform refusing (some firstSurface) (.registerCallback 0 (some [102]) (some ⟨0⟩) 0)
    (World.after refusing { host := () } hosted)

theorem first_surface_confinement_of_registration :
    let w := World.after refusing { host := () } hosted
    let w' := firstRegistered.2.after refusing [.teardown ⟨0⟩, .drop ⟨0⟩, .attach ⟨0⟩]
    refusing.Conforming ∧ w.Has ⟨0⟩ ∧ firstRegistered.1 = .boolean true ∧
    Foreign.perform refusing (some firstSurface) .newObject w = (.handle 0, w) ∧
    ∃ holder data, (w.environment ⟨0⟩).tables.lookup? data = none ∧
      (w'.environment ⟨0⟩).tables.lookup? data = some (.domain ⟨⟨⟨0⟩, some .first⟩, 0, holder⟩) ∧
      ∀ (host : Host Unit) (i : Invocation),
        (∀ this args, host.foreignFunction ⟨0⟩ firstSurface this args =
          refusing.foreignFunction ⟨0⟩ firstSurface this args) → host.release = refusing.release →
        Environment.dispatch host ⟨0⟩ data i w' = Environment.dispatch refusing ⟨0⟩ data i w' := by
  intro w w'
  have hn : w.Has ⟨0⟩ := by decide +kernel
  have hdone : firstRegistered.1 = .boolean true := by cbv
  have hroom : (firstRegistered.2.environment ⟨0⟩).tables.domains.size < 2 ^ 32 := by
    have hsize : (firstRegistered.2.environment ⟨0⟩).tables.domains.size = 1 := by cbv
    rw [hsize]
    omega
  have hconfined := (first_surface_confinement refusing_conforming w).2.1 firstSurface rfl hn
  obtain ⟨code, holder, data, hcode, hfresh, hlater⟩ :=
    hconfined.callback 0 (some [102]) (some ⟨0⟩) 0 hdone hroom
  obtain rfl := Option.some.inj hcode
  obtain ⟨hlookup, hsame⟩ := hlater w' (World.after_evolves refusing_conforming _ _)
  exact ⟨refusing_conforming, hn, hdone, hconfined.refused rfl, holder, data, hfresh, hlookup,
    fun host i => hsame refusing host i⟩

end HostBoundary
