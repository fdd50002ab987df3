import HostBoundary.Proofs.Orderly
import HostBoundary.Proofs.Traversal

namespace HostBoundary

open Act (Orderly Meets any)

variable {σ : Type} {host : Host σ} {n : EnvironmentId} {e : EngineId} {w : World σ}
  {pre : Heap → Prop} {α : Type}

-- A call of the engine into native code, of whatever kind.
inductive Host.Visit where
  | function (code : Code) (n : EnvironmentId) (this : Option Handle) (args : List Tagged)
  | getter (code : Code) (n : EnvironmentId) (this : Handle)
  | setter (code : Code) (n : EnvironmentId) (this : Handle) (value : Tagged)
  | foreignFunction (code : Code) (env : ForeignEnvironment) (this : UInt64) (args : List WireValue)
  | foreignGetter (code : Code) (env : ForeignEnvironment) (this : UInt64)
  | foreignSetter (code : Code) (env : ForeignEnvironment) (this : UInt64) (value : WireValue)
  | reclaim (hook : ReclaimHook) (fields : Fields)
  | release (hook : ReleaseHook) (memory : HostMemory)

def Host.visit (host : Host σ) : Visit → Act σ Unit
  | .function code n this args => discard (host.function code n this args)
  | .getter code n this => discard (host.getter code n this)
  | .setter code n this value => discard (host.setter code n this value)
  | .foreignFunction code env this args => discard (host.foreignFunction code env this args)
  | .foreignGetter code env this => discard (host.foreignGetter code env this)
  | .foreignSetter code env this value => discard (host.foreignSetter code env this value)
  | .reclaim hook fields => host.reclaim hook fields
  | .release hook memory => host.release hook memory

def Host.Visit.environment? : Visit → Option EnvironmentId
  | .function _ n _ _ | .getter _ n _ | .setter _ n _ _ => some n
  | .foreignFunction _ env _ _ | .foreignGetter _ env _ | .foreignSetter _ env _ _ =>
    some env.environment
  | .reclaim _ _ | .release _ _ => none

def Host.Visit.Valid (w : World σ) (visit : Visit) : Prop :=
  ∀ n, visit.environment? = some n → w.Has n

-- Whatever routine is called, the scopes it opens are closed when it is done.
def Host.Steady (host : Host σ) : Prop :=
  ∀ visit w, visit.Valid w → w.Sound →
    w.Carries (host.visit visit w).2 ∧ (host.visit visit w).2.Sound

lemma Host.Steady.reclaim (hs : host.Steady) (hook : ReclaimHook) (fields : Fields) :
    Orderly (host.reclaim hook fields) :=
  fun w hw => hs (.reclaim hook fields) w (fun _ hn => absurd hn (by simp [Visit.environment?])) hw

lemma Host.Steady.release (hs : host.Steady) (hook : ReleaseHook) (memory : HostMemory) :
    Orderly (host.release hook memory) :=
  fun w hw => hs (.release hook memory) w (fun _ hn => absurd hn (by simp [Visit.environment?])) hw

lemma Act.Orderly.minor : Act.Minor fun act : Act σ _ => Orderly act where
  pure x := .pure x
  bind h hnext := .bind h hnext
  read _ w hw := ⟨.refl w, hw⟩
  update n _ hf := .updateEnvironment n (fun env => (hf env).engine) fun env => (hf env).scopeDepth
  detach e _ hf := .updateEngine e (fun engine => (hf engine).heap) fun engine => (hf engine).dispatcher

-- What holds of visits to the routines of an environment holds of the routines, if it is about what
-- they leave behind.
lemma Act.Minor.calls {P : ∀ {α : Type}, Act σ α → Prop} (hP : Act.Minor P)
    (hreap : ∀ e, P (Environment.reap host e))
    (hleft : ∀ {α : Type} {act : Act σ α}, P (discard act) → P act)
    (hv : ∀ visit : Host.Visit, visit.environment? = some n → P (host.visit visit)) :
    Act.Calls host n P where
  toMinor := hP
  reap := hreap
  function code this args := hleft (hv (.function code n this args) rfl)
  getter code this := hleft (hv (.getter code n this) rfl)
  setter code this value := hleft (hv (.setter code n this value) rfl)
  foreignFunction code surface this args :=
    hleft (hv (.foreignFunction code ⟨n, surface⟩ this args) rfl)
  foreignGetter code surface this := hleft (hv (.foreignGetter code ⟨n, surface⟩ this) rfl)
  foreignSetter code surface this value :=
    hleft (hv (.foreignSetter code ⟨n, surface⟩ this value) rfl)

namespace World

def seated (w : World σ) (e : EngineId) : World σ :=
  (w.addEnvironment { engine := e }).2.modifyEngine e
    ({ · with dispatcher := some ⟨w.environments.size⟩, attached := some ⟨w.environments.size⟩ })

section Seated

variable (w : World σ) (e : EngineId)

lemma environment_seated (m : EnvironmentId) :
    (w.seated e).environment m =
      if m.index = w.environments.size then { engine := e } else w.environment m := by
  rw [seated, environment_modifyEngine]
  simp only [environment, addEnvironment, Array.getD_eq_getD_getElem?, Array.getElem?_push]
  split <;> rfl

lemma environment_seated_of_has (hn : w.Has n) :
    (w.seated e).environment n = w.environment n := by
  rw [environment_seated, if_neg (Nat.ne_of_lt hn)]

lemma has_seated (m : EnvironmentId) :
    (w.seated e).Has m ↔ w.Has m ∨ m.index = w.environments.size := by
  have hsize : (w.seated e).environments.size = w.environments.size + 1 := Array.size_push _
  rw [Has, Has, hsize]
  omega

lemma hasEngine_seated (d : EngineId) : (w.seated e).HasEngine d ↔ w.HasEngine d :=
  hasEngine_modifyEngine _ e d _

lemma heap_seated (d : EngineId) : ((w.seated e).engine d).heap = (w.engine d).heap :=
  engine_modifyEngine_congr (·.heap) rfl d

lemma Opens.seated : w.Carries (w.seated e) where
  engines := by simp [World.seated, World.modifyEngine, addEnvironment]
  environments := by simp [World.seated, World.modifyEngine, addEnvironment]
  engine m hm := congrArg _ (w.environment_seated_of_has e hm)
  depth m := by
    rw [environment_seated]
    split
    · rename_i hm
      have hnone : w.environments[m.index]? = none := Array.getElem?_eq_none (Nat.le_of_eq hm.symm)
      simp [environment, Array.getD_eq_getD_getElem?, hnone, default, instInhabitedEnvironment.default]
    · rfl
  heap d _ := by
    rw [heap_seated]
    exact .refl _

end Seated

lemma Staffed.seated (hw : w.Staffed) (e : EngineId) : (w.seated e).Staffed := by
  intro d m hd
  rw [World.seated, engine_modifyEngine] at hd
  rw [has_seated]
  split at hd
  · rename_i hand
    obtain rfl := Option.some.inj hd
    rw [environment_seated, if_pos rfl, hand.1]
    exact ⟨.inr rfl, rfl⟩
  · obtain ⟨hm, hengine⟩ := hw d m hd
    rw [environment_seated_of_has w e hm]
    exact ⟨.inl hm, hengine⟩

lemma Wired.seated (hw : w.Wired) (he : w.HasEngine e) : (w.seated e).Wired where
  engine m hm := by
    rw [hasEngine_seated, environment_seated]
    split
    · exact he
    · rename_i hne
      exact hw.engine m (((has_seated w e m).mp hm).resolve_right hne)
  dispatcher := Staffed.seated hw.dispatcher e

lemma Sound.seated (hs : w.Sound) (he : w.HasEngine e) : (w.seated e).Sound where
  heap d := by
    rw [heap_seated]
    exact hs.heap d
  global d hd := by
    rw [heap_seated]
    exact hs.global d ((hasEngine_seated w e d).mp hd)
  __ := hs.wired.seated he

end World

namespace Environment

lemma reap_orderly (hs : host.Steady) (e : EngineId) : Orderly (reap host e) := by
  refine Orderly.minor.reap_of hs.release (.updateEngine e (fun _ => rfl) fun _ => rfl)
    (.onHeap e fun h hsound => ?_)
  have hl : h.Safely h.drainReleases.2 := .op .drainReleases trivial
  exact ⟨hl.opens, hl.sound hsound⟩

section Attach

variable (w : World σ) (e : EngineId)

lemma attach_of_some (n : EnvironmentId) (h : (w.engine e).attached = some n) :
    attach e w = (n, (acquire n w).2) := by
  simp only [attach, bind, StateT.bind, MonadState.get, getThe, MonadStateOf.get, StateT.get, pure, h]
  rfl

lemma attach_of_none (h : (w.engine e).attached = none) :
    attach e w = (⟨w.environments.size⟩, (acquire ⟨w.environments.size⟩ (w.seated e)).2) := by
  simp only [attach, bind, StateT.bind, MonadState.get, getThe, MonadStateOf.get, StateT.get, pure, h]
  rfl

end Attach

lemma attach_meets (e : EngineId) :
    Meets (.engine e) any (attach e : Act σ EnvironmentId) fun _ _ => True := by
  intro w hw he _
  cases ha : (w.engine e).attached with
  | some n =>
    obtain ⟨hc, hs⟩ := Orderly.minor.acquire n w hw
    rw [attach_of_some w e n ha]
    exact ⟨hc, hs, trivial⟩
  | none =>
    obtain ⟨hc, hs⟩ := Orderly.minor.acquire ⟨w.environments.size⟩ (w.seated e) (hw.seated he)
    rw [attach_of_none w e ha]
    exact ⟨(World.Opens.seated w e).trans hc, hs, trivial⟩

end Environment

lemma Host.Steady.calls (hs : host.Steady) :
    Act.Calls host n fun act => Meets (.environment n e) any act fun _ _ => True := by
  refine Act.Minor.calls
    { pure x := .ofOrderly (.pure x)
      bind h hnext := .bind h hnext
      read f := .ofOrderly (Orderly.minor.read f)
      update n _ hf := .ofOrderly (Orderly.minor.update n hf)
      detach e _ hf := .ofOrderly (Orderly.minor.detach e hf) }
    (fun e => .ofOrderly (Environment.reap_orderly hs e)) id fun visit hv w hw hin _ => ?_
  obtain ⟨hc, hsound⟩ := hs visit w (fun m hm => Option.some.inj (hv.symm.trans hm) ▸ hin.2.1) hw
  exact ⟨hc, hsound, trivial⟩

def Completion.value : Completion → Value
  | .ok value | .error value => value

-- An object under construction is kept by a scope while native code fills it.
def Invocation.Kept (i : Invocation) (h : Heap) : Prop :=
  i.kind = .construct → ∀ r, i.this = .object r → h.Rooted r

lemma Invocation.Kept.opens {i : Invocation} {h h' : Heap} {k : Nat} (hk : i.Kept h)
    (ho : Heap.Opens k h h') : i.Kept h' :=
  fun hkind r hr => ho.rooted (hk hkind r hr)

namespace Environment

lemma throwPending_meets (n : EnvironmentId) (e : EngineId) :
    Meets (.environment n e) any (throwPending n : Act σ Value) fun v h => h.LiveValue v := by
  refine .bind .environment fun env => .assuming fun he => .bind (.setException n {}) fun _ => ?_
  subst he
  refine .onHeap fun h hs _ => ?_
  have hl := h.safely_newError .error
    (if env.exception.message.isEmpty then "native callback failed" else env.exception.message)
  exact ⟨hl, fun r hr => (hl.sound hs).live_of_innermost (h.innermost_newError _ _ r hr)⟩

lemma throwNative_meets (n : EnvironmentId) (e : EngineId) (exception : Exception) :
    Meets (.environment n e) any
      (do Act.setException n exception; return .error (← throwPending n) : Act σ Completion)
      fun (c : Completion) h => h.LiveValue c.value :=
  .bind (.setException n _) fun _ => .returning (throwPending_meets n e)

lemma complete_meets (n : EnvironmentId) (e : EngineId) (result : Option Tagged) :
    Meets (.environment n e) any (complete n result : Act σ Completion)
      fun c h => h.LiveValue c.value := by
  refine .bind .environment fun env => .assuming fun he => ?_
  subst he
  split
  · exact .returning (throwPending_meets n _)
  · split
    · exact .pure fun h _ _ r hr => absurd hr (by simp [Completion.value])
    · rename_i value
      have hconvert : Meets (.environment n env.engine) any
          (Act.onHeap env.engine (·.ofTagged value) : Act σ _)
          fun converted h => ∀ v, converted = .ok v → h.LiveValue v :=
        .onHeap fun h _ _ => ⟨h.safely_ofTagged value, h.liveValue_ofTagged value⟩
      refine .bind hconvert fun converted => ?_
      split
      · exact .pure fun h _ hv => hv _ rfl
      · exact (throwNative_meets n _ _).under

variable (hs : host.Steady)

include hs

variable (n : EnvironmentId) (e : EngineId)

lemma invoke_meets (f : NativeFunction) (flags : Flags) (this : Option Handle) (args : List Value) :
    Meets (.environment n e) any (invoke host n f flags this args)
      fun c h => h.LiveValue c.value := by
  refine .bind (.ofOrderly (.environment n)) fun env =>
    .bind (.ofOrderly (fun w hw => ⟨.refl w, hw⟩)) fun h => ?_
  split
  · exact .bind (hs.calls.callBy f this _) fun _ => complete_meets n e _
  · exact throwNative_meets n e _

lemma assign_meets (name : String) (setter : NativeFunction) (flags : Flags) (this : Option Handle)
    (value : Value) :
    Meets (.environment n e) any (assign host n name setter flags this value)
      fun c h => h.LiveValue c.value := by
  refine .bind (.ofOrderly (.environment n)) fun env =>
    .bind (.ofOrderly (fun w hw => ⟨.refl w, hw⟩)) fun h => ?_
  split
  · exact throwNative_meets n e _
  · dsimp only
    split
    on_goal 1 => refine .bind (hs.calls.setBy setter _ _) fun accepted => ?_
    on_goal 2 => refine .bind (.ofOrderly (.pure false)) fun accepted => ?_
    all_goals
      refine .bind (.ofOrderly (.environment n)) fun env => ?_
      split
      · exact .bind (.setException n _) fun _ => complete_meets n e none
      · exact complete_meets n e none

omit hs in
lemma safely_attachFinalizer (target : ObjectRef) (finalizer : ReclaimHook) (h : Heap) :
    h.Safely (attachFinalizer target finalizer h) := by
  have hp := h.safely_persist target
  unfold attachFinalizer
  split <;> rename_i heq <;> rw [heq] at hp
  · exact hp.trans (Heap.safely_weaken _ _ _)
  · exact hp

lemma invokeMember_meets (member : MemberEntry) (i : Invocation) :
    Meets (.environment n e) i.Kept (invokeMember host n member i)
      fun c h => h.LiveValue c.value := by
  unfold invokeMember
  dsimp only
  split
  · rename_i f flags finalizer hkind
    -- The receiver is kept all the while, and so it is there when it is returned.
    have hthis : ∀ h : Heap, h.Sound → i.Kept h → h.LiveValue i.this := fun h hsound hk r hr =>
      hsound.live_of_rooted (hk hkind r hr)
    have hkept := ((invoke_meets hs n e f flags (i.this.object?.map Handle.transient) i.args).frame
      fun _ _ ho hk => Invocation.Kept.opens (i := i) hk ho).strengthen fun _ _ hk => ⟨trivial, hk⟩
    refine .bind hkept fun completion => ?_
    split
    · exact .pure fun h _ hpost => hpost.1
    · split
      · refine .bind .environment fun env => .assuming fun he => ?_
        subst he
        exact .returning (.onHeap fun h hsound hpost => ⟨safely_attachFinalizer _ _ h,
          (safely_attachFinalizer _ _ h).liveValue (hthis h hsound hpost.2)⟩)
      · exact .pure fun h hsound hpost => hthis h hsound hpost.2
  · exact (invoke_meets hs n e _ _ _ _).under
  · exact (invoke_meets hs n e _ _ _ _).under
  · split
    · exact (Meets.bind (hs.calls.getBy _ _) fun _ => complete_meets n e _).under
    · exact (complete_meets n e none).under
  · exact (assign_meets hs n e _ _ _ _ _).under
  · exact .pure fun h _ _ r hr => absurd hr (by simp [Completion.value])

lemma dispatch_meets (data : CallbackData) (i : Invocation) :
    Meets (.environment n e) i.Kept (dispatch host n data i) fun c h => h.LiveValue c.value := by
  refine .bind .environment fun env => .assuming fun he => ?_
  split
  · subst he
    refine .returning (.onHeap fun h hsound _ => ?_)
    have hl := h.safely_newError .error "native callback not found"
    exact ⟨hl, fun r hr => (hl.sound hsound).live_of_innermost (h.innermost_newError _ _ r hr)⟩
  · exact (invoke_meets hs n e _ _ _ _).under
  · exact (invoke_meets hs n e _ _ _ _).under
  · exact invokeMember_meets hs n e _ i

end Environment

-- The heap when the scope of a native call is left: the scope of the caller keeps what came
-- of the call.
def Heap.leave (h : Heap) (c : Completion) : Heap :=
  match c.value with
  | .object r => h.popScope.2.root r
  | _ => h.popScope.2

lemma Heap.leave_spec (h : Heap) (hs : h.Sound) (c : Completion) (hc : h.LiveValue c.value) :
    Heap.Opens 0 h.popScope.2 (h.leave c) ∧ (h.leave c).Sound ∧
    ∀ r, c.value = .object r → (h.leave c).Innermost r := by
  have hpop := sound_popScope hs
  unfold leave
  split
  · rename_i r hr
    have hlive : h.popScope.2.Live r := by
      intro hroom
      simp only [Roomy, isAlive, popScope_objects] at hroom ⊢
      exact hc r hr hroom
    refine ⟨opens_root _ r, (safely_root _ r hlive).sound hpop, fun s hs => ?_⟩
    exact Value.object.inj (hr.symm.trans hs) ▸ innermost_root _ r
  · rename_i hnone
    exact ⟨.refl _, hpop, fun r hr => absurd hr (hnone r)⟩

namespace Engine

lemma left_apply (e : EngineId) (n : EnvironmentId) (c : Completion) (w : World σ) :
    left e n (c, w) =
      (c, (w.modifyEnvironment n fun env => { env with running := env.running - 1 }).setHeap e
        ((w.engine e).heap.leave c)) := by
  rcases c with v | v <;> cases v <;> rfl

lemma dispatch_of_none (host : Host σ) (w : World σ) (e : EngineId) (data : CallbackData)
    (i : Invocation) (hd : w.dispatcher? e = none) :
    dispatch host e data i w =
      (do return .error (← Act.onHeap e (·.newError .error "no native dispatcher installed")) :
        Act σ Completion) w := by
  have hstep : (dispatcher? e : Act σ (Option EnvironmentId)) w = (none, w) := congrArg (·, w) hd
  simp only [dispatch, bind, StateT.bind, hstep]

lemma raise_meets (e : EngineId) (name : ErrorName) (message : String) :
    Meets (.engine e) pre (raise e name message : Act σ (Except Throw α))
      fun x h => ∃ thrown, x = .error thrown ∧ ∀ r, thrown.value = .object r → h.Innermost r :=
  .onHeap fun h _ _ => ⟨h.safely_newError name message, _, rfl, h.innermost_newError name message⟩

lemma raise_fails {post : α → Heap → Prop} (e : EngineId) (name : ErrorName) (message : String) :
    Meets (.engine e) pre (raise e name message : Act σ (Except Throw α))
      fun x h => ∀ v, x = .ok v → post v h := by
  refine (raise_meets e name message).weaken fun x h _ hx v hv => ?_
  obtain ⟨thrown, rfl, -⟩ := hx
  cases hv

lemma inScope_meets (n : EnvironmentId) (e : EngineId) (act : Act σ Completion)
    (hpre : ∀ h h' : Heap, Heap.Opens 1 h h' → pre h → pre h')
    (hact : Meets (.environment n e) pre act fun c h => h.LiveValue c.value) :
    Meets (.environment n e) pre (inScope e n act)
      fun c h => ∀ r, c.value = .object r → h.Innermost r := by
  intro w hw hin hkept
  have hpush := (w.engine e).heap.opens_pushScope (hw.heap e).saturated
  have hentered : World.Opens (fun x => if x = e then 1 else 0) (fun _ => 0) w (w.entered e n) := by
    have ho := World.Opens.modifyEngine w e ({ · with heap := (w.engine e).heap.pushScope }) 1 hpush
    have hrun := World.Opens.modifyEnvironment
      (w.setHeap e (w.engine e).heap.pushScope) n
      (fun env => { env with running := env.running + 1 }) 0 rfl rfl (.inl rfl)
    simp only [ite_self] at hrun
    exact ho.trans hrun
  have hsound : (w.entered e n).Sound :=
    (hw.modifyEngine e _ (Heap.sound_pushScope (hw.heap e)) hpush.global rfl).modifyEnvironment n _ rfl
  have hin' : (View.environment n e).In (w.entered e n) :=
    ⟨hentered.hasEngine hin.1, hentered.has hin.2.1, (hentered.engine n hin.2.1).trans hin.2.2⟩
  have hheap := hentered.heap e hin.1
  rw [if_pos rfl] at hheap
  obtain ⟨hc, hs, hlive⟩ := hact (w.entered e n) hsound hin' (hpre _ _ hheap hkept)
  rw [inScope_apply]
  generalize act (w.entered e n) = done at hc hs hlive
  obtain ⟨c, w'⟩ := done
  obtain ⟨hleave, hsleave, hinner⟩ := Heap.leave_spec _ (hs.heap e) c hlive
  have hrun := World.Opens.modifyEnvironment w' n (fun env => { env with running := env.running - 1 }) 0
    rfl rfl (.inl rfl)
  simp only [ite_self] at hrun
  have hopen := (hentered.trans hc).trans hrun
  have hthere := hopen.hasEngine hin.1
  rw [left_apply]
  refine ⟨hopen.popScope e _ (fun x => by simp) hleave,
    (hs.modifyEnvironment n _ rfl).modifyEngine e _ hsleave (hleave.global.trans ?_) rfl, ?_⟩
  · exact Heap.global_popScope _
  · dsimp only [View.target]
    rw [World.heap_modifyEngine hthere]
    exact hinner

variable (hs : host.Steady)

include hs

variable (e : EngineId)

lemma dispatch_meets (data : CallbackData) (i : Invocation) :
    Meets (.engine e) i.Kept (dispatch host e data i)
      fun c h => ∀ r, c.value = .object r → h.Innermost r := by
  intro w hw he hkept
  cases hd : w.dispatcher? e with
  | none =>
    have hrefuse : Meets (.engine e) any
        (do return .error (← Act.onHeap e (·.newError .error "no native dispatcher installed")) :
          Act σ Completion)
        fun (c : Completion) h => ∀ r, c.value = .object r → h.Innermost r :=
      .returning (.onHeap fun h _ _ => ⟨h.safely_newError _ _, h.innermost_newError _ _⟩)
    rw [dispatch_of_none host w e data i hd]
    exact hrefuse w hw he trivial
  | some n =>
    obtain ⟨hn, hengine⟩ := hw.dispatcher e n (Option.filter_eq_some_iff.mp hd).1
    rw [dispatch_of_some host w e n data i hd]
    exact inScope_meets n e _ (fun _ _ ho hk => hk.opens ho) (Environment.dispatch_meets hs n e data i)
      w hw ⟨he, hn, hengine⟩ hkept

lemma dispatch_any (data : CallbackData) (i : Invocation) (hi : i.kind ≠ .construct) :
    Meets (.engine e) pre (dispatch host e data i)
      fun c h => ∀ r, c.value = .object r → h.Innermost r :=
  (dispatch_meets hs e data i).strengthen fun _ _ _ hkind => absurd hkind hi

omit hs in
lemma outcome_meets (c : Completion) (kept : Value → Heap → Prop) :
    Meets (.engine e) (kept c.value) (outcome e c : Act σ (Except Throw Value))
      fun x h => kept (Heap.resultValue x) h := by
  cases c with
  | ok value => exact .pure fun _ _ hk => hk
  | error thrown => exact .returning (Meets.heap.weaken fun _ _ _ hk => hk.2)

lemma dispatch_outcome (data : CallbackData) (i : Invocation) (hi : i.kind ≠ .construct) :
    Meets (.engine e) pre (dispatch host e data i >>= outcome e)
      fun x h => ∀ r, Heap.resultValue x = .object r → h.Innermost r :=
  .bind (dispatch_any hs e data i hi) fun c =>
    outcome_meets e c fun v h => ∀ r, v = .object r → h.Innermost r

-- What a read gives is kept by the innermost scope if native code gave it, and else it is what
-- some object holds.
lemma getProperty_meets (r : ObjectRef) (key : Value) :
    Meets (.engine e) pre (getProperty host e r key)
      fun x h => ∀ v, x = .ok v → ∀ s, v = .object s → h.Innermost s ∨ h.Stored s := by
  refine .bind .heap fun now => ?_
  dsimp only
  split
  · exact raise_fails e _ _
  · split
    · rename_i found hfound
      refine .pure fun h _ hnow v hv s hobject => .inr ?_
      obtain rfl := hnow.1
      obtain rfl : found = .object s := (Except.ok.inj hv).trans hobject
      exact now.stored_of_lookupFrom _ _ _ s hfound
    · refine .pure fun h _ _ v hv s hobject => ?_
      rw [← Except.ok.inj hv] at hobject
      cases hobject
    · refine (dispatch_outcome hs e _ _ (by simp)).weaken fun x h _ hx v hv s hobject => .inl ?_
      subst hv
      exact hx s hobject

lemma runSetter_meets (r : ObjectRef) (value : Value) (data : CallbackData) :
    Meets (.engine e) any
      (do return (← outcome e (← dispatch host e data ⟨.set value, .object r, []⟩)).map fun _ => ())
      fun _ _ => True :=
  .bind (dispatch_any hs e data _ (by simp)) fun c => .returning
    ((outcome_meets e c fun v h => ∀ r, v = .object r → h.Innermost r).weaken fun _ _ _ _ => trivial)

lemma setProperty_meets (r : ObjectRef) (key value : Value) :
    Meets (.engine e) (·.LiveValue value) (setProperty host e r key value) fun _ _ => True := by
  refine .bind .heap fun now => ?_
  dsimp only
  split
  · exact (raise_meets e _ _).weaken fun _ _ _ _ => trivial
  · split
    · exact .pure fun _ _ _ => trivial
    · refine .bind (.onHeap_safely fun h hsound hnow => ?_) fun stored => ?_
      · split
        · rename_i hstore
          exact h.safely_storeOwn hsound r _ value _ hnow.2 hstore
        · exact .refl h
      · split
        · exact .pure fun _ _ _ => trivial
        · exact (raise_meets e _ _).weaken fun _ _ _ _ => trivial
    · exact (runSetter_meets hs e r value _).under

section

variable (f : ObjectRef)

omit hs in
lemma functionBody_meets :
    Meets (.engine e) pre (functionBody e f : Act σ (Except Throw FunctionBody))
      fun x h => ∀ thrown, x = .error thrown → ∀ r, thrown.value = .object r → h.Innermost r := by
  have hraise : ∀ message, Meets (.engine e) (fun _ => True)
      (raise e .typeError message : Act σ (Except Throw FunctionBody))
      fun x h => ∀ thrown, x = .error thrown → ∀ r, thrown.value = .object r → h.Innermost r := by
    intro message
    refine (raise_meets e _ _).weaken fun x h _ hx thrown heq => ?_
    obtain ⟨t, rfl, ht⟩ := hx
    exact Except.error.inj heq ▸ ht
  refine .bind (Meets.heap.weaken fun _ _ _ _ => trivial) fun now => ?_
  split
  · exact .pure fun _ _ _ _ hthrown => absurd hthrown (by simp)
  · exact hraise _
  · exact hraise _

lemma call_meets (this : Value) (args : List Value) :
    Meets (.engine e) pre (call host e f this args)
      fun x h => ∀ r, Heap.resultValue x = .object r → h.Innermost r := by
  refine .bind (functionBody_meets e f) fun body => ?_
  split
  · exact .pure fun h _ hx => hx _ rfl
  · refine .bind .heap fun now => ?_
    dsimp only
    split
    · refine (raise_meets e _ _).weaken fun x h _ hx => ?_
      obtain ⟨thrown, rfl, ht⟩ := hx
      exact ht
    · exact dispatch_outcome hs e _ _ (by simp)

omit hs in
lemma constructTarget_meets :
    Meets (.engine e) pre (constructTarget e f : Act σ (Except Throw (CallbackData × ObjectRef)))
      fun x h => ∀ found, x = .ok found → h.Innermost found.2 := by
  refine .bind (functionBody_meets e f) fun body => ?_
  split
  · exact .pure fun _ _ _ _ hfound => absurd hfound (by simp)
  · refine .returning (.onHeap fun h _ _ => ⟨h.safely_allocate_ofBody _ (by simp [Body.references]), ?_⟩)
    exact fun found hfound => Except.ok.inj hfound ▸ h.innermost_allocate _
  · refine .bind (Meets.heap.weaken fun _ _ _ _ => trivial) fun now => ?_
    split
    · exact raise_fails e _ _
    · rename_i template _ _ _
      have hmake : Meets (.engine e) any (Act.onHeap e (·.newInstance template) : Act σ _)
          fun x h => ∀ r, x = some r → h.Innermost r :=
        .onHeap fun h hsound _ => h.safely_newInstance hsound template
      refine .bind hmake fun target => ?_
      split
      · exact .pure fun h _ hx found hfound => Except.ok.inj hfound ▸ hx _ rfl
      · exact raise_fails e _ _

lemma construct_meets (args : List Value) :
    Meets (.engine e) pre (construct host e f args) fun x h => ∀ r, x = .ok r → h.Innermost r := by
  refine .bind (constructTarget_meets e f) fun target => ?_
  split
  · exact .pure fun _ _ _ _ hfound => absurd hfound (by simp)
  · rename_i data target
    -- The new object is kept by the caller's scope while the routine fills it.
    have hdispatch := ((dispatch_meets hs e data ⟨.construct, .object target, args⟩).frame
      fun _ _ ho hk => Heap.Opens.innermost (r := target) ho hk)
    refine .bind (hdispatch.strengthen fun h _ hx => ?_) fun c => .returning ?_
    · have hinner := hx _ rfl
      exact ⟨fun _ r hr => Value.object.inj hr ▸ hinner.rooted, hinner⟩
    · refine (outcome_meets e c fun v h => (∀ r, v = .object r → h.Innermost r) ∧
        h.Innermost target).weaken fun x h _ hx r hr => ?_
      cases x with
      | error thrown => exact absurd hr (by simp [Except.map])
      | ok value =>
        obtain rfl := Except.ok.inj hr
        cases value with
        | object made => exact hx.1 made rfl
        | _ => exact hx.2

end

lemma runJob_meets (job : Job) :
    Meets (.engine e) (fun h => ∀ r ∈ job.references, h.Innermost r) (runJob host e job)
      fun _ _ => True := by
  have hderived : ∀ h : Heap, (∀ r ∈ job.references, h.Innermost r) →
      h.Innermost job.reaction.derived := fun h hall =>
    hall _ ((job.mem_references _).mpr (.inl (.derived)))
  have hvalue : ∀ h : Heap, h.Sound → (∀ r ∈ job.references, h.Innermost r) →
      h.LiveValue job.value := fun h hsound hall r hr =>
    hsound.live_of_innermost (hall r ((job.mem_references r).mpr (.inr hr)))
  unfold runJob
  dsimp only
  split
  · rename_i handler _
    have hcall : Meets (.engine e) any (call host e handler .undefined [job.value])
        fun x h => ∀ r, Heap.resultValue x = .object r → h.Innermost r :=
      call_meets hs e handler .undefined [job.value]
    have hkept := hcall.frame fun _ _ ho hk => Heap.Opens.innermost (r := job.reaction.derived) ho hk
    refine .bind (hkept.strengthen fun h _ hall => ⟨trivial, hderived h hall⟩) fun result => ?_
    split
    · refine .onHeap_safely fun h hsound hx => h.safely_fulfil hsound _ _ ?_ fun r hr => ?_
      · exact hsound.live_of_innermost hx.2
      · exact hsound.live_of_innermost (hx.1 r hr)
    · refine .onHeap_safely fun h hsound hx => h.safely_settle hsound _ _ _ fun r hr => ?_
      exact hsound.live_of_innermost (hx.1 r hr)
  · split
    · refine .onHeap_safely fun h hsound hall => h.safely_fulfil hsound _ _ ?_ (hvalue h hsound hall)
      exact hsound.live_of_innermost (hderived h hall)
    · exact .onHeap_safely fun h hsound hall => h.safely_settle hsound _ _ _ (hvalue h hsound hall)

omit hs in
lemma takeJob_meets :
    Meets (.engine e) pre (takeJob e : Act σ (Option Job))
      fun x h => ∀ job, x = some job → ∀ r ∈ job.references, h.Innermost r := by
  refine .onHeap fun h hsound _ => ?_
  split
  · rename_i job h' hj
    obtain ⟨hl, hall⟩ := h.safely_nextJob hsound job h' hj
    exact ⟨hl, fun other hother => Option.some.inj hother ▸ hall⟩
  · exact ⟨.refl h, by simp⟩

lemma runJobs_meets (budget : Nat) :
    Meets (.engine e) any (runJobs host e budget) fun _ _ => True := by
  induction budget with
  | zero => exact .pure fun _ _ _ => trivial
  | succ budget ih =>
    refine .bind (takeJob_meets e) fun job => ?_
    split
    · exact .pure fun _ _ _ => trivial
    · rename_i job
      exact .bind ((runJob_meets hs e job).strengthen fun _ _ hall => hall _ rfl) fun _ => ih

lemma collectGarbage_orderly : Orderly (collectGarbage host e) :=
  Orderly.minor.collect_of hs.release hs.reclaim
    (.onHeap e fun h hsound => ⟨h.opens_collect, Heap.sound_collect hsound⟩)

end Engine

end HostBoundary
