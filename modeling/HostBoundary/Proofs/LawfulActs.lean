import HostBoundary.Proofs.CallTransport
import HostBoundary.Proofs.Diary

namespace HostBoundary

open World

variable {σ α β : Type} {host : Host σ} {diary : σ → List (World Unit)} {n : EnvironmentId}
  {e : EngineId} {given : List EnvironmentId} {act : Act σ α}

-- Something that may be done at any time, given environments that are there: the laws go on to
-- hold, with the same promises about to be settled.
def Act.Lawful (diary : σ → List (World Unit)) (given : List EnvironmentId) (act : Act σ α) :
    Prop :=
  ∀ pledges w, w.Lawful diary pledges → (∀ n ∈ given, w.Has n) →
    (act w).2.Lawful diary pledges ∧ w.Retains (act w).2

def Host.Lawful (diary : σ → List (World Unit)) (host : Host σ) : Prop :=
  ∀ visit pledges w, visit.Valid w → w.Lawful diary pledges →
    (host.visit visit w).2.Lawful diary pledges ∧ w.Retains (host.visit visit w).2

lemma World.Lawful.onHeap {pledges : EngineId → List ObjectRef} {w : World σ}
    (hw : w.Lawful diary pledges) (e : EngineId) (f : Heap → α × Heap)
    (hp : (w.engine e).heap.Proceeds (pledges e) (f (w.engine e).heap).2 (pledges e)) :
    (Act.onHeap e f w).2.Lawful diary pledges ∧ w.Retains (Act.onHeap e f w).2 := by
  have hnext := hw.modifyEngine e ({ · with heap := (f (w.engine e).heap).2 }) rfl hp (hw.vacant e)
  rw [Function.update_eq_self] at hnext
  exact ⟨hnext, .modifyEngine w e _⟩

namespace Act.Lawful

lemma of_eq (hengines : ∀ w, (act w).2.engines = w.engines)
    (henvironments : ∀ w, (act w).2.environments = w.environments)
    (hhost : ∀ w, (act w).2.host = w.host) : Lawful diary given act :=
  fun _ w hw _ => ⟨hw.of_eq (hengines w) (henvironments w) (hhost w),
    .of_eq (congrArg Array.size (hengines w)) (henvironments w)⟩

lemma bind {next : α → Act σ β} (h : Lawful diary given act)
    (hnext : ∀ x, Lawful diary given (next x)) : Lawful diary given (act >>= next) := by
  intro pledges w hw hgiven
  obtain ⟨hfirst, hretains⟩ := h pledges w hw hgiven
  obtain ⟨hsecond, hretains'⟩ :=
    hnext (act w).1 pledges (act w).2 hfirst fun n hn => hretains.has (hgiven n hn)
  exact ⟨hsecond, hretains.trans hretains'⟩

lemma onHeap (e : EngineId) {f : Heap → α × Heap}
    (hf : ∀ (h : Heap) pledged, h.Proceeds pledged (f h).2 pledged) :
    Lawful diary given (Act.onHeap e f) :=
  fun _ _ hw _ => hw.onHeap e f (hf _ _)

lemma updateEnvironment (n : EnvironmentId) {f : Environment → Environment}
    (hengine : ∀ env, (f env).engine = env.engine)
    (hdepth : ∀ env, (f env).scopeDepth = env.scopeDepth)
    (hrunning : ∀ env, (f env).running = env.running) :
    Lawful diary given (Act.updateEnvironment n f) := by
  intro pledges w hw _
  have hlevel : (f (w.environment n)).level = (w.environment n).level := by
    rw [Environment.level, hdepth, hrunning]
    rfl
  exact ⟨hw.modifyEnvironment n f (hengine _) hlevel,
    .modifyEnvironment w n f (hengine _) (hrunning _)⟩

lemma updateEngine (e : EngineId) {f : Engine → Engine}
    (hheap : ∀ engine, (f engine).heap = engine.heap)
    (hdispatcher : ∀ engine, (f engine).dispatcher = engine.dispatcher) :
    Lawful diary given (Act.updateEngine e f) := by
  intro pledges w hw _
  have hstays : (w.engine e).heap.Proceeds (pledges e) (f (w.engine e)).heap (pledges e) :=
    hheap (w.engine e) ▸ .refl _ _
  have hnext := hw.modifyEngine e f (hdispatcher _) hstays (hw.vacant e)
  rw [Function.update_eq_self] at hnext
  exact ⟨hnext, .modifyEngine w e f⟩

lemma minor : Act.Minor fun act : Act σ _ => Lawful diary given act where
  pure _ := .of_eq (fun _ => rfl) (fun _ => rfl) fun _ => rfl
  bind h hnext := .bind h hnext
  read _ := .of_eq (fun _ => rfl) (fun _ => rfl) fun _ => rfl
  update n _ hf := .updateEnvironment n (fun env => (hf env).engine)
    (fun env => (hf env).scopeDepth) fun env => (hf env).running
  detach e _ hf := .updateEngine e (fun engine => (hf engine).heap) fun engine => (hf engine).dispatcher

end Act.Lawful

lemma Act.Ground.visits {P : ∀ {α : Type}, Act σ α → Prop} (hP : Act.Ground host P)
    (hleft : ∀ {α : Type} {act : Act σ α}, P (discard act) → P act)
    (hv : ∀ visit : Host.Visit, visit.environment? = some n → P (host.visit visit)) :
    Act.Visits host n P :=
  { hP, hP.calls hP.reap hleft hv with }

namespace Host.Lawful

variable (hh : host.Lawful diary)

include hh

lemma unattended (visit : Visit) (hv : visit.environment? = none) :
    Act.Lawful diary given (host.visit visit) := fun pledges w hw _ =>
  hh visit pledges w (fun _ hn => absurd (hv.symm.trans hn) (by simp)) hw

lemma frame (given : List EnvironmentId) :
    Act.Frame host fun act => Act.Lawful diary given act where
  toMinor := Act.Lawful.minor
  moves e _ hf := .onHeap e fun h pledged => .of_quietly (hf h).quietly pledged
  collectGarbage e := Act.Lawful.minor.collect_of
    (fun hook memory => hh.unattended (.release hook memory) rfl)
    (fun hook fields => hh.unattended (.reclaim hook fields) rfl)
    (.onHeap e fun _ pledged => .of_quietly (.op .collect trivial) pledged)
  reap e := Act.Lawful.minor.reap_of (fun hook memory => hh.unattended (.release hook memory) rfl)
    (.updateEngine e (fun _ => rfl) fun _ => rfl)
    (.onHeap e fun _ pledged => .of_quietly (.op .drainReleases trivial) pledged)

lemma visiting (hn : n ∈ given) (visit : Visit) (hv : visit.environment? = some n) :
    Act.Lawful diary given (host.visit visit) := fun pledges w hw hgiven =>
  hh visit pledges w (fun _ hm => Option.some.inj (hv.symm.trans hm) ▸ hgiven n hn) hw

lemma visits (hn : n ∈ given) : Act.Visits host n fun act => Act.Lawful diary given act :=
  (hh.frame given).toGround.visits id (hh.visiting hn)

end Host.Lawful

namespace Engine

section Scope

variable {pledges : EngineId → List ObjectRef} {w : World σ}

lemma entered_lawful (hw : w.Lawful diary pledges) (hn : w.Has n) :
    (w.entered (w.environment n).engine n).Lawful diary pledges := by
  refine hw.push hn _ rfl ?_
  simp only [Environment.level]
  omega

lemma left_lawful (hw : w.Lawful diary pledges) (hn : w.Has n)
    (hrunning : 0 < (w.environment n).running) (c : Completion) :
    (left (w.environment n).engine n (c, w)).2.Lawful diary pledges := by
  rw [left_apply]
  refine hw.pop hn _ rfl ?_ ?_
  · simp only [Environment.level]
    omega
  · unfold Heap.leave
    split
    · exact (Heap.discreetly_root _ _).quietly
    · exact .refl _

lemma environment_entered (hn : w.Has n) (e : EngineId) (m : EnvironmentId) :
    (w.entered e n).environment m =
      if m = n then { w.environment n with running := (w.environment n).running + 1 }
      else w.environment m := by
  rw [entered, environment_modifyEnvironment]
  simp [hn]

lemma has_entered (w : World σ) (e : EngineId) (n m : EnvironmentId) :
    (w.entered e n).Has m ↔ w.Has m :=
  has_modifyEnvironment _ n m _

lemma left_retains (hn : w.Has n) {w' : World σ} (hretains : (w.entered e n).Retains w')
    (c : Completion) : w.Retains (left e n (c, w')).2 := by
  have hthere := fun m => has_entered w e n m
  have hn' := hretains.has ((hthere n).mpr hn)
  have hsizes := hretains.environments
  have hengines := hretains.engines
  simp only [entered, modifyEnvironment, modifyEngine, Array.size_modify]
    at hsizes hengines
  rw [left_apply]
  suffices hback : ∀ m, w.Has m → _ ∧ _ from
    ⟨by simpa [modifyEnvironment, modifyEngine] using hengines,
      by simpa [modifyEnvironment, modifyEngine] using hsizes,
      fun m hm => (hback m hm).1, fun m hm => (hback m hm).2⟩
  intro m hm
  have hengine := hretains.engine m ((hthere m).mpr hm)
  have hrunning := hretains.running m ((hthere m).mpr hm)
  rw [environment_entered hn] at hengine hrunning
  rw [environment_modifyEngine, environment_modifyEnvironment]
  by_cases hmn : m = n
  · subst hmn
    rw [if_pos rfl] at hengine hrunning
    rw [if_pos ⟨rfl, hn'⟩]
    refine ⟨hengine, ?_⟩
    dsimp only
    rw [hrunning]
    exact Nat.add_sub_cancel _ 1
  · rw [if_neg hmn] at hengine hrunning
    rw [if_neg fun hand => hmn hand.1]
    exact ⟨hengine, hrunning⟩

lemma inScope_lawful {act : Act σ Completion} (hact : Act.Lawful diary [n] act)
    (hw : w.Lawful diary pledges) (hn : w.Has n) :
    (inScope (w.environment n).engine n act w).2.Lawful diary pledges ∧
      w.Retains (inScope (w.environment n).engine n act w).2 := by
  have hthere := (has_entered w (w.environment n).engine n n).mpr hn
  obtain ⟨hdone, hretains⟩ := hact pledges _ (entered_lawful hw hn)
    fun m hm => List.mem_singleton.mp hm ▸ hthere
  rw [inScope_apply]
  generalize act (w.entered (w.environment n).engine n) = done at hdone hretains
  obtain ⟨c, w'⟩ := done
  have hengine := hretains.engine n hthere
  have hrunning := hretains.running n hthere
  rw [environment_entered hn, if_pos rfl] at hengine hrunning
  have hleft := left_lawful hdone (hretains.has hthere) (hrunning ▸ Nat.succ_pos _) c
  rw [hengine] at hleft
  exact ⟨hleft, left_retains hn hretains c⟩

end Scope

lemma attachFinalizer_lawful (e : EngineId) (target : ObjectRef) (finalizer : ReclaimHook) :
    Act.Lawful diary given
      (Act.updateHeap e (Environment.attachFinalizer target finalizer) : Act σ Unit) :=
  .onHeap e fun h pledged => .of_quietly (Environment.quietly_attachFinalizer target finalizer h) pledged

variable (hh : host.Lawful diary)

include hh

variable (given : List EnvironmentId)

lemma dispatch_lawful (e : EngineId) (data : CallbackData) (i : Invocation) :
    Act.Lawful diary given (dispatch host e data i) := by
  intro pledges w hw hgiven
  cases hd : w.dispatcher? e with
  | none =>
    rw [dispatch_of_none host w e data i hd]
    exact (hh.frame given).returning ((hh.frame given).moves e fun h => h.moves_newError _ _) _
      pledges w hw hgiven
  | some n =>
    obtain ⟨hn, rfl⟩ := hw.accounted.dispatcher e n (Option.filter_eq_some_iff.mp hd).1
    rw [dispatch_of_some host w _ n data i hd]
    exact inScope_lawful
      ((hh.visits List.mem_cons_self).dispatch data i fun _ => attachFinalizer_lawful) hw hn

lemma lawful_basis : Act.Basis host fun act => Act.Lawful diary given act where
  toFrame := hh.frame given
  dispatch e data i _ := dispatch_lawful hh given e data i
  construct := (hh.frame given).construct (dispatch_lawful hh given)

lemma lawful_setting : Act.Setting host fun act => Act.Lawful diary given act :=
  (lawful_basis hh given).setting fun e _ hf =>
    .onHeap e fun h pledged => .of_quietly (hf h).discreetly.quietly pledged

end Engine

lemma Heap.ofTagged_objects (h : Heap) (value : Tagged) :
    (h.ofTagged value).2.objects = h.objects := by
  cases value with
  | object kind handle =>
    have hresolve : (h.resolveHandle handle).2.objects = h.objects := by
      cases handle with
      | transient => rfl
      | persistent slot => exact h.target_objects slot
    simp only [ofTagged]
    split <;> rename_i heq <;> rw [heq] at hresolve <;> exact hresolve
  | _ => rfl

def Act.Delivers (n : EnvironmentId) (act : Act σ Completion) : Prop :=
  ∀ w r, (act w).1 = .ok (.object r) →
    ((act w).2.engine ((act w).2.environment n).engine).heap.Live r

namespace Environment

open Act (Delivers)

lemma delivers_bind {next : α → Act σ Completion} (h : ∀ x, Delivers n (next x)) :
    Delivers n (act >>= next) :=
  fun w r hr => h (act w).1 (act w).2 r hr

lemma delivers_error (act : Act σ Value) :
    Delivers n (do return .error (← act) : Act σ Completion) := by
  intro w r hr
  have herror : (Except.error (act w).1 : Completion) = .ok (.object r) := hr
  cases herror

lemma delivers_undefined : Delivers n (pure (.ok .undefined) : Act σ Completion) := by
  intro w r hr
  have hundefined : (Except.ok .undefined : Completion) = .ok (.object r) := hr
  cases hundefined

-- What the host returns is converted last, and an object must be there for that.
lemma complete_delivers (result : Option Tagged) :
    Delivers n (complete n result : Act σ Completion) := by
  intro w r hr
  cases hset : (w.environment n).exception.isSet with
  | true =>
    rw [complete_of_set w result hset] at hr
    cases hr
  | false =>
    cases result with
    | none =>
      rw [complete_none hset] at hr
      cases hr
    | some value =>
      cases hv : ((w.engine (w.environment n).engine).heap.ofTagged value).1 with
      | error refused =>
        rw [complete_of_refused hset hv] at hr
        exact nomatch hr
      | ok v =>
        rw [complete_of_ok hset hv] at hr ⊢
        have hlive := Heap.liveValue_ofTagged _ value v hv r (Except.ok.inj hr)
        dsimp only [Act.onHeap]
        rw [environment_modifyEngine, engine_modifyEngine]
        split
        · exact hlive
        · simpa only [Heap.Live, Heap.Roomy, Heap.isAlive, Heap.ofTagged_objects] using hlive

lemma invoke_delivers (f : NativeFunction) (flags : Flags) (this : Option Handle)
    (args : List Value) : Delivers n (invoke host n f flags this args) := by
  refine delivers_bind fun env => delivers_bind fun h => ?_
  split
  · exact delivers_bind fun _ => complete_delivers _
  · exact delivers_bind fun _ => delivers_error _

lemma assign_delivers (name : String) (setter : NativeFunction) (flags : Flags)
    (this : Option Handle) (value : Value) :
    Delivers n (assign host n name setter flags this value) := by
  refine delivers_bind fun env => delivers_bind fun h => ?_
  split
  · exact delivers_bind fun _ => delivers_error _
  · dsimp only
    split <;>
    · refine delivers_bind fun accepted => delivers_bind fun env => ?_
      split
      · exact delivers_bind fun _ => complete_delivers none
      · exact complete_delivers none

lemma invokeMember_delivers (member : MemberEntry) (i : Invocation) (hi : i.kind ≠ .construct) :
    Delivers n (invokeMember host n member i) := by
  unfold invokeMember
  dsimp only
  split
  · rename_i hkind
    exact absurd hkind hi
  · exact invoke_delivers _ _ _ _
  · exact invoke_delivers _ _ _ _
  · split
    · exact delivers_bind fun _ => complete_delivers _
    · exact complete_delivers none
  · exact assign_delivers _ _ _ _ _
  · exact delivers_undefined

lemma dispatch_delivers (data : CallbackData) (i : Invocation) (hi : i.kind ≠ .construct) :
    Delivers n (dispatch host n data i) := by
  refine delivers_bind fun env => ?_
  split
  · exact delivers_error _
  · exact invoke_delivers _ _ _ _
  · exact invoke_delivers _ _ _ _
  · exact invokeMember_delivers _ i hi

end Environment

lemma Heap.leave_objects (h : Heap) (c : Completion) : (h.leave c).objects = h.objects := by
  unfold leave
  split <;> simp

namespace Engine

variable {pledges : EngineId → List ObjectRef} {w : World σ}

lemma dispatch_live (hh : host.Lawful diary) (hw : w.Lawful diary pledges) (e : EngineId)
    (data : CallbackData) (i : Invocation) (hi : i.kind ≠ .construct) {r : ObjectRef}
    (hr : (dispatch host e data i w).1 = .ok (.object r)) :
    ((dispatch host e data i w).2.engine e).heap.Live r := by
  cases hd : w.dispatcher? e with
  | none =>
    rw [dispatch_of_none host w e data i hd] at hr
    have herror : (Except.error ((w.engine e).heap.newError .error
      "no native dispatcher installed").1 : Completion) = .ok (.object r) := hr
    cases herror
  | some n =>
    obtain ⟨hn, rfl⟩ := hw.accounted.dispatcher e n (Option.filter_eq_some_iff.mp hd).1
    rw [dispatch_of_some host w _ n data i hd, inScope_apply] at hr ⊢
    have hthere := (has_entered w (w.environment n).engine n n).mpr hn
    have hlawful : Act.Lawful diary [n] (Environment.dispatch host n data i) :=
      (hh.visits List.mem_cons_self).dispatch data i fun h => absurd h hi
    obtain ⟨hdone, hretains⟩ := hlawful pledges _ (entered_lawful hw hn)
      fun m hm => List.mem_singleton.mp hm ▸ hthere
    have hdelivers : Act.Delivers n (Environment.dispatch host n data i) :=
      Environment.dispatch_delivers data i hi
    have hlive := hdelivers (w.entered (w.environment n).engine n)
    generalize Environment.dispatch host n data i (w.entered (w.environment n).engine n) = done
      at hr hdone hretains hlive ⊢
    obtain ⟨c, w'⟩ := done
    rw [left_apply] at hr ⊢
    have hengine : (w'.environment n).engine = (w.environment n).engine := by
      rw [hretains.engine n hthere, environment_entered hn, if_pos rfl]
    have hbefore := hlive r hr
    dsimp only at hbefore
    rw [hengine] at hbefore
    rw [engine_modifyEngine]
    split
    · simpa only [Heap.Live, Heap.Roomy, Heap.isAlive, Heap.leave_objects] using hbefore
    · exact hbefore

def Returns (diary : σ → List (World Unit)) (e : EngineId) (act : Act σ (Except Throw Value)) :
    Prop :=
  ∀ pledges w, w.Lawful diary pledges → ∀ r, (act w).1 = .ok (.object r) →
    ((act w).2.engine e).heap.Live r

lemma Returns.bind {next : α → Act σ (Except Throw Value)} (h : Act.Lawful diary [] act)
    (hnext : ∀ x, Returns diary e (next x)) : Returns diary e (act >>= next) :=
  fun pledges w hw r hr => hnext (act w).1 pledges (act w).2 (h pledges w hw (by simp)).1 r hr

lemma Returns.of_error {act : Act σ (Except Throw Value)} (thrown : World σ → Throw)
    (h : ∀ w, (act w).1 = .error (thrown w)) : Returns diary e act :=
  fun _ w _ _ hr => absurd ((h w).symm.trans hr) (by simp)

lemma call_returns (hh : host.Lawful diary) (e : EngineId) (f : ObjectRef) (this : Value)
    (args : List Value) : Returns diary e (call host e f this args) := by
  have hbasis := lawful_basis hh []
  refine .bind (hbasis.functionBody e f) fun body => ?_
  split
  · exact .of_error (fun _ => _) fun _ => rfl
  · refine .bind (hbasis.heap e) fun h => ?_
    dsimp only
    split
    · exact .of_error (fun w => ((w.engine e).heap.raise _ _).1) fun _ => rfl
    · rename_i data _
      intro pledges w hw r hr
      have hlive := dispatch_live hh hw e data ⟨.call, this, args⟩ (by simp) (r := r)
      have hsame : (dispatch host e data ⟨.call, this, args⟩ >>= outcome e) w =
        outcome e (dispatch host e data ⟨.call, this, args⟩ w).1
          (dispatch host e data ⟨.call, this, args⟩ w).2 := rfl
      rw [hsame] at hr ⊢
      generalize dispatch host e data ⟨.call, this, args⟩ w = done at hr hlive ⊢
      obtain ⟨c, w'⟩ := done
      cases c with
      | ok value =>
        have hvalue : (Except.ok value : Except Throw Value) = .ok (.object r) := hr
        exact hlive (congrArg Except.ok (Except.ok.inj hvalue))
      | error thrown =>
        have herror : (Except.error ((w'.engine e).heap.throwing thrown) :
          Except Throw Value) = .ok (.object r) := hr
        cases herror

end Engine

namespace World.Lawful

variable {pledges : EngineId → List ObjectRef} {w : World σ} {d : ObjectRef}

-- A promise about to be settled is settled, or follows another one.
lemma redeem (hw : w.Lawful diary (Function.update pledges e (d :: pledges e)))
    (he : w.HasEngine e) (f : Heap → Heap)
    (hp : (w.engine e).heap.Proceeds (d :: pledges e) (f (w.engine e).heap) (pledges e)) :
    (Act.updateHeap e f w).2.Lawful diary pledges ∧ w.Retains (Act.updateHeap e f w).2 := by
  have hbefore : (w.engine e).heap.Proceeds (Function.update pledges e (d :: pledges e) e)
      (f (w.engine e).heap) (pledges e) := (Function.update_self e _ pledges).symm ▸ hp
  have hnext := hw.modifyEngine e ({ · with heap := f (w.engine e).heap }) rfl hbefore
    fun hnot => absurd he hnot
  rw [Function.update_idem, Function.update_eq_self] at hnext
  exact ⟨hnext, .modifyEngine w e _⟩

end World.Lawful

namespace Engine

variable {pledges : EngineId → List ObjectRef} {w : World σ}

lemma runJob_lawful (hh : host.Lawful diary) (job : Job) (hjob : job.state ≠ .pending)
    (hw : w.Lawful diary (Function.update pledges e (job.reaction.derived :: pledges e)))
    (he : w.HasEngine e)
    (hvalue : job.state = .fulfilled → ∀ x, job.value = .object x → (w.engine e).heap.Roomy →
      (w.engine e).heap.objects.Issued x) :
    (runJob host e job w).2.Lawful diary pledges ∧ w.Retains (runJob host e job w).2 := by
  cases hhandler : job.reaction.handler job.state with
  | none =>
    simp only [runJob, hhandler]
    split
    · rename_i hstate
      exact hw.redeem he _ (Heap.proceeds_fulfil _ (hvalue hstate))
    · rename_i hstate
      exact hw.redeem he _ (Heap.proceeds_settle _ hjob fun hf => absurd hf hstate)
  | some handler =>
    obtain ⟨hcalled, hretains⟩ :=
      (lawful_basis hh []).call e handler .undefined [job.value] _ w hw (by simp)
    have hlive := call_returns hh e handler .undefined [job.value] _ w hw
    simp only [runJob, hhandler, bind, StateT.bind]
    generalize call host e handler .undefined [job.value] w = done at hcalled hretains hlive ⊢
    obtain ⟨result, w'⟩ := done
    have he' := hretains.hasEngine he
    cases result with
    | error thrown =>
      obtain ⟨hdone, hlast⟩ := hcalled.redeem he'
        (·.settle job.reaction.derived .rejected thrown.value) (Heap.proceeds_rejected _ _)
      exact ⟨hdone, hretains.trans hlast⟩
    | ok value =>
      have hissued : ∀ x, value = .object x → (w'.engine e).heap.Roomy →
          (w'.engine e).heap.objects.Issued x := by
        rintro x rfl hroom
        exact (hcalled.wellFormed he' hroom).issued_of_contains (hlive x rfl hroom)
      obtain ⟨hdone, hlast⟩ := hcalled.redeem he' (·.fulfil job.reaction.derived value)
        (Heap.proceeds_fulfil _ hissued)
      exact ⟨hdone, hretains.trans hlast⟩

end Engine

end HostBoundary
