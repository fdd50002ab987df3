import HostBoundary.Proofs.LawfulActs

namespace HostBoundary

open World

variable {σ α : Type} {host : Host σ} {diary : σ → List (World Unit)} {n : EnvironmentId}
  {e : EngineId} {given : List EnvironmentId} {w : World σ} {pledges : EngineId → List ObjectRef}

lemma World.hasEngine_of_job {job : Job} (hjob : job ∈ (w.engine e).heap.jobs) : w.HasEngine e := by
  by_contra hnot
  have hnone : w.engines[e.index]? = none := Array.getElem?_eq_none (Nat.le_of_not_lt hnot)
  simp [engine, Array.getD_eq_getD_getElem?, hnone, default, instInhabitedEngine.default,
    instInhabitedHeap.default] at hjob

namespace Engine

section Jobs

variable {pledges : EngineId → List ObjectRef} {w : World σ} {job : Job} {h : Heap}

lemma takeJob_of_some (hj : (w.engine e).heap.nextJob = some (job, h)) :
    takeJob e w = (some job, w.setHeap e h) := by
  simp only [takeJob, Act.onHeap, hj]

lemma takeJob_of_none (hj : (w.engine e).heap.nextJob = none) :
    takeJob e w = (none, w.setHeap e (w.engine e).heap) := by
  simp only [takeJob, Act.onHeap, hj]

lemma startJob_lawful (hh : host.Lawful diary) (hw : w.Lawful diary pledges)
    (hj : (w.engine e).heap.nextJob = some (job, h)) :
    (runJob host e job (w.setHeap e h)).2.Lawful diary pledges ∧
      w.Retains (runJob host e job (w.setHeap e h)).2 := by
  obtain ⟨hjobs, hobjects, -⟩ := Heap.nextJob_of_some hj
  have hmem : job ∈ (w.engine e).heap.jobs := hjobs ▸ List.mem_cons_self
  have he := hasEngine_of_job hmem
  obtain ⟨limits, events, hc⟩ := hw.history e he
  have hstarted := hw.modifyEngine e ({ · with heap := h }) rfl (Heap.proceeds_nextJob hj)
    fun hnot => absurd he hnot
  have hheap := heap_modifyEngine he h
  obtain ⟨hrun, hretains⟩ := runJob_lawful hh job (hc.job_settled job hmem) hstarted
    ((hasEngine_modifyEngine w e e _).mpr he) fun hstate x hx hroom => by
      rw [hheap, Heap.Roomy, hobjects] at hroom
      rw [hheap, hobjects]
      exact (hc.soundPromises hroom).value job hmem hstate x hx
  exact ⟨hrun, (World.Retains.modifyEngine w e _).trans hretains⟩

lemma runJobs_lawful (hh : host.Lawful diary) (given : List EnvironmentId) (e : EngineId)
    (budget : Nat) : Act.Lawful diary given (runJobs host e budget) := by
  induction budget with
  | zero => exact (hh.frame given).pure ()
  | succ budget ih =>
    intro pledges w hw hgiven
    simp only [runJobs, bind, StateT.bind]
    cases hj : (w.engine e).heap.nextJob with
    | none =>
      have hidle : Act.Lawful diary given (Act.onHeap e fun h => ((), h)) :=
        .onHeap e fun h pledged => .refl h pledged
      rw [takeJob_of_none hj]
      exact hidle pledges w hw hgiven
    | some next =>
      obtain ⟨job, h⟩ := next
      obtain ⟨hrun, hretains⟩ := startJob_lawful hh hw hj
      obtain ⟨hrest, hretains'⟩ :=
        ih pledges _ hrun fun n hn => hretains.has (hgiven n hn)
      rw [takeJob_of_some hj]
      exact ⟨hrest, hretains.trans hretains'⟩

end Jobs

end Engine

namespace Environment

section Promises

lemma toValue_lawful (hw : w.Lawful diary pledges) (hn : w.Has n) (value : Tagged) :
    (toValue n value w).2.Lawful diary pledges ∧ w.Retains (toValue n value w).2 ∧
    ∀ v, (toValue n value w).1 = some v →
      ((toValue n value w).2.engine (w.environment n).engine).heap.LiveValue v := by
  obtain ⟨hconverted, hretains⟩ := hw.onHeap (w.environment n).engine (·.ofTagged value)
    (.of_quietly (Heap.moves_ofTagged _ value).quietly _)
  refine ⟨hconverted, hretains, fun v hv => ?_⟩
  have hok : ((w.engine (w.environment n).engine).heap.ofTagged value).1 = .ok v := by
    have hsome : ((w.engine (w.environment n).engine).heap.ofTagged value).1.toOption = some v := hv
    cases hcase : ((w.engine (w.environment n).engine).heap.ofTagged value).1 with
    | error => simp [hcase, Except.toOption] at hsome
    | ok x => simpa [hcase, Except.toOption] using hsome
  have hheap : ((toValue n value w).2.engine (w.environment n).engine).heap =
      ((w.engine (w.environment n).engine).heap.ofTagged value).2 := by
    have hafter : (toValue n value w).2 = w.setHeap (w.environment n).engine
      ((w.engine (w.environment n).engine).heap.ofTagged value).2 := rfl
    rw [hafter, engine_modifyEngine, if_pos ⟨rfl, hw.accounted.engine n hn⟩]
  rw [hheap]
  exact Heap.liveValue_ofTagged _ value v hok

lemma settleWith_lawful (hh : host.Lawful diary) (hn : n ∈ given) (resolver : Handle)
    (value : Tagged) (f : Heap → ObjectRef → Value → Bool × Heap)
    (hf : ∀ (h : Heap) pledged s v, (h.Roomy → h.WellFormed) → h.LiveValue v →
      h.Proceeds pledged (f h s v).2 pledged) :
    Act.Lawful diary given (settleWith n resolver value f) := by
  have hframe := hh.frame given
  refine hframe.bind (hframe.bind (hframe.returning (hframe.environment n) _) fun e =>
    hframe.moves e fun h => h.moves_resolveHandle resolver) fun r => ?_
  intro pledges w hw hgiven
  obtain ⟨hconverted, hretains, hlive⟩ := toValue_lawful hw (hgiven n hn) value
  simp only [bind, StateT.bind]
  generalize toValue n value w = converted at hconverted hretains hlive ⊢
  obtain ⟨v, w'⟩ := converted
  cases r with
  | none => exact ⟨hconverted, hretains⟩
  | some r =>
    cases v with
    | none => exact ⟨hconverted, hretains⟩
    | some v =>
      have hn' := hretains.has (hgiven n hn)
      have hengine := hretains.engine n (hgiven n hn)
      obtain ⟨hdone, hlast⟩ := hconverted.onHeap (w'.environment n).engine (f · r v)
        (hf _ _ r v (hconverted.wellFormed (hconverted.accounted.engine n hn'))
          (hengine.symm ▸ hlive v rfl))
      exact ⟨hdone, hretains.trans hlast⟩

end Promises

section Scopes

lemma pushScope_lawful (hn : n ∈ given) : Act.Lawful diary given (pushScope n) := by
  intro pledges w hw hgiven
  rw [pushScope_apply]
  refine ⟨hw.push (hgiven n hn) _ rfl ?_,
    (World.Retains.modifyEngine w _ _).trans (.modifyEnvironment _ n _ rfl rfl)⟩
  simp only [level]
  omega

lemma popScope_lawful (hh : host.Lawful diary) (hn : n ∈ given) :
    Act.Lawful diary given (popScope host n) := by
  intro pledges w hw hgiven
  by_cases hd : (w.environment n).scopeDepth = 0
  · rw [popScope_of_zero w hd]
    exact ⟨hw, .refl w⟩
  · have hpopped : (popped n w).Lawful diary pledges := by
      refine hw.pop (hgiven n hn) _ rfl ?_ (.refl _)
      simp only [level]
      omega
    have hretains : w.Retains (popped n w) :=
      (World.Retains.modifyEnvironment w n _ rfl rfl).trans (.modifyEngine _ _ _)
    rw [popScope_of_pos w hd]
    split
    · obtain ⟨hdone, hlast⟩ := (hh.frame given).collectGarbage (w.environment n).engine pledges _
        hpopped fun m hm => hretains.has (hgiven m hm)
      exact ⟨hdone, hretains.trans hlast⟩
    · exact ⟨hpopped, hretains⟩

end Scopes

lemma register_lawful (n : EnvironmentId) (callback : Callback) :
    Act.Lawful diary given (modifyGet fun w =>
      let (data, tables) := (w.environment n).tables.register callback
      (data, w.modifyEnvironment n ({ · with tables })) : Act σ CallbackData) :=
  fun _ w hw _ => ⟨hw.modifyEnvironment n _ rfl rfl, .modifyEnvironment w n _ rfl rfl⟩

lemma makeWeak_lawful (n : EnvironmentId) (handle : Handle) (hook : Option ReclaimHook) :
    Act.Lawful diary given (makeWeak n handle hook) := by
  cases handle with
  | transient target => exact .of_eq (fun _ => rfl) (fun _ => rfl) fun _ => rfl
  | persistent slot =>
    intro pledges w hw _
    have hweak := hw.onHeap (w.environment n).engine (·.weaken slot hook)
      (.of_quietly (Heap.quietly_weaken _ slot hook) _)
    have hsame : (makeWeak n (.persistent slot) hook w).2 =
        (Act.onHeap (w.environment n).engine (·.weaken slot hook) w).2 := by
      simp only [makeWeak, Engine.bind_apply]
      split <;> rfl
    rw [hsame]
    exact hweak

lemma newWeakReference_lawful (hh : host.Lawful diary) (n : EnvironmentId) (object : Handle)
    (hook : Option ReclaimHook) :
    Act.Lawful diary given (newWeakReference n object hook) :=
  (hh.frame given).newWeakReference n object hook fun handle => makeWeak_lawful n handle hook

lemma releaseHandle_lawful (n : EnvironmentId) (handle : Handle) :
    Act.Lawful diary given (releaseHandle n handle) :=
  fun _ w hw _ => hw.onHeap (w.environment n).engine (·.releaseHandle handle)
    (.of_quietly (Heap.quietly_releaseHandle _ handle) _)

lemma lawful_closed (hh : host.Lawful diary) (hn : n ∈ given) :
    Act.Closed host n fun act => Act.Lawful diary given act where
  toBasis := Engine.lawful_basis hh given
  register := register_lawful n
  addClass _ := .of_eq (fun _ => rfl) (fun _ => rfl) fun _ => rfl
  newInstance c := (hh.frame given).newInstance n c Engine.attachFinalizer_lawful
  newExternalBuffer e _ _ := .onHeap e fun h pledged =>
    .of_quietly (h.quietly_allocate _ rfl) pledged
  newResolver e := .onHeap e fun _ _ => Heap.proceeds_newResolver
  thenPromise e r f g := .onHeap e fun _ _ => Heap.proceeds_thenPromise r f g
  resolvePromise r v := settleWith_lawful hh hn r v _ fun _ _ s _ hwf hv =>
    Heap.proceeds_resolve hwf s hv
  rejectPromise r v := settleWith_lawful hh hn r v _ fun _ _ s v _ _ => Heap.proceeds_reject s v
  runMicrotasks e := Engine.runJobs_lawful hh given e _

lemma perform_lawful (hh : host.Lawful diary) (hn : n ∈ given) (op : Environment.Operation.Known) :
    Act.Lawful diary given (Environment.perform host n op) := by
  have hframe := hh.frame given
  have hclosed := lawful_closed hh hn
  refine hclosed.perform op (fun hop => ?_)
    (hclosed.perform_of_stores (Engine.lawful_setting hh given) op)
  cases op with
  | pushScope => exact hframe.bind (pushScope_lawful hn) fun _ => hframe.pure _
  | popScope => exact hframe.bind (popScope_lawful hh hn) fun _ => hframe.pure _
  | newWeakReference o hook => exact hframe.returning (newWeakReference_lawful hh n o hook) _
  | makeWeak o hook => exact hframe.returning (makeWeak_lawful n o hook) _
  | deleteReference o =>
    exact hframe.bind (hframe.map (releaseHandle_lawful n o) _) fun _ => hframe.pure _
  | _ => exact absurd hop (by simp [Operation.plain])

section Attach

variable {pledges : EngineId → List ObjectRef} {w : World σ}

lemma attach_lawful (hh : host.Lawful diary) (hw : w.Lawful diary pledges) (he : w.HasEngine e) :
    (attach e w).2.Lawful diary pledges ∧ w.Retains (attach e w).2 := by
  have hacquire : ∀ n, Act.Lawful diary [] (acquire n) := fun n =>
    (hh.frame []).acquire n
  cases ha : (w.engine e).attached with
  | some n =>
    rw [attach_of_some w e n ha]
    exact hacquire n pledges w hw (by simp)
  | none =>
    obtain ⟨hdone, hlast⟩ := hacquire ⟨w.environments.size⟩ pledges _ (hw.seated he) (by simp)
    rw [attach_of_none w e ha]
    exact ⟨hdone, (Retains.seated w e).trans hlast⟩

lemma negotiate_lawful (hh : host.Lawful diary) (hw : w.Lawful diary pledges) (he : w.HasEngine e)
    (version : Int32) :
    (negotiate e version w).2.Lawful diary pledges ∧ w.Retains (negotiate e version w).2 := by
  unfold negotiate
  split
  · exact attach_lawful hh hw he
  · exact ⟨hw, .refl w⟩

end Attach

end Environment

lemma Foreign.endContext_lawful (hh : host.Lawful diary) (given : List EnvironmentId)
    (context : UInt64) : Act.Lawful diary given (Foreign.endContext host context) := by
  have hframe := hh.frame given
  refine hframe.bind hframe.get fun w => ?_
  split
  · exact hframe.bind (.of_eq (fun _ => rfl) (fun _ => rfl) fun _ => rfl) fun _ =>
      hframe.bind (hframe.teardown _) fun _ => hframe.bind (hframe.reap _) fun _ => hframe.pure _
  · exact hframe.pure _

lemma Foreign.getEnvironment_lawful (hh : host.Lawful diary) (hw : w.Lawful diary pledges)
    (context : UInt64) (version : Int32)
    (hthere : ∀ e, w.contexts.lookup context = some e → w.HasEngine e) :
    (Foreign.getEnvironment context version w).2.Lawful diary pledges ∧
      w.Retains (Foreign.getEnvironment context version w).2 := by
  simp only [getEnvironment, bind, StateT.bind, MonadState.get, getThe, MonadStateOf.get,
    StateT.get, pure]
  cases hlookup : w.contexts.lookup context with
  | none => exact ⟨hw, .refl w⟩
  | some e => exact Environment.negotiate_lawful hh hw (hthere e hlookup) version

namespace Action

-- What hosts may ask for: whatever is possible, and the same through the flat interface.
def permitted (w : World σ) : Action → Bool
  | .foreign env _ => env.all (w.Has ·.environment)
  | action => action.possible w

lemma perform_lawful (hh : host.Lawful diary) (action : Action) (hw : w.Lawful diary pledges)
    (hp : action.permitted w = true) :
    (action.perform host w).2.Lawful diary pledges ∧ w.Retains (action.perform host w).2 := by
  have hframe := hh.frame []
  have hof : ∀ {β : Type} {act : Act σ β}, Act.Lawful diary [] act →
      (act w).2.Lawful diary pledges ∧ w.Retains (act w).2 := fun h => h pledges w hw (by simp)
  have hclosed : ∀ {n : EnvironmentId} {β : Type} {act : Act σ β}, w.Has n →
      Act.Lawful diary [n] act → (act w).2.Lawful diary pledges ∧ w.Retains (act w).2 :=
    fun hn h => h pledges w hw fun m hm => List.mem_singleton.mp hm ▸ hn
  have hadd : ∀ limits held, w.Retains (w.addEngine { heap := .fresh limits, held }).2 :=
    fun limits held => ⟨by simp [addEngine], Nat.le_refl _, fun _ _ => rfl, fun _ _ => rfl⟩
  cases action with
  | newEngine limits => exact ⟨hw.addEngine limits true, hadd limits true⟩
  | dropEngine e =>
    exact hof (hframe.bind (hframe.detach e fun _ => ⟨rfl, rfl, rfl⟩) fun _ => hframe.reap e)
  | convert e value => exact hof (hframe.moves e fun h => h.moves_ofTagged value)
  | resolveHandle e handle => exact hof (hframe.moves e fun h => h.moves_resolveHandle handle)
  | releaseHandle e handle =>
    exact hw.onHeap e (·.releaseHandle handle) (.of_quietly (Heap.quietly_releaseHandle _ handle) _)
  | attach e => exact Environment.attach_lawful hh hw (of_decide_eq_true hp)
  | negotiate e version => exact Environment.negotiate_lawful hh hw (of_decide_eq_true hp) version
  | acquire n => exact hof (hframe.acquire n)
  | drop n => exact hof (hframe.drop n hframe.reap)
  | teardown e => exact hof (hframe.teardown e)
  | operate n op =>
    exact hclosed (of_decide_eq_true hp) (Environment.perform_lawful hh List.mem_cons_self op)
  | request e r => exact absurd hp (by simp [permitted, possible])
  | foreign env call =>
    have hlawful : Act.Lawful diary (env.toList.map (·.environment))
        (discard (Foreign.perform host env call)) := by
      refine (hh.frame _).foreign env call fun n op hop => Environment.perform_lawful hh ?_ op
      obtain ⟨x, rfl, rfl⟩ := Foreign.Call.environment_of_operation? hop
      exact List.mem_singleton_self _
    refine hlawful pledges w hw fun m hm => ?_
    obtain ⟨x, hx, rfl⟩ := List.mem_map.mp hm
    obtain rfl := Option.mem_toList.mp hx
    exact of_decide_eq_true hp
  | registerContext e => exact ⟨hw.of_eq rfl rfl rfl, .of_eq rfl rfl⟩
  | newContext limits =>
    have hmade := hw.addEngine limits false
    exact ⟨hmade.of_eq rfl rfl rfl, (hadd limits false).trans (.of_eq rfl rfl)⟩
  | endContext context => exact hof (Foreign.endContext_lawful hh [] context)
  | getEnvironment context version =>
    refine Foreign.getEnvironment_lawful hh hw context version fun e he => ?_
    simp only [permitted, possible, he, Option.all_some] at hp
    exact of_decide_eq_true hp

end Action

-- Native code changes its own state. It adds nothing to its diary but the world that it sees.
def World.Notes (diary : σ → List (World Unit)) (w : World σ) (s : σ) : Prop :=
  diary s = diary w.host ∨ diary s = diary w.host ++ [w.seen]

-- A stretch of native code, from one world to another. It may do whatever hosts may ask for, in
-- any order, and need not close the scopes that it opens.
inductive Stretch (diary : σ → List (World Unit)) (host : Host σ) (w : World σ) :
    World σ → Prop where
  | start : Stretch diary host w w
  | think (w' : World σ) (s : σ) (hw : Stretch diary host w w') (hs : w'.Notes diary s) :
      Stretch diary host w { w' with host := s }
  | act (w' : World σ) (action : Action) (hw : Stretch diary host w w')
      (hp : action.permitted w' = true) : Stretch diary host w (action.perform host w').2

lemma Stretch.lawful (hh : host.Lawful diary) {w' : World σ} (hs : Stretch diary host w w')
    (hw : w.Lawful diary pledges) : w'.Lawful diary pledges ∧ w.Retains w' := by
  induction hs with
  | start => exact ⟨hw, .refl w⟩
  | think w' s _ hnotes ih => exact ⟨ih.1.think hnotes, ih.2.trans (.of_eq rfl rfl)⟩
  | act w' action _ hp ih =>
    obtain ⟨hdone, hlast⟩ := action.perform_lawful hh ih.1 hp
    exact ⟨hdone, ih.2.trans hlast⟩

-- A host of native routines, each of which is a stretch of native code. Routines that they call are
-- of the same kind.
inductive Host.Native (diary : σ → List (World Unit)) : Host σ → Prop where
  | idle (host : Host σ)
      (hvisit : ∀ visit w, ∃ s, w.Notes diary s ∧ (host.visit visit w).2 = { w with host := s }) :
      host.Native diary
  | nested (host : Host σ) (inner : Visit → World σ → Host σ)
      (hinner : ∀ visit w, (inner visit w).Native diary)
      (hvisit : ∀ visit w, visit.Valid w →
        Stretch diary (inner visit w) w (host.visit visit w).2) :
      host.Native diary

lemma Host.Native.lawful (hn : host.Native diary) : host.Lawful diary := by
  induction hn with
  | idle host hvisit =>
    intro visit pledges w _ hw
    obtain ⟨s, hs, hafter⟩ := hvisit visit w
    rw [hafter]
    exact ⟨hw.think hs, .of_eq rfl rfl⟩
  | nested host inner _ hvisit ih =>
    intro visit pledges w hvalid hw
    exact (hvisit visit w hvalid).lawful (ih visit w) hw

-- The worlds that a host gets to, starting from nothing and with an empty diary.
def World.Reached (diary : σ → List (World Unit)) (host : Host σ) (w : World σ) : Prop :=
  ∃ s, diary s = [] ∧ Stretch diary host { host := s } w

lemma World.Reached.lawful (hn : host.Native diary) (hw : w.Reached diary host) :
    w.Lawful diary fun _ => [] := by
  obtain ⟨s, hs, hstretch⟩ := hw
  exact (hstretch.lawful hn.lawful (.empty hs)).1

end HostBoundary
