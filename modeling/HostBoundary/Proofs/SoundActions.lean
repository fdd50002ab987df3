import HostBoundary.Proofs.Actions
import HostBoundary.Proofs.Lending

namespace HostBoundary

open Act (Orderly Meets any)

variable {σ α : Type} {host : Host σ} {n : EnvironmentId} {e : EngineId} {pre : Heap → Prop}
  {r : ObjectRef} {f : α → Answer} {w : World σ}

namespace Environment

def Answer.object? : Answer → Option ObjectRef
  | .handle (some (.transient r)) | .tagged (some (.object _ (.transient r))) => some r
  | _ => none

lemma Answer.object?_handle {x : Option Handle} (h : (handle x).object? = some r) :
    x = some (.transient r) := by
  simp only [object?] at h
  split at h <;> simp_all

lemma Answer.object?_tagged {x : Option Tagged} (h : (tagged x).object? = some r) :
    ∃ kind, x = some (.object kind (.transient r)) := by
  simp only [object?] at h
  split at h <;> simp_all

namespace Operation

def reads : Known → Bool
  | .getGlobal _ _ | .getProperty _ _ _ | .getIndex _ _ _ | .promiseResult _ _
  | .typedArrayBuffer _ | .dataViewBuffer _ => true
  | _ => false

def scopes : Known → Bool
  | .pushScope | .popScope => true
  | _ => false

-- An object that is lent is pinned. Only one that was read out of another object may not be,
-- and then there is such an object.
def Lends (op : Known) (answer : Answer) (h : Heap) : Prop :=
  ∀ r, answer.object? = some r → h.Pinned r ∨ op.reads = true ∧ h.Stored r

section Lends

variable {op : Known} {v : View} {post : α → Heap → Prop} {act : Act σ α}

lemma lends_of_none (h : Meets v pre act post) (hf : ∀ x, (f x).object? = none) :
    Meets v pre (act >>= fun x => pure (f x)) op.Lends :=
  .returning (h.weaken fun x _ _ _ r hr => absurd hr (by simp [hf]))

lemma lends_none_of_orderly (h : Orderly act) (hf : ∀ x, (f x).object? = none) :
    Meets v pre (act >>= fun x => pure (f x)) op.Lends :=
  lends_of_none (.ofOrderly h) hf

lemma lends_handle {act : Act σ (Option Handle)} (h : Meets v pre act (LendsHandle Heap.Innermost)) :
    Meets v pre (do return .handle (← act)) op.Lends :=
  .returning (h.weaken fun _ _ _ hx r hr => .inl (hx r (Answer.object?_handle hr)).pinned)

lemma lends_allocated {act : Act σ Handle}
    (h : Meets v pre act fun x h => ∃ r, x = .transient r ∧ h.Innermost r) :
    Meets v pre (do return .handle (some (← act))) op.Lends := by
  refine .returning (h.weaken fun x h _ hx r hr => .inl ?_)
  obtain ⟨s, rfl, hs⟩ := hx
  obtain rfl : s = r := by simpa using Answer.object?_handle hr
  exact hs.pinned

lemma lends_value {act : Act σ (Option Tagged)} (h : Meets v pre act (LendsValue Heap.Innermost)) :
    Meets v pre (do return .tagged (← act)) op.Lends := by
  refine .returning (h.weaken fun x h _ hx r hr => .inl ?_)
  obtain ⟨kind, rfl⟩ := Answer.object?_tagged hr
  exact (hx kind r rfl).pinned

lemma lends_read {act : Act σ (Option Tagged)} (hop : op.reads = true)
    (h : Meets v pre act (LendsValue Heap.Within)) :
    Meets v pre (do return .tagged (← act)) op.Lends := by
  refine .returning (h.weaken fun x h _ hx r hr => ?_)
  obtain ⟨kind, rfl⟩ := Answer.object?_tagged hr
  rcases hx kind r rfl with hinner | hstored
  · exact .inl hinner.pinned
  · exact .inr ⟨hop, hstored⟩

lemma lends_buffer {act : Act σ (Option Handle)} (hop : op.reads = true)
    (h : Meets v pre act (LendsHandle Heap.Stored)) :
    Meets v pre (do return .handle (← act)) op.Lends :=
  .returning (h.weaken fun _ _ _ hx r hr => .inr ⟨hop, hx r (Answer.object?_handle hr)⟩)

lemma lends_reference {act : Act σ (Option Handle)}
    (h : Meets v pre act (LendsHandle fun _ _ => False)) :
    Meets v pre (do return .handle (← act)) op.Lends :=
  .returning (h.weaken fun _ _ _ hx r hr => (hx r (Answer.object?_handle hr)).elim)

end Lends

end Operation

lemma inspect_lends {op : Operation.Known} {β : Type} (handle : Handle)
    (f : Heap → ObjectRef → Option α) (g : Option α → β) (answer : β → Answer)
    (ha : ∀ x, (answer x).object? = none) :
    Meets (.environment n e) pre
      (do return answer (← (do return g (← inspect n handle f) : Act σ β))) op.Lends :=
  Operation.lends_of_none ((inspect_meets handle f).map_any g) ha

open Operation in
lemma perform_meets (hs : host.Steady) (op : Operation.Known) (hop : op.scopes = false) :
    Meets (.environment n e) any (perform host n op) op.Lends := by
  cases op with
  | info | getClass => exact lends_none_of_orderly (.returning (.environment n) _) fun _ => rfl
  | addReference => exact lends_none_of_orderly (Orderly.minor.addReference n) fun _ => rfl
  | releaseReference => exact lends_none_of_orderly (Orderly.minor.releaseReference n) fun _ => rfl
  | command code =>
    exact withEngine_meets (lends_none_of_orderly
      (Orderly.minor.command (Engine.collectGarbage_orderly hs e) code) fun _ => rfl)
  | hasException | exception => exact lends_none_of_orderly (.environment n) fun _ => rfl
  | takeException =>
    exact lends_none_of_orderly
      (.bind (.environment n) fun _ => .bind (.setException n {}) fun _ => .pure _) fun _ => rfl
  | clearException => exact lends_none_of_orderly (.setException n {}) fun _ => rfl
  | setException kind message => exact lends_none_of_orderly (.setException n _) fun _ => rfl
  | executeScript code file line flags => exact lends_value (executeScript_meets code file line flags)
  | registerCallback owner domain flags f =>
    exact lends_of_none (registerCallback_meets hs owner domain flags f) fun _ => rfl
  | newFunction flags f => exact lends_allocated (newFunction_meets flags f)
  | createClass parent definition =>
    refine .bind (createClass_meets definition parent) fun result => ?_
    split <;> exact .pure fun _ _ _ _ hr => absurd hr (by simp [Answer.object?])
  | newInstance c => exact lends_handle (newInstance_meets c)
  | newInstanceWithConstructor c args => exact lends_handle (newInstanceWithConstructor_meets hs c args)
  | classConstructor c => exact lends_handle (classConstructor_meets c)
  | objectType o | typedArrayType o | field _ o | length o | typedArrayCount o | dataViewLength o
  | arrayBufferLength o => exact inspect_lends o _ _ _ fun _ => rfl
  | newReference o => exact lends_reference (newReference_meets o)
  | newWeakReference o hook => exact lends_reference (newWeakReference_meets o hook)
  | makeWeak o hook => exact lends_reference (makeWeak_meets o hook)
  | deleteReference o =>
    exact lends_of_none ((onHeap_safely fun h _ _ => h.safely_releaseHandle o).map_any _) fun _ => rfl
  | setField i o word => exact lends_of_none (setField_meets i o word) fun _ => rfl
  | globalObject =>
    refine .returning (.returning (globalOf_meets.weaken fun r h _ hg s hs => .inl (.inr ?_)))
    obtain rfl : r = s := by simpa [wrap] using Answer.object?_handle hs
    exact hg
  | getGlobal key flags =>
    exact lends_read rfl (.bind globalOf_meets fun r => getOn_meets hs r key flags)
  | setGlobal key value =>
    exact lends_of_none (.bind globalOf_meets fun r => setOn_meets hs r key value) fun _ => rfl
  | getProperty o key flags => exact lends_read rfl (getProperty_meets hs o key flags)
  | setProperty o key value => exact lends_of_none (setProperty_meets hs o key value) fun _ => rfl
  | setPropertyValue o name value => exact lends_of_none (setProperty_meets hs o _ value) fun _ => rfl
  | propertyNames o => exact lends_handle (propertyNames_meets hs o)
  | getIndex o index flags => exact lends_read rfl (getIndex_meets hs o index flags)
  | setIndex o index value => exact lends_of_none (setIndex_meets hs o index value) fun _ => rfl
  | call this args f flags => exact lends_value (callFunction_meets hs f this args flags)
  | construct args f => exact lends_handle (callAsConstructor_meets hs f args)
  | newObject => exact lends_allocated (allocateBody_meets _ fun _ => rfl)
  | newArray length =>
    exact lends_allocated (allocateBody_meets _ fun _ => by
      simp +contextual [Body.references, Value.references, Value.object?])
  | newArrayWithValues args => exact lends_handle (newArrayWithValues_meets hs args)
  | newTypedArray kind count => exact lends_handle (newTypedArray_meets kind count)
  | newTypedArrayOnBuffer kind buffer offset count =>
    exact lends_handle (newTypedArrayOnBuffer_meets kind buffer offset count)
  | typedArrayBuffer o => exact lends_buffer rfl (viewBuffer_meets o Heap.stored_of_typedArray?)
  | typedArrayPointer o | readBuffer o => exact lends_of_none (inspect_meets o _) fun _ => rfl
  | newDataView buffer offset length => exact lends_handle (newDataView_meets buffer offset length)
  | dataViewBuffer o => exact lends_buffer rfl (viewBuffer_meets o Heap.stored_of_dataView?)
  | newArrayBuffer length => exact lends_handle (newArrayBuffer_meets length)
  | newExternalArrayBuffer memory release address =>
    exact lends_handle (newExternalArrayBuffer_meets memory release address)
  | writeBuffer o offset bytes => exact lends_of_none (writeContents_meets o offset bytes) fun _ => rfl
  | createResolver =>
    exact lends_allocated (allocated_meets fun h hsound =>
      ⟨h.safely_newResolver hsound, Heap.innermost_allocate _ _⟩)
  | resolverPromise o => exact lends_handle (resolverPromise_meets o)
  | resolve o value =>
    exact lends_of_none (settleWith_meets o value _ fun h r v hsound hv =>
      h.safely_resolve hsound r v hv) fun _ => rfl
  | reject o value =>
    exact lends_of_none (settleWith_meets o value _ fun h r v hsound hv =>
      h.safely_reject hsound r v hv) fun _ => rfl
  | promiseThen p f =>
    exact lends_of_none (handleWith_meets p f _ fun h p r hsound hr =>
      h.safely_thenPromise hsound p _ _ (fun _ hsome => Option.some.inj hsome ▸ hr) (by simp))
      fun _ => rfl
  | promiseCatch p f =>
    exact lends_of_none (handleWith_meets p f _ fun h p r hsound hr =>
      h.safely_thenPromise hsound p _ _ (by simp) fun _ hsome => Option.some.inj hsome ▸ hr)
      fun _ => rfl
  | promiseHandled p => exact inspect_lends p _ _ _ fun _ => rfl
  | promiseState p => exact lends_of_none (inspect_meets p _) fun _ => rfl
  | promiseResult p flags =>
    exact lends_read rfl ((promiseResult_meets p flags).weaken fun _ _ _ hx kind r hr =>
      .inr (hx kind r hr))
  | runMicrotasks =>
    exact withEngine_meets (lends_of_none
      ((Meets.ofEngine (Engine.runJobs_meets hs e _)).under) fun _ => rfl)
  | pushScope | popScope => exact absurd hop (by simp [scopes])

section Scopes

lemma pushScope_apply (n : EnvironmentId) (w : World σ) :
    (pushScope n w).2 = (w.setHeap (w.environment n).engine
      (w.engine (w.environment n).engine).heap.pushScope).modifyEnvironment n
        fun env => { env with scopeDepth := env.scopeDepth + 1 } := rfl

lemma pushScope_opens (hw : w.Sound) (hn : w.Has n) :
    World.Opens (fun x => if (w.environment n).engine = x then 1 else 0)
      (fun m => if n = m then 1 else 0) w (pushScope n w).2 := by
  have hpush := World.Opens.modifyEngine w (w.environment n).engine
    ({ · with heap := (w.engine (w.environment n).engine).heap.pushScope }) 1
    (Heap.opens_pushScope _ (hw.heap _).saturated)
  have hdepth := World.Opens.modifyEnvironment (w.setHeap (w.environment n).engine
    (w.engine (w.environment n).engine).heap.pushScope) n
    (fun env => { env with scopeDepth := env.scopeDepth + 1 }) 1 rfl rfl (.inr hn)
  have hboth := hpush.trans hdepth
  simp only [Nat.add_zero, Nat.zero_add] at hboth
  simpa only [pushScope_apply, eq_comm] using hboth

lemma pushScope_sound (hw : w.Sound) : (pushScope n w).2.Sound := by
  rw [pushScope_apply]
  have hglobal := (Heap.opens_pushScope _ (hw.heap (w.environment n).engine).saturated).global
  exact (hw.modifyEngine _ _ (Heap.sound_pushScope (hw.heap _)) hglobal rfl).modifyEnvironment n _ rfl

def popped (n : EnvironmentId) (w : World σ) : World σ :=
  (w.modifyEnvironment n ({ · with scopeDepth := (w.environment n).scopeDepth - 1 })).modifyEngine
    (w.environment n).engine ({ · with heap := (w.engine (w.environment n).engine).heap.popScope.2 })

lemma popScope_of_zero (w : World σ) (hd : (w.environment n).scopeDepth = 0) :
    (popScope host n w).2 = w := by
  simp only [popScope, Act.environment, bind, StateT.bind, hd]
  rfl

lemma popScope_of_pos (w : World σ) (hd : (w.environment n).scopeDepth ≠ 0) :
    (popScope host n w).2 =
      if (w.engine (w.environment n).engine).heap.popScope.1 = true then
        (Engine.collectGarbage host (w.environment n).engine (popped n w)).2
      else popped n w := by
  have hif : ((w.environment n).scopeDepth ≠ 0) = True := eq_true hd
  simp only [popScope, Act.environment, bind, StateT.bind, hif, if_true, Engine.popScope]
  change ((if (w.engine (w.environment n).engine).heap.popScope.1 = true then
    Engine.collectGarbage host (w.environment n).engine else pure () : Act σ Unit) (popped n w)).2 = _
  split <;> rfl

lemma popped_sound (hw : w.Sound) : (popped n w).Sound :=
  (hw.modifyEnvironment n _ rfl).modifyEngine _ _ (Heap.sound_popScope (hw.heap _))
    (Heap.global_popScope _) rfl

lemma popScope_sound (hs : host.Steady) (hw : w.Sound) : (popScope host n w).2.Sound := by
  by_cases hd : (w.environment n).scopeDepth = 0
  · rw [popScope_of_zero w hd]
    exact hw
  · rw [popScope_of_pos w hd]
    split
    · exact (Engine.collectGarbage_orderly hs _ _ (popped_sound hw)).2
    · exact popped_sound hw

lemma popScope_carries (hs : host.Steady) (hw : w.Sound) (hd : (w.environment n).scopeDepth ≠ 0) :
    (popped n w).Carries (popScope host n w).2 := by
  rw [popScope_of_pos w hd]
  split
  · exact (Engine.collectGarbage_orderly hs _ _ (popped_sound hw)).1
  · exact .refl _

end Scopes

end Environment

lemma Heap.sound_fresh (limits : HeapLimits) : (fresh limits).Sound := by
  have hempty := sound_empty limits
  have hl : ({ limits } : Heap).Safely (({ limits } : Heap).allocate (.ofBody .plain)).2 :=
    safely_allocate_ofBody _ _ (by simp [Body.references])
  have hsound := hl.sound hempty
  have hlive := hsound.live_of_innermost (innermost_allocate _ (.ofBody .plain))
  refine ⟨fun hroom => ?_, hsound.saturated⟩
  exact { hsound.intact hroom with global := fun r hr => Option.some.inj hr ▸ hlive hroom }

namespace World

lemma Opens.addEngine (w : World σ) (engine : Engine) : w.Carries (w.addEngine engine).2 where
  engines := by simp [World.addEngine]
  environments := Nat.le_refl _
  engine _ _ := rfl
  depth _ := rfl
  heap d hd := by
    rw [engine_addEngine, if_neg (Nat.ne_of_lt hd)]
    exact .refl _

lemma Sound.addEngine (hs : w.Sound) (engine : Engine) (hheap : engine.heap.Sound)
    (hglobal : engine.heap.global.isSome = true) (hd : engine.dispatcher = none) :
    (w.addEngine engine).2.Sound where
  heap d := by
    rw [engine_addEngine]
    split
    · exact hheap
    · exact hs.heap d
  global := forall_addEngine (P := fun _ engine => engine.heap.global.isSome = true) hs.global
    fun _ _ => hglobal
  __ := hs.wired.addEngine engine hd

lemma sound_empty (s : σ) : ({ host := s } : World σ).Sound where
  heap e := by
    simp only [World.engine, Array.getD_eq_getD_getElem?]
    exact Heap.sound_empty default
  global e he := absurd he (by simp [HasEngine])
  engine n hn := absurd hn (by simp [Has])
  dispatcher e n hd := by
    simp [World.engine, Array.getD_eq_getD_getElem?, default, instInhabitedEngine.default] at hd

end World

lemma Environment.negotiate_meets (e : EngineId) (version : Int32) :
    Meets (.engine e) any (negotiate e version : Act σ (Option ForeignEnvironment))
      fun _ _ => True := by
  unfold negotiate
  split
  · exact .returning ((attach_meets e).weaken fun _ _ _ _ => trivial)
  · exact .pure fun _ _ _ => trivial

lemma Foreign.endContext_orderly (hs : host.Steady) (context : UInt64) :
    Orderly (endContext host context) := by
  refine .bind .get fun w => ?_
  split
  · refine .bind (fun w hw => ⟨.of_eq rfl rfl, hw.of_eq rfl rfl⟩) fun _ =>
      .bind (Orderly.minor.teardown _) fun _ =>
        .bind (Environment.reap_orderly hs _) fun _ => .pure true
  · exact .pure false

lemma Foreign.getEnvironment_carries (w : World σ) (hw : w.Sound) (context : UInt64)
    (version : Int32) (hthere : ∀ e, w.contexts.lookup context = some e → w.HasEngine e) :
    w.Carries (getEnvironment context version w).2 ∧ (getEnvironment context version w).2.Sound := by
  simp only [getEnvironment, bind, StateT.bind, MonadState.get, getThe, MonadStateOf.get, StateT.get,
    pure]
  cases hlookup : w.contexts.lookup context with
  | none => exact ⟨.refl w, hw⟩
  | some e =>
    obtain ⟨hc, hsound, -⟩ :=
      Environment.negotiate_meets e version w hw (hthere e hlookup) trivial
    exact ⟨hc, hsound⟩

namespace Action

-- What an action names is there. Requests that go past the environments to an engine are not
-- for hosts to make.
def possible (w : World σ) : Action → Bool
  | .operate n _ => w.Has n
  | .attach e | .negotiate e _ => w.HasEngine e
  | .getEnvironment context _ => (w.contexts.lookup context).all (w.HasEngine ·)
  | .foreign _ _ | .request _ _ => false
  | _ => true

def scopes : Action → Bool
  | .operate _ op => op.scopes
  | _ => false

lemma perform_carries (hs : host.Steady) (action : Action) (w : World σ) (hw : w.Sound)
    (hp : action.possible w = true) (hscopes : action.scopes = false) :
    w.Carries (action.perform host w).2 ∧ (action.perform host w).2.Sound := by
  have hof : ∀ {β : Type} {act : Act σ β}, Orderly act → w.Carries (act w).2 ∧ (act w).2.Sound :=
    fun h => h w hw
  cases action with
  | newEngine limits =>
    exact ⟨.addEngine w _, hw.addEngine _ (Heap.sound_fresh limits) rfl rfl⟩
  | dropEngine e =>
    exact hof (.bind (.updateEngine e (fun _ => rfl) fun _ => rfl) fun _ =>
      Environment.reap_orderly hs e)
  | convert e value =>
    exact hof (Orderly.onHeap e fun h hsound =>
      ⟨(h.safely_ofTagged value).opens, (h.safely_ofTagged value).sound hsound⟩)
  | resolveHandle e handle =>
    exact hof (Orderly.onHeap e fun h hsound =>
      ⟨(h.safely_resolveHandle handle).opens, (h.safely_resolveHandle handle).sound hsound⟩)
  | releaseHandle e handle =>
    exact hof (Orderly.onHeap e fun h hsound =>
      ⟨(h.safely_releaseHandle handle).opens, (h.safely_releaseHandle handle).sound hsound⟩)
  | attach e =>
    have he : w.HasEngine e := of_decide_eq_true hp
    obtain ⟨hc, hsound, -⟩ := Environment.attach_meets e w hw he trivial
    exact ⟨hc, hsound⟩
  | negotiate e version =>
    have he : w.HasEngine e := of_decide_eq_true hp
    obtain ⟨hc, hsound, -⟩ := Environment.negotiate_meets e version w hw he trivial
    exact ⟨hc, hsound⟩
  | acquire n => exact hof (Orderly.minor.acquire n)
  | drop n => exact hof (Orderly.minor.drop n (Environment.reap_orderly hs))
  | teardown e => exact hof (Orderly.minor.teardown e)
  | operate n op =>
    have hn : w.Has n := of_decide_eq_true hp
    have hin : (View.environment n (w.environment n).engine).In w := ⟨hw.engine n hn, hn, rfl⟩
    obtain ⟨hc, hsound, -⟩ := Environment.perform_meets hs op hscopes w hw hin trivial
    exact ⟨hc, hsound⟩
  | request | foreign => exact absurd hp (by simp [possible])
  | registerContext e => exact ⟨.of_eq rfl rfl, hw.of_eq rfl rfl⟩
  | newContext limits =>
    have hadd := World.Opens.addEngine w { heap := .fresh limits }
    have hsound := hw.addEngine { heap := .fresh limits } (Heap.sound_fresh limits) rfl rfl
    have hnumber : (w.addEngine { heap := .fresh limits }).2.Carries
        (Action.perform host (.newContext limits) w).2 := .of_eq rfl rfl
    exact ⟨hadd.trans hnumber, hsound.of_eq rfl rfl⟩
  | endContext context => exact hof (Foreign.endContext_orderly hs context)
  | getEnvironment context version =>
    refine Foreign.getEnvironment_carries w hw context version fun e he => ?_
    simp only [possible, he, Option.all_some] at hp
    exact of_decide_eq_true hp

end Action

end HostBoundary
