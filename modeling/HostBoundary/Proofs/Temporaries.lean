import HostBoundary.Proofs.Keeping

namespace HostBoundary

variable {w w' : World σ} {h h' : Heap} {d : EngineId} {c : Completion}

namespace Heap

lemma saturated_apply (h : Heap) (op : Operation) (hs : h.Saturated) : (h.apply op).2.Saturated := by
  cases op with
  | pushScope => exact h.saturated_pushScope hs
  | popScope => exact h.saturated_popScope hs
  | setGlobal r => exact hs
  | collect => exact h.opens_collect.saturated hs
  | _ =>
    refine Opens.saturated (Operation.Lasting.opens ?_) hs
    trivial

namespace Grown

variable {h h' : Heap} (hg : h.Grown)

include hg

lemma saturated : h.Saturated := by
  obtain ⟨limits, hgrown⟩ := hg
  have hinitial : (initial limits).Saturated := fun hpos => absurd hpos (Nat.lt_irrefl 0)
  induction hgrown with
  | refl => exact hinitial
  | tail _ hstep ih =>
    obtain ⟨op, -, rfl⟩ := hstep
    exact saturated_apply _ op ih

lemma live_allocate (o : HeapObject) : (h.allocate o).2.Live (h.allocate o).1 := by
  intro hroom
  have hbefore : h.Roomy := Nat.lt_of_le_of_lt (h.opens_allocate o).size hroom
  have hself := Arena.get?_insert_self h.objects (hg.wellFormed hbefore) hbefore o
  rw [isAlive, allocate_objects, Arena.contains]
  exact congrArg Option.isSome hself

end Grown

-- A heap with `k` more pushes open than before. What the scopes that were there keep is alive if
-- it was.
structure Nests (k : Nat) (h h' : Heap) : Prop where
  opens : Opens k h h'
  leads : h.Leads h'
  alive : ∀ r, h.Rooted r → h.isAlive r = true → h'.isAlive r = true

namespace Nests

variable {h h' h'' : Heap} {j k : Nat}

lemma refl (h : Heap) : Nests 0 h h := ⟨.refl h, .refl h, fun _ _ hr => hr⟩

lemma trans (hab : Nests j h h') (hbc : Nests k h' h'') : Nests (j + k) h h'' where
  opens := hab.opens.trans hbc.opens
  leads := hab.leads.trans hbc.leads
  alive r hr ha := hbc.alive r (hab.opens.rooted hr) (hab.alive r hr ha)

lemma op (op : Operation) (hop : op.Lasting) (hm : op.Mild h) : Nests 0 h (h.apply op).2 :=
  ⟨hop.opens, .op op hm, fun r _ => hop.alive r⟩

lemma collect (h : Heap) : Nests 0 h h.collect.2 where
  opens := h.opens_collect
  leads := .op .collect trivial
  alive r hr ha := by
    refine (isAlive_collect_iff h r).mpr ⟨ha, .root r ?_⟩
    rcases (h.rooted_iff r).mp hr with hbase | ⟨scope, hs, hmem⟩
    · exact .base r hbase
    · exact .scope scope r hs hmem

lemma pushScope (hs : h.Saturated) : Nests 1 h h.pushScope where
  opens := h.opens_pushScope hs
  leads := .op .pushScope trivial
  alive r _ ha := by rwa [isAlive, pushScope_objects]

lemma popScope (hn : Nests (k + 1) h h') : Nests k h h'.popScope.2 where
  opens := hn.opens.popScope
  leads := hn.leads.trans (.op .popScope trivial)
  alive r hr ha := by
    rw [isAlive, popScope_objects]
    exact hn.alive r hr ha

lemma leave (hn : Nests (k + 1) h h') (c : Completion) : Nests k h (h'.leave c) := by
  unfold Heap.leave
  split
  · exact hn.popScope.trans (.op (.root _) trivial trivial)
  · exact hn.popScope

lemma hold (h : Heap) (target : ObjectRef) (hook : Option ReclaimHook) :
    Nests 0 h (h.hold target hook).2 := by
  have hp : Nests 0 h (h.persist target).2 := .op (.persist target) trivial trivial
  unfold Heap.hold
  split <;> rename_i heq <;> rw [heq] at hp
  · exact hp.trans (.op (.weaken _ hook) trivial trivial)
  · exact hp

lemma setField (h : Heap) (r : ObjectRef) (i : FieldIndex) (word : Pointer) :
    Nests 0 h (h.setField r i word).2 := by
  unfold Heap.setField
  split
  · exact .op (.mutate r _) trivial fun o _ => .of_properties rfl rfl
  · exact .refl h

end Nests

lemma Deed.Plain.nests {d : Deed} (hp : d.Plain h) : Nests 0 h (h.enact d) := by
  cases d with
  | hold target hook => exact .hold h target hook
  | assign r i word => exact .setField h r i word
  | op op =>
    cases op with
    | pushScope | popScope | setGlobal | weaken | dispose | collect | drainReleases =>
      exact False.elim hp
    | mutate r change => exact .op _ trivial fun o ho => (hp o ho).1
    | mutateTemplate r change => exact .op _ trivial hp
    | _ => exact .op _ trivial trivial

lemma Plainly.nests (hl : h.Plainly h') : Nests 0 h h' := by
  induction hl with
  | refl => exact .refl h
  | tail _ hstep ih =>
    obtain ⟨d, hp, rfl⟩ := hstep
    exact ih.trans hp.nests

end Heap

variable {σ α : Type} {host : Host σ} {n : EnvironmentId} {e : EngineId}

namespace World

-- On one engine `k` more pushes are open than before.
def Nests (e : EngineId) (k : Nat) (w w' : World σ) : Prop :=
  w.HasEngine e → (w.engine e).heap.Grown →
    w'.HasEngine e ∧ Heap.Nests k (w.engine e).heap (w'.engine e).heap

namespace Nests

variable {w w' w'' : World σ} {j k : Nat} {h : Heap}

lemma trans (hab : Nests e j w w') (hbc : Nests e k w' w'') : Nests e (j + k) w w'' := by
  intro he hg
  obtain ⟨he', hfirst⟩ := hab he hg
  obtain ⟨he'', hsecond⟩ := hbc he' (hg.leads hfirst.leads)
  exact ⟨he'', hfirst.trans hsecond⟩

lemma of_eq (hsize : w'.engines.size = w.engines.size)
    (hheap : (w'.engine e).heap = (w.engine e).heap) : Nests e 0 w w' := by
  intro he _
  rw [hheap]
  exact ⟨by rwa [HasEngine, hsize], .refl _⟩

lemma replaced (hr : w.Replaces e h w')
    (hn : (w.engine e).heap.Grown → Heap.Nests k (w.engine e).heap h) : Nests e k w w' := by
  intro he hg
  have hheap := hr.heap e
  rw [heap_modifyEngine he] at hheap
  rw [hheap]
  exact ⟨(hr.hasEngine e).mpr he, hn hg⟩

lemma elsewhere (hd : d ≠ e) (hr : w.Replaces d h w') : Nests e 0 w w' := by
  refine .of_eq (congrArg Array.size hr.engines |>.trans (by simp [World.modifyEngine])) ?_
  rw [hr.heap e, engine_modifyEngine, if_neg fun hand => hd hand.1.symm]

lemma modifyEngine (w : World σ) (d : EngineId) (hn : Heap.Nests 0 (w.engine d).heap h) :
    Nests e 0 w (w.setHeap d h) := by
  by_cases hd : d = e
  · subst hd
    exact replaced (.modifyEngine w d h) fun _ => hn
  · exact elsewhere hd (.modifyEngine w d h)

end Nests

lemma Nests.native (h : Nests e 0 (w.entered d n) w') (c : Completion) :
    Nests e 0 w (Engine.left d n (c, w')).2 := by
  intro he hg
  have hentered : (w.entered d n).HasEngine e :=
    (hasEngine_modifyEngine w d e _).mpr he
  rw [Engine.left_apply]
  by_cases hd : d = e
  · subst hd
    have hheap : ((w.entered d n).engine d).heap = (w.engine d).heap.pushScope := by
      rw [World.entered, engine_modifyEnvironment, heap_modifyEngine he]
    have hpush : Heap.Nests 1 (w.engine d).heap ((w.entered d n).engine d).heap :=
      hheap ▸ .pushScope hg.saturated
    obtain ⟨hthere, hinside⟩ := h hentered (hg.leads hpush.leads)
    refine ⟨(hasEngine_modifyEngine _ d d _).mpr hthere, ?_⟩
    rw [engine_modifyEngine, if_pos ⟨rfl, hthere⟩]
    exact (hpush.trans hinside).leave c
  · have hheap : ((w.entered d n).engine e).heap = (w.engine e).heap := by
      rw [World.entered, engine_modifyEnvironment, engine_modifyEngine,
        if_neg fun hand => hd hand.1.symm]
    obtain ⟨hthere, hinside⟩ := h hentered (hheap ▸ hg)
    refine ⟨(hasEngine_modifyEngine _ d e _).mpr hthere, ?_⟩
    rw [engine_modifyEngine, if_neg fun hand => hd hand.1.symm]
    exact hheap ▸ hinside

lemma order_nests (e : EngineId) :
    Order (Nests e 0 : World σ → World σ → Prop) fun _ => Nests e 0 where
  refl _ := .of_eq rfl rfl
  trans hab hbc := hab.trans hbc
  heap w d _ hp := .modifyEngine w d hp.plainly.nests
  aside _ hsize hheap _ := .of_eq hsize (hheap e)
  addEngine w limits held := by
    intro he _
    refine ⟨(hasEngine_addEngine _ e).mpr (.inl he), ?_⟩
    rw [engine_addEngine, if_neg (Nat.ne_of_lt he)]
    exact .refl _
  native w w' d n c h := h.native c
  collect w w' d h :=
    Nests.trans (.modifyEngine w d (.collect _))
      (h.kept (fun _ => .of_eq rfl rfl) fun hab hbc => hab.trans hbc)
  reap w w' d _ h := by
    have hdrained : Nests e 0 w (w.setHeap d (w.engine d).heap.drainReleases.2) :=
      .modifyEngine w d (.op .drainReleases trivial trivial)
    have hreaped : Nests e 0 _ (w.reaped d) :=
      .of_eq (by simp [reaped, World.modifyEngine]) (w.heap_reaped d e)
    exact (hdrained.trans hreaped).trans
      (h.kept (fun _ => .of_eq rfl rfl) fun hab hbc => hab.trans hbc)
  external w d memory release := .modifyEngine w d (.op (.allocate _) trivial trivial)
  newborn w d r h f _ hb := .modifyEngine w d (hb.works.plainly.nests.trans (.hold h r (some f)))
  construct w w' d n r h f c _ hb hinside := by
    have hmade : Nests e 0 w (w.setHeap d h) :=
      .modifyEngine w d hb.works.plainly.nests
    have hattached : Nests e 0 ((w.setHeap d h).entered d n) _ :=
      hinside.trans (.modifyEngine w' d (.hold (w'.engine d).heap r (some f)))
    exact hmade.trans (hattached.native c)

end World

lemma attachFinalizer_nests {given : List EnvironmentId} (d : EngineId) (target : ObjectRef)
    (finalizer : ReclaimHook) : Act.Keeps (World.Nests e 0) given
      (Act.updateHeap d (Environment.attachFinalizer target finalizer) : Act σ Unit) := by
  intro w _ _
  refine (World.Replaces.modifyEngine w d _).goes (World.order_nests e) (.modifyEngine w d ?_)
  rw [Environment.attachFinalizer_eq]
  exact .hold (w.engine d).heap target (some finalizer)

-- What native code does, with the number of scopes of an engine that it has pushed and not popped
-- since.
inductive Balance (e : EngineId) (host : Host σ) (w : World σ) : Nat → World σ → Prop where
  | start : Balance e host w 0 w
  | think (k : Nat) (w' : World σ) (s : σ) (hw : Balance e host w k w') :
      Balance e host w k { w' with host := s }
  | act (k : Nat) (w' : World σ) (action : Action) (hw : Balance e host w k w')
      (hopens : action.opens w' ≠ some e) (hcloses : action.closes w' ≠ some e) :
      Balance e host w k (action.perform host w').2
  | push (k : Nat) (w' : World σ) (action : Action) (hw : Balance e host w k w')
      (hopens : action.opens w' = some e) : Balance e host w (k + 1) (action.perform host w').2
  | pop (k : Nat) (w' : World σ) (action : Action) (hw : Balance e host w (k + 1) w')
      (hcloses : action.closes w' = some e) : Balance e host w k (action.perform host w').2

-- Every routine pops exactly the scopes that it pushes on an engine.
def Host.Balanced (e : EngineId) (host : Host σ) : Prop :=
  host.Built (fun _ _ _ => True) fun inner _ w w' => Balance e inner w 0 w'

namespace Balance

open World (order_nests)

variable {w w' : World σ} {k : Nat}

lemma goes (hh : host.Keeps (World.Nests e 0) fun _ => World.Nests e 0) (hw : w.Staffed)
    (hb : Balance e host w k w') : w.Goes (World.Nests e k) w' := by
  have htrans : ∀ {j k : Nat} {a b c : World σ}, a.Goes (World.Nests e j) b →
      b.Goes (World.Nests e k) c → a.Goes (World.Nests e (j + k)) c := fun hab hbc =>
    ⟨fun ha => hbc.staffed (hab.staffed ha), hab.retains.trans hbc.retains, hab.kept.trans hbc.kept⟩
  induction hb with
  | start => exact .refl (order_nests e) w
  | think k w' s _ ih => exact htrans ih (.think w' s (.of_eq rfl rfl))
  | act k w' action _ hopens hcloses ih =>
    have hstaffed := ih.staffed hw
    refine htrans ih (action.perform_goes (order_nests e) hh hstaffed
      ⟨Action.perform_of_stores (order_nests e) hh ?_ hstaffed, ?_, ?_, ?_, ?_⟩)
    · exact fun w d h hs => .modifyEngine w d hs.discreetly.plainly.nests
    · exact fun d hd => .elsewhere (fun hde => hopens (hde ▸ hd)) (.modifyEngine w' d _)
    · exact fun d hd => .elsewhere (fun hde => hcloses (hde ▸ hd)) (.modifyEngine w' d _)
    · rintro d slot - op (rfl | ⟨hook, rfl⟩)
      · exact .modifyEngine w' d (.op (.dispose slot) trivial trivial)
      · exact .modifyEngine w' d (.op (.weaken slot hook) trivial trivial)
    · exact fun d slot _ h r f hl _ => .modifyEngine w' d (hl.plainly.nests.trans (.hold h r (some f)))
  | push k w' action _ hopens ih =>
    have hr : w'.Replaces e _ (action.perform host w').2 := action.perform_of_opens hopens
    exact htrans ih ⟨hr.staffed, hr.retains, .replaced hr fun hg => .pushScope hg.saturated⟩
  | pop k w' action _ hcloses ih =>
    obtain ⟨w₁, hr, hdone⟩ : Action.Closing host w' e _ := Action.perform_of_closes hcloses
    -- The pop closes the last push of this stretch, so it is counted from where the stretch began.
    have hpopped : w.Goes (World.Nests e k) w₁ := by
      refine ⟨fun h => hr.staffed (ih.staffed h), ih.retains.trans hr.retains, fun he hg => ?_⟩
      obtain ⟨hthere, hnests⟩ := ih.kept he hg
      have hheap := hr.heap e
      rw [World.heap_modifyEngine hthere] at hheap
      rw [hheap]
      exact ⟨(hr.hasEngine e).mpr hthere, hnests.popScope⟩
    rcases hdone with hdone | hdone <;> rw [hdone]
    · exact hpopped
    · exact htrans hpopped
        ((hh.frame (order_nests e) []).collectGarbage e w₁ (hpopped.staffed hw) (by simp))

end Balance

lemma Host.Balanced.keeps (hb : host.Balanced e) :
    host.Keeps (World.Nests e 0) fun _ => World.Nests e 0 := by
  refine Host.Built.keeps (fun visit w s _ => ?_) (fun host hk visit w w' hw hb => ?_) hb
  · rw [visit.relation_same]
    exact .of_eq rfl rfl
  · rw [visit.relation_same]
    exact hb.goes hk hw

-- Native code of an environment may run, and the heap it works on came from nothing.
structure World.Ready (e : EngineId) (n : EnvironmentId) (w : World σ) : Prop where
  staffed : w.Staffed
  there : (View.environment n e).In w
  grown : (w.engine e).heap.Grown

lemma World.Ready.goes (hw : w.Ready e n) (hg : w.Goes (Nests e 0) w') : w'.Ready e n := by
  obtain ⟨he, hn, hengine⟩ := hw.there
  obtain ⟨he', hnests⟩ := hg.kept he hw.grown
  exact ⟨hg.staffed hw.staffed, ⟨he', hg.retains.has hn, (hg.retains.engine n hn).trans hengine⟩,
    hw.grown.leads hnests.leads⟩

-- An object that a native call returns or throws is there, unless it is one that is spared.
def Act.Yields (e : EngineId) (n : EnvironmentId) (spared : ObjectRef → Prop)
    (act : Act σ Completion) : Prop :=
  ∀ w : World σ, w.Ready e n → ∀ r, (act w).1.value = .object r →
    spared r ∨ ((act w).2.engine e).heap.Live r

namespace Environment

open Act (Yields)

variable {spared : ObjectRef → Prop}

lemma throwPending_yields :
    Yields e n spared (do return .error (← throwPending n) : Act σ Completion) := by
  intro w hw r hr
  obtain ⟨hvalue, hheap, -⟩ := throwPending_spec hw.there
  have hobject : (throwPending n w).1 = .object r := hr
  rw [hvalue] at hobject
  obtain rfl := Value.object.inj hobject
  refine .inr ?_
  change ((throwPending n w).2.engine e).heap.Live _
  rw [hheap]
  exact hw.grown.live_allocate _

lemma yields_pure {v : Value} (hv : ∀ r, v = .object r → spared r) :
    Yields e n spared (pure (.ok v) : Act σ Completion) :=
  fun _ _ r hr => .inl (hv r hr)

lemma yields_bind {act : Act σ α} {next : α → Act σ Completion}
    (hact : Act.Keeps (World.Nests e 0) [n] act) (h : ∀ x, Yields e n spared (next x)) :
    Yields e n spared (act >>= next) := by
  intro w hw r hr
  refine h (act w).1 (act w).2 (hw.goes (hact w hw.staffed fun m hm => ?_)) r hr
  exact List.mem_singleton.mp hm ▸ hw.there.2.1

lemma yields_environment {next : Environment → Act σ Completion}
    (h : ∀ env : Environment, env.engine = e → Yields e n spared (next env)) :
    Yields e n spared (Act.environment n >>= next) :=
  fun w hw => h (w.environment n) hw.there.2.2 w hw

lemma newError_yields (name : ErrorName) (message : String) :
    Yields e n spared (do return .error (← Act.onHeap e (·.newError name message)) : Act σ Completion) := by
  intro w hw r hr
  have hobject : ((w.engine e).heap.newError name message).1 = .object r := hr
  obtain rfl := Value.object.inj hobject
  refine .inr ?_
  change ((w.setHeap e ((w.engine e).heap.newError name message).2).engine
    e).heap.Live _
  rw [World.heap_modifyEngine hw.there.1]
  exact hw.grown.live_allocate _

section Calls

variable (hh : host.Keeps (World.Nests e 0) fun _ => World.Nests e 0)

include hh

lemma keeps_visits : Act.Visits host n fun act => Act.Keeps (World.Nests e 0) [n] act :=
  hh.visits (World.order_nests e) List.mem_cons_self

lemma throwNative_yields (exception : Exception) :
    Yields e n spared (do
      Act.setException n exception
      return .error (← throwPending n) : Act σ Completion) :=
  yields_bind ((keeps_visits hh).setException n exception) fun _ => throwPending_yields

lemma complete_yields (result : Option Tagged) :
    Yields e n spared (complete n result : Act σ Completion) := by
  intro w hw r hr
  have hgiven : ∀ m ∈ [n], w.Has m := fun m hm => List.mem_singleton.mp hm ▸ hw.there.2.1
  cases hset : (w.environment n).exception.isSet with
  | true =>
    rw [complete_of_set w result hset] at hr ⊢
    exact throwPending_yields w hw r hr
  | false =>
    cases result with
    | none =>
      rw [complete_none hset] at hr
      exact absurd hr (by simp [Completion.value])
    | some value =>
      cases hv : ((w.engine (w.environment n).engine).heap.ofTagged value).1 with
      | error refused =>
        have hconverted : Act.Keeps (World.Nests e 0) [n]
            (Act.onHeap (w.environment n).engine (·.ofTagged value) : Act σ _) :=
          (keeps_visits hh).moves _ fun h => h.moves_ofTagged value
        rw [complete_of_refused hset hv] at hr ⊢
        exact throwNative_yields hh _ _ (hw.goes (hconverted w hw.staffed hgiven)) r hr
      | ok v =>
        have hready := hw.goes ((keeps_visits hh).complete (some value) w hw.staffed hgiven)
        have hdelivers : Act.Delivers n (complete n (some value) : Act σ Completion) :=
          complete_delivers (some value)
        have hlive := hdelivers w r
        rw [hready.there.2.2] at hlive
        refine .inr (hlive ?_)
        rw [complete_of_ok hset hv] at hr ⊢
        exact congrArg Except.ok hr

lemma invoke_yields (f : NativeFunction) (flags : Flags) (this : Option Handle)
    (args : List Value) : Yields e n spared (invoke host n f flags this args) := by
  refine yields_environment fun env _ => yields_bind ((keeps_visits hh).heap env.engine) fun h => ?_
  split
  · exact yields_bind ((keeps_visits hh).callBy f this _) fun result => complete_yields hh result
  · exact throwNative_yields hh _

lemma assign_yields (name : String) (setter : NativeFunction) (flags : Flags) (this : Option Handle)
    (value : Value) : Yields e n spared (assign host n name setter flags this value) := by
  have hvisits : Act.Visits host n _ := keeps_visits hh
  refine yields_environment fun env _ => yields_bind (hvisits.heap env.engine) fun h => ?_
  split
  · exact throwNative_yields hh _
  · have hrest : ∀ accepted : Bool, Yields e n spared (do
        if !accepted && !(← Act.environment n).exception.isSet then
          Act.setException n (.native s!"property '{name}' rejected the assigned value")
        complete n none : Act σ Completion) := by
      refine fun accepted => yields_bind (hvisits.environment n) fun env => ?_
      dsimp only
      split
      · exact yields_bind (hvisits.setException n _) fun _ => complete_yields hh none
      · exact complete_yields hh none
    dsimp only
    split
    · exact yields_bind (hvisits.setBy setter _ _) hrest
    · exact yields_bind (hvisits.pure false) hrest

lemma invokeMember_yields (member : MemberEntry) (i : Invocation) :
    Yields e n (fun r => i.kind = .construct ∧ i.this = .object r)
      (invokeMember host n member i) := by
  have hvisits : Act.Visits host n _ := keeps_visits hh
  unfold invokeMember
  dsimp only
  split
  · rename_i function flags finalizer hkind
    -- A constructor throws what its routine throws, and otherwise returns its receiver.
    intro w hw r hr
    have hinvoke : Yields e n (fun r => i.kind = .construct ∧ i.this = .object r) _ :=
      invoke_yields hh function flags (i.this.object?.map Handle.transient) i.args
    have hthrown := hinvoke w hw r
    simp only [Engine.bind_apply] at hr ⊢
    generalize invoke host n function flags (i.this.object?.map Handle.transient) i.args w = done
      at hr hthrown ⊢
    obtain ⟨c, w₁⟩ := done
    cases c with
    | error thrown => exact hthrown hr
    | ok v =>
      refine .inl ⟨hkind, ?_⟩
      cases hobject : i.this.object? <;> cases finalizer <;> simp only [hobject] at hr <;> exact hr
  · exact invoke_yields hh _ _ _ _
  · exact invoke_yields hh _ _ _ _
  · split
    · exact yields_bind (hvisits.getBy _ _) fun result => complete_yields hh result
    · exact complete_yields hh none
  · exact assign_yields hh _ _ _ _ _
  · exact yields_pure fun r hr => absurd hr (by simp)

lemma dispatch_yields (data : CallbackData) (i : Invocation) :
    Yields e n (fun r => i.kind = .construct ∧ i.this = .object r)
      (dispatch host n data i) := by
  refine yields_environment fun env henv => ?_
  split
  · rw [henv]
    exact newError_yields _ _
  · exact invoke_yields hh _ _ _ _
  · exact invoke_yields hh _ _ _ _
  · exact invokeMember_yields hh _ i

end Calls

end Environment

namespace Engine

lemma constructTarget_kept {w w₁ : World σ} {f target : ObjectRef} {data : CallbackData}
    (he : w.HasEngine e) (hg : (w.engine e).heap.Grown)
    (hc : constructTarget e f w = (.ok (data, target), w₁)) :
    (w₁.engine e).heap.Rooted target ∧ (w₁.engine e).heap.Live target := by
  obtain ⟨h, rfl, hmade⟩ := constructTarget_of_ok hc
  rw [World.heap_modifyEngine he]
  have hallocated : ∀ {h₁ : Heap} {o : HeapObject}, h₁.Grown → h₁.allocate o = (target, h) →
      h.Rooted target ∧ h.Live target := by
    intro h₁ o hgrown ho
    have hinnermost := h₁.innermost_allocate o
    have hlive := hgrown.live_allocate o
    rw [ho] at hinnermost hlive
    exact ⟨hinnermost.rooted, hlive⟩
  rcases hmade with ⟨-, hnew⟩ | ⟨t, -, -, hnew⟩
  · exact hallocated hg hnew
  · obtain ⟨h₁, template, prototype, hl, -, -, ho⟩ := Heap.newInstance_of_some hnew
    exact hallocated (hg.leads hl.leads) ho

-- Native calls as the engine makes them: what a constructor is to fill was made for it just before.
inductive Issues (e : EngineId) : World σ → Invocation → Prop where
  | plain (w : World σ) (i : Invocation) (hi : i.kind ≠ .construct) : Issues e w i
  | construct (w w₁ : World σ) (f target : ObjectRef) (data : CallbackData) (args : List Value)
      (hw : w.Regular) (he : w.HasEngine e)
      (hc : constructTarget e f w = (.ok (data, target), w₁)) :
      Issues e w₁ ⟨.construct, .object target, args⟩

lemma Issues.kept {w : World σ} {i : Invocation} (hi : Issues e w i) (hkind : i.kind = .construct)
    {r : ObjectRef} (hr : i.this = .object r) :
    (w.engine e).heap.Rooted r ∧ (w.engine e).heap.Live r := by
  cases hi with
  | plain _ _ hne => exact absurd hkind hne
  | construct w₀ _ f target data args hw he hc =>
    obtain rfl := Value.object.inj hr
    exact constructTarget_kept he (hw.grown e he) hc

end Engine

namespace Heap

def Path (h : Heap) : ObjectRef → ObjectRef → Prop :=
  Relation.ReflTransGen fun r s => ∃ o, h.object? r = some o ∧ o.Refers s

lemma reachable_iff (h : Heap) (r : ObjectRef) : h.Reachable r ↔ ∃ s, h.Root s ∧ h.Path s r := by
  constructor
  · intro hr
    induction hr with
    | root r hr => exact ⟨r, hr, .refl⟩
    | edge r s o _ ho hs ih =>
      obtain ⟨t, ht, hpath⟩ := ih
      exact ⟨t, ht, hpath.tail ⟨o, ho, hs⟩⟩
  · rintro ⟨s, hs, hpath⟩
    induction hpath with
    | refl => exact .root s hs
    | tail _ hstep ih =>
      obtain ⟨o, ho, hr⟩ := hstep
      exact .edge _ _ o ih ho hr

def Anchored (h : Heap) (r : ObjectRef) : Prop := { h with base := [], pushed := [] }.Root r

lemma root_iff (h : Heap) (r : ObjectRef) : h.Root r ↔ h.Rooted r ∨ h.Anchored r := by
  rw [rooted_iff]
  constructor
  · intro hr
    cases hr with
    | base r hr => exact .inl (.inl hr)
    | scope scope r hs hr => exact .inl (.inr ⟨scope, hs, hr⟩)
    | global r hr => exact .inr (.global r hr)
    | persistent entry he hw => exact .inr (.persistent entry he hw)
    | templateFunction t r ht hr => exact .inr (.templateFunction t r ht hr)
    | templatePrototype t r ht hr => exact .inr (.templatePrototype t r ht hr)
    | jobReaction job r hj hr => exact .inr (.jobReaction job r hj hr)
    | jobValue job r hj hr => exact .inr (.jobValue job r hj hr)
  · rintro ((hr | ⟨scope, hs, hr⟩) | hr)
    · exact .base r hr
    · exact .scope scope r hs hr
    · cases hr with
      | base r hr => cases hr
      | scope scope r hs hr => cases hs
      | global r hr => exact .global r hr
      | persistent entry he hw => exact .persistent entry he hw
      | templateFunction t r ht hr => exact .templateFunction t r ht hr
      | templatePrototype t r ht hr => exact .templatePrototype t r ht hr
      | jobReaction job r hj hr => exact .jobReaction job r hj hr
      | jobValue job r hj hr => exact .jobValue job r hj hr

-- What a native call leaves of the heap it found. The scopes are as they were, but for the object
-- that was returned or thrown, and that one is there.
structure Returned (h h' : Heap) (c : Completion) : Prop where
  scopes : ∃ top rest, h.scopes = top :: rest ∧
    h'.scopes = (c.value.object?.toList ++ top) :: rest
  overflow : h'.overflow = h.overflow
  live : h'.LiveValue c.value

lemma Returned.rooted_iff (hr : h.Returned h' c) (s : ObjectRef) :
    h'.Rooted s ↔ c.value = .object s ∨ h.Rooted s := by
  obtain ⟨top, rest, hbefore, hafter⟩ := hr.scopes
  have hvalue : s ∈ c.value.object?.toList ↔ c.value = .object s := by
    cases c.value <;> simp [Value.object?, eq_comm]
  simp only [Rooted, hbefore, hafter, List.mem_cons, exists_eq_or_imp, List.mem_append, hvalue,
    or_assoc]

lemma Returned.survives_iff (hr : h.Returned h' c) (r : ObjectRef) :
    h'.collect.2.isAlive r = true ↔ h'.isAlive r = true ∧
      ∃ s, (c.value = .object s ∨ h.Rooted s ∨ h'.Anchored s) ∧ h'.Path s r := by
  simp only [isAlive_collect_iff, reachable_iff, root_iff, hr.rooted_iff, or_assoc]

lemma scopes_pushScope (hroom : h.pushed.length < h.limits.maxScopeDepth) :
    h.pushScope.scopes = [] :: h.scopes ∧ h.pushScope.overflow = h.overflow := by
  rw [pushScope, if_neg (Nat.not_le.mpr hroom)]
  exact ⟨rfl, rfl⟩

lemma scopes_popScope {top : List ObjectRef} {rest : List (List ObjectRef)} (hover : h.overflow = 0)
    (hs : h.scopes = top :: rest) (hrest : rest ≠ []) :
    h.popScope.2.scopes = rest ∧ h.popScope.2.overflow = 0 := by
  rw [popScope, if_neg (by omega)]
  cases hp : h.pushed with
  | nil =>
    rw [scopes, hp] at hs
    exact absurd (List.cons.inj hs).2.symm hrest
  | cons scope outer =>
    rw [scopes_of_pushed h scope outer hp] at hs
    exact ⟨(List.cons.inj hs).2, hover⟩

-- The scope of a call is opened, whatever happens in it leaves it the innermost one, and it is
-- closed again.
lemma returned_leave (hs : h.Saturated) (hroom : h.pushed.length < h.limits.maxScopeDepth)
    (ho : Opens 0 h.pushScope h') (hlive : h'.LiveValue c.value) : h.Returned (h'.leave c) c := by
  have hzero : h.overflow = 0 := by
    by_contra hne
    have := hs (Nat.pos_of_ne_zero hne)
    omega
  obtain ⟨hpushed, hsame⟩ := scopes_pushScope hroom
  obtain ⟨hover, top, rest, more, hbefore, hafter⟩ := ho.level
  obtain ⟨rfl, rfl⟩ := List.cons.inj (hpushed.symm.trans hbefore)
  obtain ⟨outer, others, hscopes⟩ := h.exists_scopes
  obtain ⟨hpopped, hclosed⟩ := scopes_popScope (by omega) hafter (by simp [hscopes])
  have hobjects : ∀ r, c.value = .object r → (h'.leave c).Live r := by
    intro r hr
    simpa only [Live, Roomy, isAlive, leave_objects] using hlive r hr
  rw [hscopes] at hpopped
  refine ⟨⟨outer, others, hscopes, ?_⟩, ?_, hobjects⟩
  · unfold leave
    split
    · rename_i r hr
      rw [scopes_root _ r outer others hpopped, hr]
      rfl
    · rename_i hne
      rw [hpopped]
      cases hv : c.value with
      | object r => exact absurd hv (hne r)
      | _ => rfl
  · unfold leave
    split
    · rw [(opens_root _ _).level.1, hclosed, hzero]
    · rw [hclosed, hzero]

lemma returned_newError (hg : h.Grown) (name : ErrorName) (message : String) :
    h.Returned (h.newError name message).2 (.error (h.newError name message).1) := by
  obtain ⟨top, rest, hs⟩ := h.exists_scopes
  refine ⟨⟨top, rest, hs, scopes_root _ _ top rest hs⟩, (h.opens_allocate _).level.1, ?_⟩
  intro r hr
  obtain rfl := Value.object.inj hr
  exact hg.live_allocate _

end Heap

lemma World.Regular.entered (hw : w.Regular) (he : w.HasEngine e) (hn : w.Has n)
    (hengine : (w.environment n).engine = e) : (w.entered e n).Ready e n := by
  refine ⟨(hw.staffed.modifyEngine e _ rfl).modifyEnvironment n _ rfl, ⟨?_, ?_, ?_⟩, ?_⟩
  · exact (hasEngine_modifyEngine w e e _).mpr he
  · exact (Engine.has_entered w e n n).mpr hn
  · rw [Environment.engine_entered, hengine]
  · exact ((hw.grown.modifyEngine (.op .pushScope trivial)) e
      ((hasEngine_modifyEngine w e e _).mpr he))

-- Whatever a native call does, with as many pops as pushes, only what it returns or throws is kept
-- by a scope in addition, so the rest goes with the next collection.
theorem temporaries_die_with_call (hb : host.Balanced e) (w : World σ) (hw : w.Regular)
    (he : w.HasEngine e)
    (hroom : (w.engine e).heap.pushed.length < (w.engine e).heap.limits.maxScopeDepth)
    (data : CallbackData) (i : Invocation) (hi : Engine.Issues e w i) :
    let h := (w.engine e).heap
    let done := Engine.dispatch host e data i w
    let h' := (done.2.engine e).heap
    h.Returned h' done.1 ∧
    ∀ r, h'.collect.2.isAlive r = true ↔ h'.isAlive r = true ∧
      ∃ s, (done.1.value = .object s ∨ h.Rooted s ∨ h'.Anchored s) ∧ h'.Path s r := by
  intro h done h'
  have hg : h.Grown := hw.grown e he
  suffices hr : h.Returned h' done.1 from ⟨hr, hr.survives_iff⟩
  change h.Returned ((Engine.dispatch host e data i w).2.engine e).heap
    (Engine.dispatch host e data i w).1
  cases hd : w.dispatcher? e with
  | none =>
    rw [Engine.dispatch_of_none host w e data i hd]
    have hheap : (w.setHeap e (h.newError .error "no native dispatcher installed").2).engine e =
        { w.engine e with heap := (h.newError .error "no native dispatcher installed").2 } := by
      rw [World.engine_modifyEngine, if_pos ⟨rfl, he⟩]
    have hreturned := Heap.returned_newError hg .error "no native dispatcher installed"
    exact (congrArg Engine.heap hheap) ▸ hreturned
  | some n =>
    obtain ⟨hn, hengine⟩ := hw.staffed e n (Option.filter_eq_some_iff.mp hd).1
    have hready := hw.entered he hn hengine
    have hheap : ((w.entered e n).engine e).heap = h.pushScope := by
      rw [World.entered, World.engine_modifyEnvironment, World.engine_modifyEngine,
        if_pos ⟨rfl, he⟩]
    have hgoes := hb.keeps.dispatch_entered (World.order_nests e) hw.staffed hn e data i
      fun _ => attachFinalizer_nests
    obtain ⟨hthere, hnests⟩ := hgoes.kept hready.there.1 hready.grown
    have hyields := Environment.dispatch_yields hb.keeps data i _ hready
    rw [Engine.dispatch_of_some host w e n data i hd, Engine.inScope_apply]
    generalize Environment.dispatch host n data i (w.entered e n) = inside at *
    obtain ⟨c, w'⟩ := inside
    rw [Engine.left_apply, World.engine_modifyEngine, if_pos ⟨rfl, hthere⟩]
    rw [hheap] at hnests
    refine Heap.returned_leave hg.saturated hroom hnests.opens fun r hr => ?_
    rcases hyields r hr with ⟨hkind, hthis⟩ | hlive
    · -- A receiver is kept by a scope of the caller's, and so it stays.
      obtain ⟨hrooted, hlive⟩ := hi.kept hkind hthis
      have hkept := (Heap.Nests.pushScope hg.saturated).trans hnests
      exact fun hroomy => hkept.alive r hrooted (hlive (hkept.leads.roomy hroomy))
    · exact hlive

def Host.replying (actions : EnvironmentId → List Action) (result : Option Tagged) : Host σ :=
  { Host.inert with function := fun _ n _ _ w => (result, w.after .inert (actions n)) }

lemma Host.visit_replying (actions : EnvironmentId → List Action) (result : Option Tagged)
    (code : Code) (n : EnvironmentId) (this : Option Handle) (args : List Tagged) (w : World σ) :
    ((Host.replying actions result).visit (.function code n this args) w).2 =
      w.after .inert (actions n) := rfl

def threeObjects (n : EnvironmentId) : List Action :=
  [.operate n .newObject, .request ⟨0⟩ .pushScope, .operate n .newObject, .request ⟨0⟩ .popScope,
    .operate n .newObject]

def lastObject : Host Unit := .replying threeObjects (some (.object .plain (.transient (.first 4))))

lemma lastObject_balanced : lastObject.Balanced ⟨0⟩ := by
  refine Host.Built.nested _ (fun _ _ => .inert)
    (fun _ _ => Host.inert_built fun _ _ => trivial) fun visit w _ _ => ?_
  cases visit with
  | function code n this args =>
    have hmake : ∀ {k : Nat} {w' : World Unit}, Balance ⟨0⟩ .inert w k w' →
        Balance ⟨0⟩ .inert w k ((Action.operate n .newObject).perform .inert w').2 := fun hb =>
      .act _ _ _ hb (by simp [Action.opens]) (by simp [Action.closes])
    have hpushed := Balance.push 0 _ (.request ⟨0⟩ .pushScope) (hmake .start) rfl
    have hpopped := Balance.pop 0 _ (.request ⟨0⟩ .popScope) (hmake hpushed) rfl
    rw [lastObject, Host.visit_replying]
    simp only [threeObjects, World.after, List.foldl_cons, List.foldl_nil]
    exact hmake hpopped
  | _ => exact .start

def oneScope : World Unit :=
  World.after .inert { host := () }
    [.newEngine { maxScopeDepth := 1 }, .attach ⟨0⟩, .operate ⟨0⟩ (.newFunction 0 ⟨⟨0⟩, none⟩)]

def lastObjectReturned : Completion × World Unit :=
  Engine.dispatch lastObject ⟨0⟩ ⟨8589934592⟩ ⟨.call, .undefined, []⟩ oneScope

theorem temporaries_die_with_call_at_depth_limit :
    let h' := (lastObjectReturned.2.engine ⟨0⟩).heap
    lastObjectReturned.1 = .ok (.object (.first 4)) ∧
    (oneScope.engine ⟨0⟩).heap.Returned h' lastObjectReturned.1 ∧
    (h'.isAlive (.first 2) = true ∧ h'.isAlive (.first 3) = true) ∧
    h'.collect.2.isAlive (.first 2) = false ∧ h'.collect.2.isAlive (.first 3) = false ∧
    h'.collect.2.isAlive (.first 4) = true := by
  have hinert : (Host.inert : Host Unit).Free := Host.inert_built fun _ _ => trivial
  have hregular : oneScope.Regular :=
    (Conduct.start.after _).regular hinert (World.regular_empty ())
  have hengine : oneScope.HasEngine ⟨0⟩ := by decide +kernel
  have hroom : (oneScope.engine ⟨0⟩).heap.pushed.length <
      (oneScope.engine ⟨0⟩).heap.limits.maxScopeDepth := by decide +kernel
  obtain ⟨hreturned, hsurvives⟩ := temporaries_die_with_call lastObject_balanced oneScope hregular
    hengine hroom ⟨8589934592⟩ ⟨.call, .undefined, []⟩ (.plain _ _ (by simp))
  have hvalue : lastObjectReturned.1 = .ok (.object (.first 4)) := by decide +kernel
  have halive : (lastObjectReturned.2.engine ⟨0⟩).heap.isAlive (.first 4) = true := by
    decide +kernel
  refine ⟨hvalue, hreturned, ⟨by cbv, by cbv⟩, by cbv, by cbv, ?_⟩
  exact (hsurvives _).mpr ⟨halive, _, .inl (congrArg Completion.value hvalue), .refl⟩

end HostBoundary
