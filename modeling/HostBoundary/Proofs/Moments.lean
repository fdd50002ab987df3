import HostBoundary.Proofs.LawfulRuns
import HostBoundary.Proofs.NoDangling

namespace HostBoundary

variable {σ : Type} {host : Host σ} {diary : σ → List (World Unit)} {w : World σ} {w' : World σ}

namespace World

-- The worlds that native code has noted down, and the one there is.
def moments (diary : σ → List (World Unit)) (w : World σ) : List (World Unit) :=
  diary w.host ++ [w.seen]

lemma filterMap_moments {e : EngineId} (he : w.HasEngine e) :
    (w.moments diary).filterMap (·.heap? e) = pages (diary w.host) e ++ [(w.engine e).heap] := by
  have hnow : w.seen.heap? e = some (w.engine e).heap := heap?_eq_some he
  simp [moments, pages, hnow]

namespace Lawful

variable {pledges : EngineId → List ObjectRef} (hw : w.Lawful diary pledges) {m : World Unit}
  {e : EngineId}

include hw

lemma accounted_moment (hm : m ∈ w.moments diary) : m.Accounted := by
  rcases List.mem_append.mp hm with hpage | hnow
  · exact (hw.noted m hpage).1
  · rw [List.mem_singleton.mp hnow]
    exact hw.accounted.of_eq rfl rfl

lemma hasEngine_of_moment (hm : m ∈ w.moments diary) (he : m.HasEngine e) : w.HasEngine e := by
  rcases List.mem_append.mp hm with hpage | hnow
  · exact Nat.lt_of_lt_of_le he (hw.noted m hpage).2
  · rw [List.mem_singleton.mp hnow] at he
    exact he

lemma chronicle_upto {limits : HeapLimits} {events : List Heap.Event} {pledged : List ObjectRef}
    (hc : Heap.Chronicle limits (pages (diary w.host) e) events (w.engine e).heap pledged)
    (hm : m ∈ w.moments diary) (he : m.HasEngine e) :
    ∃ pages before pledged', Heap.Chronicle limits pages before (m.engine e).heap pledged' ∧
      before <+: events := by
  have hmem : (m.engine e).heap ∈ pages (diary w.host) e ++ [(w.engine e).heap] := by
    rw [← filterMap_moments (hw.hasEngine_of_moment hm he)]
    exact List.mem_filterMap.mpr ⟨m, hm, heap?_eq_some he⟩
  rcases List.mem_append.mp hmem with hpage | hnow
  · obtain ⟨earlier, before, rest, pledged', hc', hrest⟩ := hc.of_page hpage
    exact ⟨earlier, before, pledged', hc', rest, hrest⟩
  · rw [List.mem_singleton.mp hnow]
    exact ⟨_, events, _, hc, List.prefix_rfl⟩

lemma chronicle_moment (hm : m ∈ w.moments diary) (he : m.HasEngine e) :
    ∃ limits pages events pledged,
      Heap.Chronicle limits pages events (m.engine e).heap pledged := by
  obtain ⟨limits, events, hc⟩ := hw.history e (hw.hasEngine_of_moment hm he)
  obtain ⟨pages, before, pledged, hc', -⟩ := hw.chronicle_upto hc hm he
  exact ⟨limits, pages, before, pledged, hc'⟩

lemma pairwise_moments : (w.moments diary).Pairwise fun m m' =>
    ∀ e, m.HasEngine e → m'.HasEngine e → (m.engine e).heap.Later (m'.engine e).heap := by
  refine List.pairwise_iff_getElem.mpr fun i j hi hj hij e he he' => ?_
  have hthere := hw.hasEngine_of_moment (List.getElem_mem hi) he
  obtain ⟨limits, events, hc⟩ := hw.history e hthere
  have hpairs := hc.pairwise
  rw [← filterMap_moments hthere] at hpairs
  exact List.pairwise_iff_getElem.mp (List.pairwise_filterMap.mp hpairs) i j hi hj hij _
    (heap?_eq_some he) _ (heap?_eq_some he')

end Lawful

end World

-- Routines that do what a script says and note down the world before and after. Calls nest up to a
-- depth, and a run of jobs starts so many at most.
def Host.noting (script : Code → List Environment.Operation.Known) (budget : Nat) :
    Nat → Host (List (World Unit))
  | 0 => { Host.inert with jobBudget := budget }
  | depth + 1 =>
    { Host.inert with
      jobBudget := budget
      function := fun code n _ _ w =>
        let w := World.after (Host.noting script budget depth) { w with host := w.host ++ [w.seen] }
          ((script code).map (.operate n))
        (none, { w with host := w.host ++ [w.seen] }) }

section Noting

variable {script : Code → List Environment.Operation.Known} {budget : Nat}

lemma Host.noting_conforming (depth : Nat) : (Host.noting script budget depth).Conforming := by
  induction depth with
  | zero => exact { Host.inert_conforming with }
  | succ depth ih =>
    refine { Host.inert_conforming with function := fun _ _ _ _ w => ?_ }
    have hbefore : w.Evolves { w with host := w.host ++ [w.seen] } := .of_eq rfl rfl
    exact (hbefore.trans (World.after_evolves ih _ _)).trans (.of_eq rfl rfl)

lemma Stretch.operations (hc : host.Conforming) {n : EnvironmentId} (hw : Stretch diary host w w')
    (hn : w'.Has n) (ops : List Environment.Operation.Known) :
    Stretch diary host w (w'.after host (ops.map (.operate n))) := by
  induction ops generalizing w' with
  | nil => exact hw
  | cons op rest ih =>
    refine ih (.act w' (.operate n op) hw (decide_eq_true hn)) ?_
    exact World.Evolves.has (Action.perform_evolving hc (.operate n op) w') hn

lemma Stretch.after (hw : Stretch diary host w w') (actions : List Action)
    (hp : w'.allows host actions = true) : Stretch diary host w (w'.after host actions) := by
  induction actions generalizing w' with
  | nil => exact hw
  | cons action rest ih =>
    obtain ⟨hfirst, hrest⟩ := (Bool.and_eq_true _ _).mp hp
    refine ih (.act w' action hw ?_) hrest
    cases action with
    | foreign => exact absurd hfirst (by simp [Action.possible])
    | _ => exact hfirst

lemma Host.noting_native (depth : Nat) : (Host.noting script budget depth).Native id := by
  induction depth with
  | zero =>
    refine .idle _ fun visit w => ⟨w.host, .inl rfl, ?_⟩
    cases visit <;> rfl
  | succ depth ih =>
    refine .nested _ (fun _ _ => .noting script budget depth) (fun _ _ => ih) fun visit w hv => ?_
    cases visit with
    | function code n this args =>
      have hnoted : Stretch id (.noting script budget depth) w
          { w with host := w.host ++ [w.seen] } := .think w _ .start (.inr rfl)
      exact .think _ _ (hnoted.operations (noting_conforming depth) (hv n rfl) (script code))
        (.inr rfl)
    | _ => exact .start

end Noting

-- A promise is handled, another one is made to follow the outcome, and the first one is resolved
-- before the jobs are run.
def chained : List Action :=
  [.newEngine { maxScopeDepth := 1 }, .attach ⟨0⟩, .operate ⟨0⟩ (.newFunction 0 ⟨⟨0⟩, none⟩),
    .operate ⟨0⟩ .createResolver,
    .operate ⟨0⟩ (.promiseThen (.transient (.first 2)) (.transient (.first 1))),
    .operate ⟨0⟩ .createResolver,
    .operate ⟨0⟩ (.resolve (.transient (.first 6)) (.object .promise (.transient (.first 4)))),
    .operate ⟨0⟩ (.resolve (.transient (.first 3)) (.int 7)), .operate ⟨0⟩ .runMicrotasks]

-- The handler opens a scope that it leaves open, handles the promise again and runs the jobs.
def handlers : Host (List (World Unit)) :=
  .noting (fun _ => [.pushScope, .promiseThen (.transient (.first 2)) (.transient (.first 1)),
    .runMicrotasks]) 2 2

def afterChain : World (List (World Unit)) := World.after handlers { host := [] } chained

lemma handlers_native : handlers.Native id := Host.noting_native 2

lemma afterChain_reached : afterChain.Reached id handlers :=
  ⟨[], rfl, Stretch.start.after chained (by decide +kernel)⟩

lemma afterChain_moment (m : World Unit) (hm : m ∈ afterChain.moments id) :
    m.HasEngine ⟨0⟩ ∧ (m.engine ⟨0⟩).heap.Roomy := by
  have hsizes : (afterChain.moments id).map (fun m =>
      (m.engines.size, (m.engine ⟨0⟩).heap.objects.slots.size)) =
    [(1, 7), (1, 8), (1, 9), (1, 9), (1, 9)] := by decide +kernel
  have hmem : (m.engines.size, (m.engine ⟨0⟩).heap.objects.slots.size) ∈
      [(1, 7), (1, 8), (1, 9), (1, 9), (1, 9)] := hsizes ▸ List.mem_map_of_mem hm
  simp only [List.mem_cons, Prod.mk.injEq, List.not_mem_nil, or_false] at hmem
  simp only [World.HasEngine, Heap.Roomy]
  omega

lemma afterChain_end : afterChain.HasEngine ⟨0⟩ ∧ (afterChain.engine ⟨0⟩).heap.Roomy :=
  ⟨by decide +kernel, show _ < _ by decide +kernel⟩

-- A settled promise keeps its outcome, and what a promise is fulfilled with is no promise.
theorem promises_settle_for_good (hn : host.Native diary) (w : World σ)
    (hw : w.Reached diary host) :
    (∀ m ∈ w.moments diary, ∀ e, m.HasEngine e → (m.engine e).heap.Roomy →
      ∀ r p, (m.engine e).heap.promise? r = some p →
        (p.state = .pending → p.result = .undefined) ∧
        (p.state ≠ .pending → p.reactions = []) ∧
        (p.state = .fulfilled → ∀ x, p.result = .object x → (m.engine e).heap.promise? x = none)) ∧
    (w.moments diary).Pairwise (fun m m' => ∀ e, m.HasEngine e → m'.HasEngine e →
      (m'.engine e).heap.Roomy → ∀ r p p', (m.engine e).heap.promise? r = some p →
        (m'.engine e).heap.promise? r = some p' → p.state ≠ .pending →
        p'.state = p.state ∧ p'.result = p.result) ∧
    ∀ m ∈ w.moments diary, ∀ e, m.HasEngine e →
      ∀ d p, (m.engine e).heap.promise? d = some p → p.state = .pending →
        (((m.engine e).heap.fulfil d (.object d)).Roomy → ∃ error,
          ((m.engine e).heap.fulfil d (.object d)).promise? d =
            some { p with state := .rejected, result := .object error, reactions := [] } ∧
          ((m.engine e).heap.fulfil d (.object d)).object? error =
            some (Heap.errorObject .typeError "promise resolved with itself")) ∧
        ∀ x q, x ≠ d → (m.engine e).heap.promise? x = some q →
          ((m.engine e).heap.fulfil d (.object x)).promise? d = some p ∧
          ((m.engine e).heap.fulfil d (.object x)).Follows d x := by
  have hlaw := hw.lawful hn
  refine ⟨fun m hm e he hroom r p hp => ?_, ?_,
    fun m hm e he d p hd hpending => ⟨fun hroom => ?_, ?_⟩⟩
  · obtain ⟨limits, pages, events, pledged, hc⟩ := hlaw.chronicle_moment hm he
    have hsound := hc.soundPromises hroom
    exact ⟨(hsound.promise r p hp).result, (hsound.promise r p hp).reactions,
      fun hstate x hx => (hsound.fulfilled r p hp hstate x hx).1⟩
  · refine hlaw.pairwise_moments.imp_of_mem fun {m m'} hm _ hlater => ?_
    intro e he he' hroom r p p' hp hp'
    obtain ⟨limits, pages, events, pledged, hc⟩ := hlaw.chronicle_moment hm he
    have hbefore := (hlater e he he').leads.roomy hroom
    exact ((hlater e he he').keeps (hc.wellFormed hbefore) hroom hp hp').outcome
  · obtain ⟨limits, pages, events, pledged, hc⟩ := hlaw.chronicle_moment hm he
    have hbefore : (m.engine e).heap.Roomy := ((m.engine e).heap.leads_fulfil d _).roomy hroom
    exact Heap.fulfil_with_itself (hc.wellFormed hbefore) hd hpending hroom
  · exact fun x q hne hx => Heap.fulfil_with_promise hne hd hx

theorem promises_settle_for_good_in_handlers :
    handlers.Native id ∧ afterChain.Reached id handlers ∧
    (afterChain.moments id).map (fun m => ((m.engine ⟨0⟩).heap.promise? (.first 5)).map (·.state)) =
      [some .pending, some .pending, some .pending, some .pending, some .fulfilled] ∧
    (∀ m ∈ afterChain.moments id, ∀ p, (m.engine ⟨0⟩).heap.promise? (.first 5) = some p →
      p.state = .pending → p.result = .undefined) ∧
    (afterChain.moments id).Pairwise fun m m' => ∀ p p',
      (m.engine ⟨0⟩).heap.promise? (.first 2) = some p →
      (m'.engine ⟨0⟩).heap.promise? (.first 2) = some p' → p.state ≠ .pending →
      p'.state = p.state ∧ p'.result = p.result := by
  obtain ⟨hsound, hkeeps, -⟩ :=
    promises_settle_for_good handlers_native afterChain afterChain_reached
  refine ⟨handlers_native, afterChain_reached, by decide +kernel, fun m hm p hp => ?_, ?_⟩
  · obtain ⟨he, hroom⟩ := afterChain_moment m hm
    exact (hsound m hm ⟨0⟩ he hroom (.first 5) p hp).1
  · refine hkeeps.imp_of_mem fun {m m'} hm hm' hlater => ?_
    exact hlater ⟨0⟩ (afterChain_moment m hm).1 (afterChain_moment m' hm').1
      (afterChain_moment m' hm').2 (.first 2)

-- Every heap has a chronicle that goes through all moments. In any chronicle jobs are started in
-- the order in which they were queued, and they are queued once their promise has settled, in the
-- order in which its reactions were registered.
theorem reactions_run_in_order (hn : host.Native diary) (w : World σ) (hw : w.Reached diary host)
    (e : EngineId) (he : w.HasEngine e) :
    (∃ limits events,
      Heap.Chronicle limits (World.pages (diary w.host) e) events (w.engine e).heap [] ∧
      ∀ m ∈ w.moments diary, m.HasEngine e → ∃ pages before pledged,
        Heap.Chronicle limits pages before (m.engine e).heap pledged ∧ before <+: events) ∧
    ∀ limits pages events h pledged, Heap.Chronicle limits pages events h pledged → h.Roomy →
      Heap.Event.queue events = Heap.Event.starts events ++ h.jobs ∧
      ∀ r p, h.promise? r = some p →
        (p.state = .pending → Heap.Event.jobsOf r events = []) ∧
        (p.state ≠ .pending → Heap.Event.jobsOf r events =
          (Heap.Event.registrations r events).map (⟨·, p.state, p.result⟩)) := by
  have hlaw := hw.lawful hn
  refine ⟨?_, fun limits pages events h pledged hc hroom => ?_⟩
  · obtain ⟨limits, events, hc⟩ := hlaw.history e he
    exact ⟨limits, events, hc, fun m hm he' => hlaw.chronicle_upto hc hm he'⟩
  · have hagrees := hc.agrees hroom
    exact ⟨hagrees.started.symm, fun r p hp =>
      ⟨fun hpending => (hagrees.pending r p hp hpending).2, hagrees.settled r p hp⟩⟩

theorem reactions_run_in_order_in_handlers :
    handlers.Native id ∧ afterChain.Reached id handlers ∧ ∃ limits events,
      Heap.Chronicle limits (World.pages afterChain.host ⟨0⟩) events
        (afterChain.engine ⟨0⟩).heap [] ∧
      Heap.Event.queue events = Heap.Event.starts events ∧
      Heap.Event.jobsOf (.first 2) events =
        (Heap.Event.registrations (.first 2) events).map (⟨·, .fulfilled, .int 7⟩) := by
  obtain ⟨he, hroom⟩ := afterChain_end
  obtain ⟨⟨limits, events, hc, -⟩, hlaw⟩ :=
    reactions_run_in_order handlers_native afterChain afterChain_reached ⟨0⟩ he
  obtain ⟨hstarted, hpromise⟩ := hlaw limits _ events _ [] hc hroom
  have hjobs : (afterChain.engine ⟨0⟩).heap.jobs = [] := by decide +kernel
  have hp : (afterChain.engine ⟨0⟩).heap.promise? (.first 2) =
    some ⟨.fulfilled, .int 7, [], true, true⟩ := by decide +kernel
  rw [hjobs, List.append_nil] at hstarted
  exact ⟨handlers_native, afterChain_reached, limits, events, hc, hstarted,
    (hpromise (.first 2) _ hp).2 (by simp)⟩

-- A promise waits for at most one reaction or job, and its resolver answers yes at most once.
theorem promises_have_one_settler (hn : host.Native diary) (w : World σ)
    (hw : w.Reached diary host) :
    (∀ m ∈ w.moments diary, ∀ e, m.HasEngine e → (m.engine e).heap.Roomy →
      (∀ d, (m.engine e).heap.awaited.count d ≤ 1) ∧
      (∀ s d p, (m.engine e).heap.resolver? s = some d → (m.engine e).heap.promise? d = some p →
        p.locked = false → d ∉ (m.engine e).heap.awaited) ∧
      ∀ d ∈ (m.engine e).heap.awaited, ∀ p, (m.engine e).heap.promise? d = some p →
        p.state = .pending) ∧
    (∀ m ∈ w.moments diary, ∀ e, m.HasEngine e → ∀ s value,
      (m.engine e).heap.LiveValue value → ∀ h', h'.Roomy →
      (m.engine e).heap.resolve s value = (true, h') ∨
        (m.engine e).heap.reject s value = (true, h') →
      ∀ value', (h'.resolve s value').1 = false ∧ (h'.reject s value').1 = false) ∧
    (w.moments diary).Pairwise (fun m m' => ∀ e, m.HasEngine e → m'.HasEngine e →
      (m'.engine e).heap.Roomy → ∀ s value, (m.engine e).heap.objects.Issued s →
      ((m.engine e).heap.resolve s value).1 = false ∨
        ((m.engine e).heap.reject s value).1 = false →
      ∀ value', ((m'.engine e).heap.resolve s value').1 = false ∧
        ((m'.engine e).heap.reject s value').1 = false) ∧
    (∀ e, w.HasEngine e → ∃ limits events,
      Heap.Chronicle limits (World.pages (diary w.host) e) events (w.engine e).heap []) ∧
    ∀ limits pages events h pledged, Heap.Chronicle limits pages events h pledged → h.Roomy →
      (∀ r state, .settling r (some state) ∈ events → state = .pending) ∧
      ∀ s, events.count (.answered s true) ≤ 1 := by
  have hlaw := hw.lawful hn
  refine ⟨fun m hm e he hroom => ?_, fun m hm e he s value hvalue h' hroom hyes value' => ?_, ?_,
    hlaw.history, fun limits pages events h pledged hc hroom => ?_⟩
  · obtain ⟨limits, pages, events, pledged, hc⟩ := hlaw.chronicle_moment hm he
    have hsettlers := hc.settlers hroom
    refine ⟨fun d => ?_, fun s d p hr hp hopen hd => ?_, fun d hd => ?_⟩
    · exact Nat.le_trans ((List.sublist_append_left _ _).count_le d) (hsettlers.once d)
    · exact hsettlers.unlocked s d p hr hp hopen (List.mem_append_left _ hd)
    · exact hsettlers.pending d (List.mem_append_left _ hd)
  · obtain ⟨limits, pages, events, pledged, hc⟩ := hlaw.chronicle_moment hm he
    have hspent := hc.spent hvalue hyes hroom
    rw [Heap.resolve_of_none hspent, Heap.reject_of_none hspent]
    exact ⟨rfl, rfl⟩
  · refine hlaw.pairwise_moments.imp_of_mem fun {m m'} hm _ hlater => ?_
    intro e he he' hroom s value hs hno value'
    obtain ⟨limits, pages, events, pledged, hc⟩ := hlaw.chronicle_moment hm he
    have hbefore := (hlater e he he').leads.roomy hroom
    have hspent := (hlater e he he').lockResolver (hc.wellFormed hbefore) hroom hs
      ((hc.settlers hbefore).target s) (Heap.lockResolver_of_refuses hno)
    rw [Heap.resolve_of_none hspent, Heap.reject_of_none hspent]
    exact ⟨rfl, rfl⟩
  · have hsettlers := hc.settlers hroom
    exact ⟨hsettlers.found, hsettlers.accepted⟩

theorem promises_have_one_settler_in_handlers :
    handlers.Native id ∧ afterChain.Reached id handlers ∧
    (afterChain.moments id).map (fun m => (m.engine ⟨0⟩).heap.awaited) =
      [[.first 5], [.first 5], [.first 5], [.first 5], []] ∧
    (∀ m ∈ afterChain.moments id, ∀ p, .first 5 ∈ (m.engine ⟨0⟩).heap.awaited →
      (m.engine ⟨0⟩).heap.promise? (.first 5) = some p → p.state = .pending) ∧
    ∃ limits events, Heap.Chronicle limits (World.pages afterChain.host ⟨0⟩) events
        (afterChain.engine ⟨0⟩).heap [] ∧
      events.count (.answered (.first 6) true) ≤ 1 := by
  obtain ⟨hmoment, -, -, hhistory, hrun⟩ :=
    promises_have_one_settler handlers_native afterChain afterChain_reached
  obtain ⟨he, hroom⟩ := afterChain_end
  obtain ⟨limits, events, hc⟩ := hhistory ⟨0⟩ he
  have haccepted := (hrun limits _ events _ [] hc hroom).2 (.first 6)
  refine ⟨handlers_native, afterChain_reached, by decide +kernel, fun m hm p hd => ?_,
    limits, events, hc, haccepted⟩
  obtain ⟨he, hroom⟩ := afterChain_moment m hm
  exact (hmoment m hm ⟨0⟩ he hroom).2.2 (.first 5) hd p

-- The scopes on an engine with one environment and the refused pushes are as many as the
-- environment has pushed and native calls are under way.
theorem scopes_account_for_pushes (hn : host.Native diary) (w : World σ)
    (hw : w.Reached diary host) (m : World Unit) (hm : m ∈ w.moments diary) (n : EnvironmentId)
    (hthere : m.Has n)
    (honly : ∀ k, m.Has k → (m.environment k).engine = (m.environment n).engine → k = n) :
    let env := m.environment n
    let h := (m.engine env.engine).heap
    h.pushed.length + h.overflow = env.scopeDepth + env.running ∧
    h.pushed.length = min (env.scopeDepth + env.running) h.limits.maxScopeDepth ∧
    (env.scopeDepth + env.running ≠ 0 →
      h.popScope.2.pushed.length + h.popScope.2.overflow + 1 = h.pushed.length + h.overflow) ∧
    (∃ limits pages events pledged, Heap.Chronicle limits pages events h pledged) ∧
    ∀ limits pages events pledged, Heap.Chronicle limits pages events h pledged →
      events.count (.opened false) = events.count (.closed false) + h.pushed.length ∧
      events.count (.opened true) = events.count (.closed true) + h.overflow := by
  have hlaw := hw.lawful hn
  have haccounted := hlaw.accounted_moment hm
  have hengine := haccounted.engine n hthere
  have htotal := haccounted.scopes _ hengine
  rw [m.opened_eq_level hthere honly] at htotal
  refine ⟨htotal.sum, htotal.depth, fun hpos => ?_, hlaw.chronicle_moment hm hengine,
    fun limits pages events pledged hc => ⟨hc.matched.pushed, hc.matched.refused⟩⟩
  obtain ⟨rest, hrest⟩ := Nat.exists_eq_succ_of_ne_zero hpos
  rw [Environment.level, hrest] at htotal
  have hpop := htotal.pop.sum
  have hsum := htotal.sum
  omega

-- Two calls of the handler are under way, which have both left a scope open.
theorem scopes_account_for_pushes_in_handlers :
    handlers.Native id ∧ afterChain.Reached id handlers ∧
    ∃ m ∈ afterChain.moments id, m.environments.size = 1 ∧
      (m.environment ⟨0⟩).scopeDepth = 2 ∧ (m.environment ⟨0⟩).running = 2 ∧
      (m.engine ⟨0⟩).heap.pushed.length + (m.engine ⟨0⟩).heap.overflow = 2 + 2 ∧
      (m.engine ⟨0⟩).heap.pushed.length = min (2 + 2) 1 := by
  have hthere : (afterChain.moments id).any (fun m => m.environments.size = 1 ∧
    (m.environment ⟨0⟩).scopeDepth = 2 ∧ (m.environment ⟨0⟩).running = 2 ∧
    (m.environment ⟨0⟩).engine = ⟨0⟩ ∧ (m.engine ⟨0⟩).heap.limits.maxScopeDepth = 1) := by
    decide +kernel
  obtain ⟨m, hm, hfields⟩ := List.any_eq_true.mp hthere
  obtain ⟨hsize, hdepth, hrunning, hengine, hlimit⟩ := of_decide_eq_true hfields
  obtain ⟨hsum, hmin, -⟩ := scopes_account_for_pushes handlers_native afterChain
    afterChain_reached m hm ⟨0⟩ (by rw [World.Has, hsize]; exact Nat.one_pos) fun k hk _ => by
      rw [World.Has, hsize] at hk
      cases k
      simp_all
  rw [hengine, hdepth, hrunning] at hsum hmin
  rw [hlimit] at hmin
  exact ⟨handlers_native, afterChain_reached, m, hm, hsize, hdepth, hrunning, hsum, hmin⟩

end HostBoundary
