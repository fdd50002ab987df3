import HostBoundary.Proofs.Microtasks

namespace HostBoundary

variable {state : PromiseState} {p q s : ObjectRef} {value : Tagged} {job : Job} {promise : Promise}
  {v : Value} {resolver : Handle} {limits : HeapLimits} {pages : List Heap}
  {events : List Heap.Event} {pledged : List ObjectRef}

namespace Heap

-- A way from one promise to another through outstanding reactions, none of which has a handler for
-- the outcome.
inductive Chain (h : Heap) (state : PromiseState) : ObjectRef → ObjectRef → Prop where
  | here {q : ObjectRef} (promise : Promise) (hq : h.promise? q = some promise) : Chain h state q q
  | link {p q : ObjectRef} (promise : Promise) (reaction : Reaction)
      (hp : h.promise? p = some promise) (hr : reaction ∈ promise.reactions)
      (hn : reaction.handler state = none) (rest : Chain h state reaction.derived q) :
      Chain h state p q

lemma Chain.start {h : Heap} (hc : h.Chain state p q) : ∃ promise, h.promise? p = some promise := by
  cases hc with
  | here promise hq => exact ⟨promise, hq⟩
  | link promise _ hp => exact ⟨promise, hp⟩

-- A change that takes nothing away from the promises and jobs, some promises apart.
structure Sustains (lost : List ObjectRef) (h h' : Heap) : Prop where
  promise : ∀ r p, r ∉ lost → h.promise? r = some p → ∃ p', h'.promise? r = some p' ∧
    p'.state = p.state ∧ p'.result = p.result ∧ p.reactions ⊆ p'.reactions
  jobs : h.jobs ⊆ h'.jobs

namespace Sustains

variable {lost : List ObjectRef} {h h' h'' : Heap}

lemma of_promises (hp : ∀ r p, r ∉ lost → h.promise? r = some p → h'.promise? r = some p)
    (hjobs : h.jobs ⊆ h'.jobs) : Sustains lost h h' where
  promise r p hr hbefore := ⟨p, hp r p hr hbefore, rfl, rfl, List.Subset.refl _⟩
  jobs := hjobs

lemma trans (hab : Sustains lost h h') (hbc : Sustains lost h' h'') : Sustains lost h h'' where
  promise r p hr hp := by
    obtain ⟨p', hp', hstate, hresult, hreactions⟩ := hab.promise r p hr hp
    obtain ⟨p'', hp'', hstate', hresult', hreactions'⟩ := hbc.promise r p' hr hp'
    exact ⟨p'', hp'', hstate'.trans hstate, hresult'.trans hresult,
      List.Subset.trans hreactions hreactions'⟩
  jobs := List.Subset.trans hab.jobs hbc.jobs

end Sustains

section Sustaining

variable {h h' : Heap} {d : ObjectRef} {lost : List ObjectRef}

lemma Serene.sustains (hs : h.Serene h') (hwf : h.WellFormed) (hroom : h'.Roomy) :
    Sustains lost h h' :=
  .of_promises (fun r p _ hp => hs.promise hwf hroom r p hp) (hs.still.jobs ▸ List.Subset.refl _)

lemma sustains_settle (h : Heap) (d : ObjectRef) (state : PromiseState) (value : Value) :
    Sustains [d] h (h.settle d state value) := by
  cases hp : h.promise? d with
  | none =>
    rw [settle_of_none h d state value hp]
    exact .of_promises (fun _ _ _ hq => hq) (List.Subset.refl _)
  | some p =>
    rw [settle_of_some h d state value hp]
    refine .of_promises (fun r q hr hq => ?_) (List.subset_append_left _ _)
    rw [promise?_enqueue, h.promise?_setPromise hp, if_neg (by simpa using hr)]
    exact hq

lemma sustains_react {p : Promise} (hp : h.promise? s = some p) (reaction : Reaction) :
    Sustains lost h (h.react s p reaction) where
  promise r q _ hq := by
    have hset : (h.react s p reaction).promise? r =
        if r = s then some (p.react reaction true).2 else h.promise? r :=
      h.promise?_setPromise hp _ r
    rw [hset]
    split
    · rename_i hr
      obtain rfl := Option.some.inj (hq.symm.trans (hr ▸ hp))
      refine ⟨_, rfl, q.react_state reaction true, q.react_result reaction true, ?_⟩
      by_cases hpending : q.state = .pending
      · rw [Promise.react_of_pending hpending]
        exact List.subset_append_left _ _
      · rw [Promise.react_of_settled hpending]
        exact List.Subset.refl _
    · exact ⟨q, hq, rfl, rfl, List.Subset.refl _⟩
  jobs := List.subset_append_left _ _

lemma sustains_fulfil (hwf : h.WellFormed) {value : Value}
    (hroom : (h.fulfil d value).Roomy) : Sustains [d] h (h.fulfil d value) := by
  rcases h.fulfil_cases d value with ⟨-, message, heq⟩ | ⟨inner, p, -, hp, heq⟩ | ⟨-, heq⟩
  · rw [heq] at hroom ⊢
    exact ((h.moves_newError .typeError message).discreetly.serene.sustains hwf
      ((works_settle _ _ _ _).leads.roomy hroom)).trans (sustains_settle _ _ _ _)
  · rw [heq]
    exact sustains_react hp _
  · rw [heq]
    exact sustains_settle _ _ _ _

lemma Worked.sustains (hw : Worked h job h') (hwf : h.WellFormed) (hroom : h'.Roomy) :
    Sustains [job.reaction.derived] h h' := by
  cases hw with
  | returned h₂ f value hs hf =>
    have hmid := (h₂.leads_fulfil _ _).roomy hroom
    exact (hs.sustains hwf hmid).trans (sustains_fulfil (hs.leads.wellFormed hwf hmid) hroom)
  | thrown h₂ f value hs hf =>
    exact (hs.sustains hwf ((works_settle _ _ _ _).leads.roomy hroom)).trans
      (sustains_settle _ _ _ _)
  | fulfilled => exact sustains_fulfil hwf hroom
  | rejected => exact sustains_settle _ _ _ _

end Sustaining

section Chains

variable {h h' : Heap} {state : PromiseState} {value : Value} {d x q : ObjectRef}

lemma derived_mem_awaited (hp : h.promise? p = some promise) {reaction : Reaction}
    (hr : reaction ∈ promise.reactions) : reaction.derived ∈ h.awaited := by
  obtain ⟨o, ho, hrole⟩ := (h.promise?_eq_some_iff p promise).mp hp
  refine List.mem_append_left _ (List.mem_flatMap.mpr ⟨o, h.objects.mem_entries_of_get? p o ho, ?_⟩)
  rw [HeapObject.awaited_of_promise hrole]
  exact List.mem_map_of_mem hr

-- Beyond its start a chain leads through promises that somebody waits to settle, and so through
-- none that nobody does.
lemma Chain.sustained {lost : List ObjectRef} (hs : Sustains lost h h')
    (hlost : ∀ d ∈ lost, d ∉ h.awaited) (hc : h.Chain state x q) (hx : x ∉ lost) :
    h'.Chain state x q := by
  induction hc with
  | here promise hq =>
    obtain ⟨promise', hq', -⟩ := hs.promise _ promise hx hq
    exact .here promise' hq'
  | link promise reaction hp hr hn _ ih =>
    obtain ⟨promise', hp', -, -, hreactions⟩ := hs.promise _ promise hx hp
    exact .link promise' reaction hp' (hreactions hr) hn
      (ih fun hmem => hlost _ hmem (derived_mem_awaited hp hr))

lemma Chain.congr (hsame : ∀ r, h'.promise? r = h.promise? r) (hc : h.Chain state x q) :
    h'.Chain state x q := by
  induction hc with
  | here promise hq => exact .here promise ((hsame _).trans hq)
  | link promise reaction hp hr hn _ ih => exact .link promise reaction ((hsame _).trans hp) hr hn ih

-- A promise has settled with an outcome, or a chain leads to it from the promise of a job that is
-- queued with this outcome and has no handler for it.
def Destined (h : Heap) (state : PromiseState) (v : Value) (q : ObjectRef) : Prop :=
  (∃ promise, h.promise? q = some promise ∧ promise.state = state ∧ promise.result = v) ∨
    ∃ job ∈ h.jobs, job.state = state ∧ job.value = v ∧ job.reaction.handler state = none ∧
      h.Chain state job.reaction.derived q

lemma destined_settle (hc : h.Chain state d q)
    (hpending : ∀ p, h.promise? d = some p → p.state = .pending) (hstate : state ≠ .pending)
    (hd : d ∉ h.awaited) : (h.settle d state v).Destined state v q := by
  obtain ⟨p, hp⟩ := hc.start
  have hsettled : p.settle state v = _ := Promise.settle_of_pending (hpending p hp) hstate
  cases hc with
  | here =>
    refine .inl ⟨{ p with state, result := v, reactions := [] }, ?_, rfl, rfl⟩
    rw [settle_of_some h d state v hp, promise?_enqueue, h.promise?_setPromise hp, if_pos rfl,
      hsettled]
  | link promise reaction hp' hr hn rest =>
    obtain rfl := Option.some.inj (hp'.symm.trans hp)
    refine .inr ⟨⟨reaction, state, v⟩, ?_, rfl, rfl, hn,
      rest.sustained (sustains_settle h d state v) ?_ ?_⟩
    · rw [settle_of_some h d state v hp, hsettled]
      exact List.mem_append_right _ (List.mem_map.mpr ⟨reaction, hr, rfl⟩)
    · simpa using hd
    · rw [List.mem_singleton]
      intro heq
      exact hd (heq ▸ derived_mem_awaited hp hr)

lemma Settlers.not_mem_awaited (hs : h.Settlers (d :: pledged) events) : d ∉ h.awaited := by
  have honce := hs.once d
  rw [claimed, List.count_append, List.count_cons_self] at honce
  exact List.count_eq_zero.mp (by omega)

variable {limits : HeapLimits} {pages : List Heap} {events : List Event} {pledged : List ObjectRef}

-- One job brings the outcome nearer, or has nothing to do with it.
lemma Destined.work {h₁ : Heap} (hd : h.Destined state v q) (hstate : state ≠ .pending)
    (hc : Chronicle limits pages events h pledged) (hj : h.nextJob = some (job, h₁))
    (hw : Worked h₁ job h') (hbefore : h.Roomy) (hroom : h'.Roomy) : h'.Destined state v q := by
  obtain ⟨hjobs, hobjects, -⟩ := nextJob_of_some hj
  have hsame : ∀ r, h₁.promise? r = h.promise? r := fun r => by
    simp only [promise?, body?, object?, hobjects]
  have hroom₁ : h₁.Roomy := by rwa [Roomy, hobjects]
  have hc₁ := hc.step (.start job hj)
  have hsettlers := hc₁.settlers hroom₁
  have hfree := hsettlers.not_mem_awaited
  have hpending : ∀ p, h₁.promise? job.reaction.derived = some p → p.state = .pending :=
    hsettlers.pending _ (List.mem_append_right _ List.mem_cons_self)
  have hs := hw.sustains (hc₁.wellFormed hroom₁) hroom
  rcases hd with ⟨p, hp, rfl, rfl⟩ | ⟨queued, hmem, rfl, rfl, hnone, hchain⟩
  · -- What has settled is not the promise of the job.
    rw [← hsame] at hp
    have hne : q ≠ job.reaction.derived := fun heq => hstate (hpending p (heq ▸ hp))
    obtain ⟨p', hp', hstate', hresult, -⟩ := hs.promise q p (by simpa using hne) hp
    exact .inl ⟨p', hp', hstate', hresult⟩
  · replace hchain := hchain.congr hsame
    rcases List.mem_cons.mp (hjobs ▸ hmem) with rfl | hrest
    · have hdestined := destined_settle (v := queued.value) hchain hpending hstate hfree
      cases hw with
      | returned _ f _ _ hf | thrown _ f _ _ hf => exact absurd (hnone.symm.trans hf) (by simp)
      | fulfilled _ hfulfilled =>
        obtain ⟨p, hp⟩ := hchain.start
        have hplain : ∀ x, queued.value = .object x → h₁.promise? x = none := fun x hx =>
          (hsame x).trans (hc.job_plain hbefore queued hmem hfulfilled x hx)
        rw [h₁.fulfil_of_plain _ hp hplain, ← hfulfilled]
        exact hdestined
      | rejected => exact hdestined
    · -- No other job and no reaction is for the promise of this job.
      have hne : queued.reaction.derived ≠ job.reaction.derived := fun heq =>
        hfree (heq ▸ List.mem_append_right _ (List.mem_map_of_mem hrest))
      exact .inr ⟨queued, hs.jobs hrest, rfl, rfl, hnone,
        hchain.sustained hs (by simpa using hfree) (by simpa using hne)⟩

lemma lockResolver_of_open (hs : h.resolver? s = some p) (hp : h.promise? p = some promise)
    (hpending : promise.state = .pending) (hopen : promise.locked = false) :
    (h.lockResolver s).1 = some p ∧ Sustains [] h (h.lockResolver s).2 := by
  have hlock : (h.lockResolver s).1 = some p := by
    rw [lockResolver_eq, hs]
    simp only [hp, hopen, hpending, and_self, if_true]
  refine ⟨hlock, fun r q _ hq => ?_, ?_⟩
  · rw [promise?_lockResolver hlock hp]
    split
    · rename_i hr
      obtain rfl := Option.some.inj (hq.symm.trans (hr ▸ hp))
      exact ⟨_, rfl, rfl, rfl, List.Subset.refl _⟩
    · exact ⟨q, hq, rfl, rfl, List.Subset.refl _⟩
  · obtain ⟨-, _, -, -, -, heq⟩ := lockResolver_of_some hlock
    rw [heq]
    exact (root_jobs h p).symm ▸ List.Subset.refl _

lemma destined_resolver (hc : Chronicle limits pages events h pledged) (hs : h.resolver? s = some p)
    (hp : h.promise? p = some promise) (hpending : promise.state = .pending)
    (hopen : promise.locked = false) (hchain : h.Chain state p q) :
    (state = .fulfilled → (∀ x, v = .object x → h.promise? x = none) → (h.resolve s v).2.Roomy →
      (h.resolve s v).1 = true ∧ (h.resolve s v).2.Destined state v q) ∧
    (state = .rejected → (h.reject s v).2.Roomy →
      (h.reject s v).1 = true ∧ (h.reject s v).2.Destined state v q) := by
  obtain ⟨hlock, hsustains⟩ := lockResolver_of_open hs hp hpending hopen
  have hc' := hc.step (.lock s p hlock)
  have hchain' := hchain.sustained hsustains (by simp) (by simp)
  have hlocked := promise?_lockResolver hlock hp
  have hpending' : ∀ p', (h.lockResolver s).2.promise? p = some p' → p'.state = .pending := by
    intro p' hp'
    rw [hlocked, if_pos rfl] at hp'
    exact Option.some.inj hp' ▸ hpending
  have hfree : (h.lockResolver s).2.Roomy → p ∉ (h.lockResolver s).2.awaited := fun hroom =>
    (hc'.settlers hroom).not_mem_awaited
  constructor
  · rintro rfl hplain hroom
    have hplain' : ∀ x, v = .object x → (h.lockResolver s).2.promise? x = none := by
      intro x hx
      rw [hlocked, if_neg fun heq => absurd ((hplain x hx).symm.trans (heq ▸ hp)) (by simp)]
      exact hplain x hx
    rw [resolve_of_some hlock] at hroom ⊢
    have hmid := ((h.lockResolver s).2.leads_fulfil p v).roomy hroom
    have hthere := (hlocked p).trans (if_pos rfl)
    refine ⟨rfl, ?_⟩
    rw [fulfil_of_plain _ p hthere hplain']
    exact destined_settle hchain' hpending' (by simp) (hfree hmid)
  · rintro rfl hroom
    rw [reject_of_some hlock] at hroom ⊢
    have hmid := (works_settle _ p .rejected v).leads.roomy hroom
    exact ⟨rfl, destined_settle hchain' hpending' (by simp) (hfree hmid)⟩

end Chains

end Heap

variable {σ τ : Type} {host : Host σ} {diary : σ → List (World Unit)}

namespace Environment

-- An operation that uses a resolver to settle its promise. To be fulfilled right away it is
-- resolved with what is no promise.
inductive Settles (h : Heap) (s : ObjectRef) (v : Value) :
    Operation.Known → PromiseState → Prop where
  | resolve (resolver : Handle) (value : Tagged) (hs : (h.resolveHandle resolver).1 = some s)
      (hv : h.valueOf? value = some v) (hplain : ∀ x, v = .object x → h.promise? x = none) :
      Settles h s v (.resolve resolver value) .fulfilled
  | reject (resolver : Handle) (value : Tagged) (hs : (h.resolveHandle resolver).1 = some s)
      (hv : h.valueOf? value = some v) : Settles h s v (.reject resolver value) .rejected

section Lookup

variable {α : Type} {n : EnvironmentId} {e : EngineId} {w : World σ} {h : Heap}

section

variable (hengine : (w.environment n).engine = e)

include hengine

lemma onHeap_at (he : w.HasEngine e) (hheap : (w.engine e).heap = h) (f : Heap → α × Heap) :
    ∃ w' : World σ, (onHeap n f : Act σ α) w = ((f h).1, w') ∧ (w'.environment n).engine = e ∧
      w'.HasEngine e ∧ (w'.engine e).heap = (f h).2 := by
  subst hengine hheap
  refine ⟨_, rfl, rfl, (World.hasEngine_modifyEngine w _ _ _).mpr he, ?_⟩
  rw [World.heap_modifyEngine he]

lemma settleWith_of_some (he : w.HasEngine e) (hheap : (w.engine e).heap = h)
    (hs : (h.resolveHandle resolver).1 = some s) (hv : h.valueOf? value = some v)
    (f : Heap → ObjectRef → Value → Bool × Heap) :
    ∃ h' : Heap, h.Moves h' ∧ h.Alike h' ∧
      (settleWith n resolver value f w).1 = (f h' s v).1 ∧
      ((settleWith n resolver value f w).2.engine e).heap = (f h' s v).2 := by
  let h₁ := (h.resolveHandle resolver).2
  let h₂ := (h₁.ofTagged value).2
  have halike := h.alike_resolveHandle resolver
  have hvalue : (h₁.ofTagged value).1.toOption = some v := (halike.valueOf? value).trans hv
  obtain ⟨w₁, hresolve, hengine₁, he₁, hheap₁⟩ :=
    onHeap_at hengine he hheap (·.resolveHandle resolver)
  obtain ⟨w₂, hconvert, hengine₂, he₂, hheap₂⟩ := onHeap_at hengine₁ he₁ hheap₁ (·.ofTagged value)
  obtain ⟨w₃, hsettle, -, -, hheap₃⟩ := onHeap_at hengine₂ he₂ hheap₂ (f · s v)
  have hrun : settleWith n resolver value f w = ((f h₂ s v).1, w₃) := by
    have hfirst : (resolve n resolver : Act σ (Option ObjectRef)) w = (some s, w₁) := by
      rw [resolve, hresolve, hs]
    have hsecond : (toValue n value : Act σ (Option Value)) w₁ = (some v, w₂) := by
      change (((onHeap n (·.ofTagged value) : Act σ _) w₁).1.toOption,
        ((onHeap n (·.ofTagged value) : Act σ _) w₁).2) = _
      rw [hconvert, hvalue]
    simp only [settleWith, bind, StateT.bind, hfirst, hsecond]
    exact hsettle
  exact ⟨h₂, (h.moves_resolveHandle resolver).trans (h₁.moves_ofTagged value),
    halike.trans (h₁.alike_ofTagged value), by rw [hrun], by rw [hrun, hheap₃]⟩

lemma settleWith_destined
    
     {f : Heap → ObjectRef → Value → Bool × Heap}
    (he : w.HasEngine e) (hheap : (w.engine e).heap = h)
    (hc : Heap.Chronicle limits pages events h pledged) (hs : h.resolver? s = some p)
    (hr : (h.resolveHandle resolver).1 = some s) (hv : h.valueOf? value = some v)
    (hf : ∀ h' events, Heap.Chronicle limits pages events h' pledged → h'.resolver? s = some p →
      (∀ r, h'.promise? r = h.promise? r) → (f h' s v).2.Roomy →
      (f h' s v).1 = true ∧ (f h' s v).2.Destined state v q)
    (hroom : ((settleWith n resolver value f w).2.engine e).heap.Roomy) :
    (settleWith n resolver value f w).1 = true ∧
      ((settleWith n resolver value f w).2.engine e).heap.Destined state v q := by
  obtain ⟨h', hmoves, halike, hanswer, hafter⟩ := settleWith_of_some hengine he hheap hr hv f
  obtain ⟨more, hc'⟩ := (Heap.Proceeds.of_quietly hmoves.quietly pledged).chronicle hc
  rw [hanswer, hafter]
  rw [hafter] at hroom
  refine hf h' _ hc' ?_ (fun r => ?_) hroom
  · simpa only [Heap.resolver?, Heap.body?, Heap.object?, halike.objects] using hs
  · simp only [Heap.promise?, Heap.body?, Heap.object?, halike.objects]

end

lemma Settles.destined {op : Operation.Known} (hop : Settles h s v op state)
    (hengine : (w.environment n).engine = e) (he : w.HasEngine e) (hheap : (w.engine e).heap = h)
    (hc : Heap.Chronicle limits pages events h pledged) (hs : h.resolver? s = some p)
    (hp : h.promise? p = some promise) (hpending : promise.state = .pending)
    (hopen : promise.locked = false) (hchain : h.Chain state p q)
    (hroom : ((perform host n op w).2.engine e).heap.Roomy) :
    (perform host n op w).1 = .boolean true ∧ state ≠ .pending ∧
      ((perform host n op w).2.engine e).heap.Destined state v q := by
  cases hop with
  | resolve resolver value hr hv hplain =>
    obtain ⟨hyes, hdestined⟩ := settleWith_destined hengine he hheap hc hs hr hv
      (fun h' events hc' hs' hsame => (Heap.destined_resolver hc' hs' ((hsame p).trans hp)
        hpending hopen (hchain.congr hsame)).1 rfl fun x hx => (hsame x).trans (hplain x hx))
      hroom
    exact ⟨congrArg Answer.boolean hyes, by simp, hdestined⟩
  | reject resolver value hr hv =>
    obtain ⟨hyes, hdestined⟩ := settleWith_destined hengine he hheap hc hs hr hv
      (fun h' events hc' hs' hsame => (Heap.destined_resolver hc' hs' ((hsame p).trans hp)
        hpending hopen (hchain.congr hsame)).2 rfl) hroom
    exact ⟨congrArg Answer.boolean hyes, by simp, hdestined⟩

end Lookup

end Environment

-- If handlers do not call back into the engine and a promise is settled, then every promise that a
-- chain leads to has the same outcome once the jobs have been run.
theorem outcomes_propagate (hn : host.Native diary) (w : World σ) (hw : w.Reached diary host)
    (handlers : Host τ) (ha : handlers.Aloof) (m : World τ) (hm : m.seen ∈ w.moments diary)
    (n : EnvironmentId) (hthere : m.Has n) (e : EngineId) (hengine : (m.environment n).engine = e)
    (h : Heap) (hheap : (m.engine e).heap = h) (s p q : ObjectRef) (promise : Promise)
    (hs : h.resolver? s = some p) (hp : h.promise? p = some promise)
    (hpending : promise.state = .pending) (hopen : promise.locked = false) (v : Value)
    (op : Environment.Operation.Known) (state : PromiseState)
    (hop : Environment.Settles h s v op state) (hchain : h.Chain state p q) (m' : World τ)
    (hm' : (Environment.perform handlers n op m).2 = m')
    (hroom : ∀ budget, ((Engine.runJobs handlers e budget m').2.engine e).heap.Roomy) :
    (Environment.perform handlers n op m).1 = .boolean true ∧
    ∃ last : World τ,
      (∀ budget, (m'.engine e).heap.burden ≤ budget →
        Engine.runJobs handlers e budget m' = ((), last)) ∧
      ((m'.engine e).heap.burden ≤ handlers.jobBudget →
        Environment.perform handlers n .runMicrotasks m' = (.done, last)) ∧
      (last.engine e).heap.promiseState? q = some state ∧
      (last.engine e).heap.promiseResult? q = some v := by
  obtain ⟨pledges, hlaw⟩ := (hw.lawful hn).moment hm
  have he : m.HasEngine e := hengine ▸ hlaw.accounted.engine n hthere
  obtain ⟨hlaw', hretains⟩ := Environment.perform_lawful ha.lawful List.mem_cons_self op pledges m
    hlaw fun k hk => List.mem_singleton.mp hk ▸ hthere
  obtain ⟨limits, events, hc⟩ := hlaw.history e he
  obtain ⟨hanswer, hstate, hdestined⟩ := hop.destined hengine he hheap (hheap ▸ hc) hs hp hpending
    hopen hchain (hm'.symm ▸ hroom 0)
  rw [hm'] at hlaw' hretains hdestined
  obtain ⟨last, hdry, hrun⟩ := Engine.runJobs_ends ha hlaw' hroom
  have hlast := hrun _ (Nat.le_refl _)
  have hend := Engine.runJobs_induction ha hlaw' hroom (I := fun _ h => h.Destined state v q)
    (fun _ hd => hd) (fun hc hj hworked hbefore hroom hd => hd.work hstate hc hj hworked hbefore hroom)
    (m'.engine e).heap.burden hdestined
  rw [hlast] at hend
  refine ⟨hanswer, last, hrun, fun hle => Environment.perform_runMicrotasks ?_ (hrun _ hle), ?_⟩
  · exact (hretains.engine n hthere).trans hengine
  · rcases hend with ⟨promise, hq, rfl, rfl⟩ | ⟨job, hjob, -⟩
    · simp [Heap.promiseState?, Heap.promiseResult?, hq, hstate]
    · exact absurd hjob (by simp [hdry])

-- A promise is handled in one way and in another, and one more promise follows what comes of the
-- other handler.
def forked : List Action :=
  [.newEngine {}, .attach ⟨0⟩, .operate ⟨0⟩ (.newFunction 0 ⟨⟨0⟩, none⟩),
    .operate ⟨0⟩ .createResolver,
    .operate ⟨0⟩ (.promiseThen (.transient (.first 2)) (.transient (.first 1))),
    .operate ⟨0⟩ (.promiseCatch (.transient (.first 2)) (.transient (.first 1))),
    .operate ⟨0⟩ .createResolver,
    .operate ⟨0⟩ (.resolve (.transient (.first 7)) (.object .promise (.transient (.first 5))))]

def afterFork : World (List (World Unit)) := World.after handlers { host := [] } forked

lemma afterFork_reached : afterFork.Reached id handlers :=
  ⟨[], rfl, Stretch.start.after forked (by decide +kernel)⟩

def settling : Environment.Operation.Known := .resolve (.transient (.first 3)) (.int 7)

def afterSettling : World Unit := (Environment.perform entangling ⟨0⟩ settling afterFork.seen).2

lemma afterSettling_roomy (budget : Nat) :
    ((Engine.runJobs entangling ⟨0⟩ budget afterSettling).2.engine ⟨0⟩).heap.Roomy :=
  Engine.roomy_of_done 4 8 (by decide) (by decide +kernel) (by decide +kernel) budget

lemma afterFork_settles : Environment.Settles (afterFork.seen.engine ⟨0⟩).heap (.first 3) (.int 7)
    settling .fulfilled :=
  .resolve _ _ (by decide +kernel) (by decide +kernel) fun x hx => absurd hx (by simp)

lemma afterFork_promise :
    (afterFork.seen.engine ⟨0⟩).heap.promise? (.first 2) = some ⟨.pending, .undefined,
      [⟨some (.first 1), none, .first 4⟩, ⟨none, some (.first 1), .first 5⟩], true, false⟩ := by
  decide +kernel

-- The outcome passes a reaction that has a handler for the other outcome, and the following.
lemma afterFork_chain :
    (afterFork.seen.engine ⟨0⟩).heap.Chain .fulfilled (.first 2) (.first 6) := by
  have hsecond : (afterFork.seen.engine ⟨0⟩).heap.promise? (.first 5) =
    some ⟨.pending, .undefined, [⟨none, none, .first 6⟩], true, false⟩ := by decide +kernel
  have hlast : (afterFork.seen.engine ⟨0⟩).heap.promise? (.first 6) =
    some ⟨.pending, .undefined, [], false, true⟩ := by decide +kernel
  exact .link _ _ afterFork_promise (List.mem_cons_of_mem _ List.mem_cons_self) rfl
    (.link _ _ hsecond List.mem_cons_self rfl (.here _ hlast))

theorem outcomes_propagate_of_fork :
    entangling.Aloof ∧ (afterFork.seen.engine ⟨0⟩).heap.Chain .fulfilled (.first 2) (.first 6) ∧
    ∃ last, Engine.runJobs entangling ⟨0⟩ 6 afterSettling = ((), last) ∧
      (last.engine ⟨0⟩).heap.promiseState? (.first 6) = some .fulfilled ∧
      (last.engine ⟨0⟩).heap.promiseResult? (.first 6) = some (.int 7) := by
  obtain ⟨-, last, hrun, -, houtcome⟩ := outcomes_propagate handlers_native afterFork
    afterFork_reached entangling entangling_aloof afterFork.seen afterFork.seen_mem_moments ⟨0⟩
    (by decide +kernel) ⟨0⟩ (by decide +kernel) _ rfl (.first 3) (.first 2) (.first 6) _
    (by decide +kernel)
    afterFork_promise rfl rfl (.int 7)
    settling .fulfilled afterFork_settles afterFork_chain afterSettling rfl afterSettling_roomy
  have hburden : (afterSettling.engine ⟨0⟩).heap.burden = 5 := by decide +kernel
  exact ⟨entangling_aloof, afterFork_chain, last, hrun 6 (by rw [hburden]; decide), houtcome⟩

end HostBoundary
