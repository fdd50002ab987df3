import HostBoundary.Proofs.Chronicle

namespace HostBoundary

variable {job : Job} {limits : HeapLimits} {pages : List Heap} {d r s : ObjectRef} {p p' : Promise}
  {state : PromiseState}

namespace Promise

-- Nothing but a settled promise has a result, and none but a pending one has reactions.
structure Sound (p : Promise) : Prop where
  result : p.state = .pending → p.result = .undefined
  reactions : p.state ≠ .pending → p.reactions = []

structure Keeps (p p' : Promise) : Prop where
  outcome : p.state ≠ .pending → p'.state = p.state ∧ p'.result = p.result
  locked : p.locked = true → p'.locked = true

lemma Keeps.refl (p : Promise) : p.Keeps p := ⟨fun _ => ⟨rfl, rfl⟩, id⟩

lemma Keeps.trans (p q s : Promise) (hpq : p.Keeps q) (hqs : q.Keeps s) : p.Keeps s where
  outcome hp := by
    obtain ⟨hstate, hresult⟩ := hpq.outcome hp
    obtain ⟨hstate', hresult'⟩ := hqs.outcome (hstate ▸ hp)
    exact ⟨hstate'.trans hstate, hresult'.trans hresult⟩
  locked hp := hqs.locked (hpq.locked hp)

section React

variable (p : Promise) (reaction : Reaction) (counts : Bool)

lemma react_state : (p.react reaction counts).2.state = p.state := by
  by_cases hp : p.state = .pending
  · rw [react_of_pending hp]
  · rw [react_of_settled hp]

lemma react_result : (p.react reaction counts).2.result = p.result := by
  by_cases hp : p.state = .pending
  · rw [react_of_pending hp]
  · rw [react_of_settled hp]

lemma react_locked : (p.react reaction counts).2.locked = p.locked := by
  by_cases hp : p.state = .pending
  · rw [react_of_pending hp]
  · rw [react_of_settled hp]

lemma mem_react (hjob : job ∈ (p.react reaction counts).1.toList) :
    p.state ≠ .pending ∧ job = ⟨reaction, p.state, p.result⟩ := by
  by_cases hp : p.state = .pending
  · rw [react_of_pending hp] at hjob
    exact absurd hjob (by simp)
  · rw [react_of_settled hp] at hjob
    exact ⟨hp, by simpa using hjob⟩

lemma Sound.react {p : Promise} (hp : p.Sound) : (p.react reaction counts).2.Sound where
  result := by
    rw [react_state, react_result]
    exact hp.result
  reactions hstate := by
    rw [react_state] at hstate
    rw [react_of_settled hstate]
    exact hp.reactions hstate

end React

section Settle

variable {p : Promise} {state : PromiseState} (value : Value)

lemma settle_locked : (p.settle state value).2.locked = p.locked := by
  by_cases hleft : p.state ≠ .pending ∨ state = .pending
  · rw [settle_of_left hleft]
  · obtain ⟨hp, hs⟩ := not_or.mp hleft
    rw [settle_of_pending (Decidable.not_not.mp hp) hs]

lemma mem_settle (hjob : job ∈ (p.settle state value).1.getD []) :
    p.state = .pending ∧ state ≠ .pending ∧
      ∃ reaction ∈ p.reactions, job = ⟨reaction, state, value⟩ := by
  by_cases hleft : p.state ≠ .pending ∨ state = .pending
  · rw [settle_of_left hleft] at hjob
    exact absurd hjob (by simp)
  · obtain ⟨hp, hs⟩ := not_or.mp hleft
    have hpending := Decidable.not_not.mp hp
    rw [settle_of_pending hpending hs] at hjob
    obtain ⟨reaction, hmem, rfl⟩ := List.mem_map.mp hjob
    exact ⟨hpending, hs, reaction, hmem, rfl⟩

lemma Sound.settle (hp : p.Sound) (hs : state ≠ .pending) : (p.settle state value).2.Sound := by
  by_cases hpending : p.state = .pending
  · rw [settle_of_pending hpending hs]
    exact ⟨fun h => absurd h hs, fun _ => rfl⟩
  · rw [settle_of_left (.inl hpending)]
    exact hp

end Settle

end Promise

namespace Heap

section Fresh

variable (limits : HeapLimits)

lemma object?_fresh (r : ObjectRef) (o : HeapObject) (ho : (fresh limits).object? r = some o) :
    o.role.settles = false := by
  rcases (initial limits).object?_allocate (.ofBody .plain) r o ho with rfl | hempty
  · rfl
  · exact absurd hempty (by simp [initial, object?, Arena.get?])

lemma promise?_fresh (r : ObjectRef) : (fresh limits).promise? r = none := by
  cases hp : (fresh limits).promise? r with
  | none => rfl
  | some p =>
    obtain ⟨o, ho, hrole⟩ := (promise?_eq_some_iff _ r p).mp hp
    exact absurd (object?_fresh limits r o ho) (by simp [hrole, HeapObject.Role.settles])

lemma resolver?_fresh (r : ObjectRef) : (fresh limits).resolver? r = none := by
  cases hp : (fresh limits).resolver? r with
  | none => rfl
  | some target =>
    obtain ⟨o, ho, hrole⟩ := (resolver?_eq_some_iff _ r target).mp hp
    exact absurd (object?_fresh limits r o ho) (by simp [hrole, HeapObject.Role.settles])

lemma jobs_fresh : (fresh limits).jobs = [] := (initial limits).allocate_jobs (.ofBody .plain)

lemma awaited_fresh : (fresh limits).awaited = [] := rfl

end Fresh

section States

structure SoundPromises (h : Heap) : Prop where
  promise : ∀ r p, h.promise? r = some p → p.Sound
  fulfilled : ∀ r p, h.promise? r = some p → p.state = .fulfilled →
    ∀ x, p.result = .object x → h.promise? x = none ∧ h.objects.Issued x
  value : ∀ job ∈ h.jobs, job.state = .fulfilled → ∀ x, job.value = .object x →
    h.objects.Issued x

lemma soundPromises_fresh (limits : HeapLimits) : (fresh limits).SoundPromises where
  promise r p hp := absurd hp (by simp [promise?_fresh])
  fulfilled r p hp := absurd hp (by simp [promise?_fresh])
  value := by simp [jobs_fresh]

variable {h h' : Heap} {pledged pledged' : List ObjectRef} {more : List Event}

namespace Step

variable (hs : Step h pledged more h' pledged')

include hs

lemma queued_settled (hjob : job ∈ Event.queue more) : job.state ≠ .pending := by
  cases hs with
  | quiet | openScope | closeScope | newResolver | lock | refuse | start =>
    exact absurd hjob (by simp [Event.queue])
  | derive s p | adopt d inner p =>
    rw [Event.queue_registration] at hjob
    obtain ⟨hsettled, rfl⟩ := p.mem_react _ true hjob
    exact hsettled
  | settle d state value =>
    rw [queue_settlement] at hjob
    cases hp : h.promise? d with
    | none => exact absurd hjob (by simp [released_of_none h d state value hp])
    | some p =>
      rw [released_of_some h d state value hp] at hjob
      obtain ⟨-, hstate, -, -, rfl⟩ := Promise.mem_settle value hjob
      exact hstate

lemma mem_jobs (hjob : job ∈ h'.jobs) : job ∈ h.jobs ∨ job ∈ Event.queue more := by
  refine List.mem_append.mp ?_
  rw [hs.jobs]
  exact List.mem_append_right _ hjob

variable (hwf : h.WellFormed)

include hwf

lemma queued (hjob : job ∈ Event.queue more) :
    ∃ r p, h'.promise? r = some p ∧ job.state = p.state ∧ job.value = p.result := by
  have hreact : ∀ {middle : Heap} {s : ObjectRef} {p : Promise} {reaction : Reaction},
      middle.promise? s = some p → job ∈ (p.react reaction true).1.toList →
      ∃ r q, (middle.react s p reaction).promise? r = some q ∧ job.state = q.state ∧
        job.value = q.result := by
    intro middle s p reaction hp hmem
    obtain ⟨-, rfl⟩ := p.mem_react reaction true hmem
    refine ⟨s, (p.react reaction true).2, ?_, ?_, ?_⟩
    · exact (middle.promise?_setPromise hp _ s).trans (if_pos rfl)
    · rw [Promise.react_state]
    · rw [Promise.react_result]
  cases hs with
  | quiet | openScope | closeScope | newResolver | lock | refuse | start =>
    exact absurd hjob (by simp [Event.queue])
  | derive s p f g hp =>
    rw [Event.queue_registration] at hjob
    rw [thenPromise_of_some hp]
    exact hreact (promise?_allocate_of_some hwf _ hp) hjob
  | adopt d inner p hp =>
    rw [Event.queue_registration] at hjob
    exact hreact hp hjob
  | settle d state value =>
    rw [queue_settlement] at hjob
    cases hp : h.promise? d with
    | none => exact absurd hjob (by simp [released_of_none h d state value hp])
    | some p =>
      rw [released_of_some h d state value hp] at hjob
      obtain ⟨hpending, hstate, reaction, -, rfl⟩ := Promise.mem_settle value hjob
      refine ⟨d, (p.settle state value).2, ?_, ?_⟩
      · rw [settle_of_some h d state value hp, promise?_enqueue, h.promise?_setPromise hp]
        exact if_pos rfl
      · rw [Promise.settle_of_pending hpending hstate]
        exact ⟨rfl, rfl⟩

-- Once a promise has settled, its outcome stays; once its resolver is locked, it stays locked.
lemma keeps (hroom : h'.Roomy) (hp : h.promise? r = some p) (hp' : h'.promise? r = some p') :
    p.Keeps p' := by
  have hsame : ∀ {q}, h.promise? r = some q → q = p := fun hq =>
    Option.some.inj (hq.symm.trans hp)
  cases hs.change hwf hroom hp' with
  | same _ hq => exact hsame hq ▸ .refl _
  | born hfresh => exact absurd (hwf.issued_of_contains (h.isAlive_of_promise? hp)) hfresh
  | locked q hq => exact hsame hq ▸ ⟨fun _ => ⟨rfl, rfl⟩, fun _ => rfl⟩
  | reacted q reaction hq =>
    obtain rfl := hsame hq
    refine ⟨fun _ => ⟨q.react_state _ _, q.react_result _ _⟩, fun hl => ?_⟩
    rw [Promise.react_locked]
    exact hl
  | settled q state value hq =>
    obtain rfl := hsame hq
    refine ⟨fun hleft => ?_, fun hl => ?_⟩
    · rw [Promise.settle_of_left (.inl hleft)]
      exact ⟨rfl, rfl⟩
    · rw [Promise.settle_locked]
      exact hl

lemma plain (hroom : h'.Roomy) (hsound : h.SoundPromises) (hp' : h'.promise? r = some p')
    (hstate : p'.state = .fulfilled) {x : ObjectRef} (hx : p'.result = .object x) :
    h.promise? x = none ∧ h.objects.Issued x := by
  cases hs.change hwf hroom hp' with
  | same _ hp => exact hsound.fulfilled r p' hp hstate x hx
  | born => exact absurd hstate (by simp)
  | locked p hp => exact hsound.fulfilled r p hp hstate x hx
  | reacted p reaction hp =>
    rw [Promise.react_state] at hstate
    rw [Promise.react_result] at hx
    exact hsound.fulfilled r p hp hstate x hx
  | settled p state value hp hnot hplain =>
    by_cases hpending : p.state = .pending
    · rw [Promise.settle_of_pending hpending hnot] at hstate hx
      obtain ⟨hnone, hissued⟩ := hplain hstate x hx
      exact ⟨hnone, hissued (hs.leads.roomy hroom)⟩
    · rw [Promise.settle_of_left (.inl hpending)] at hstate hx
      exact hsound.fulfilled r p hp hstate x hx

lemma soundPromises (hroom : h'.Roomy) (hsound : h.SoundPromises) : h'.SoundPromises := by
  have hpromise : ∀ r p', h'.promise? r = some p' → p'.Sound := by
    intro r p' hp'
    cases hs.change hwf hroom hp' with
    | same _ hp => exact hsound.promise r p' hp
    | born => exact ⟨fun _ => rfl, fun _ => rfl⟩
    | locked p hp => exact ⟨(hsound.promise r p hp).result, (hsound.promise r p hp).reactions⟩
    | reacted p reaction hp => exact (hsound.promise r p hp).react reaction true
    | settled p state value hp hnot => exact (hsound.promise r p hp).settle value hnot
  have hfulfilled : ∀ r p', h'.promise? r = some p' → p'.state = .fulfilled →
      ∀ x, p'.result = .object x → h'.promise? x = none ∧ h'.objects.Issued x := by
    intro r p' hp' hstate x hx
    obtain ⟨hnone, hissued⟩ := hs.plain hwf hroom hsound hp' hstate hx
    exact ⟨hs.promise?_eq_none hwf hroom hnone hissued, hs.leads.issued hwf hroom hissued⟩
  refine ⟨hpromise, hfulfilled, fun job hjob hstate x hx => ?_⟩
  rcases hs.mem_jobs hjob with hold | hnew
  · exact hs.leads.issued hwf hroom (hsound.value job hold hstate x hx)
  · obtain ⟨r, p', hp', hs', hv⟩ := hs.queued hwf hnew
    exact (hfulfilled r p' hp' (hs' ▸ hstate) x (hv ▸ hx)).2

end Step

lemma Chronicle.soundPromises {events : List Event} (hc : Chronicle limits pages events h pledged)
    (hroom : h.Roomy) : h.SoundPromises :=
  hc.invariant (I := fun _ h _ => h.SoundPromises) (soundPromises_fresh limits)
    (fun hwf hroom hs hsound => hs.soundPromises hwf hroom hsound) hroom

lemma Chronicle.job_settled {events : List Event} (hc : Chronicle limits pages events h pledged) :
    ∀ job ∈ h.jobs, job.state ≠ .pending := by
  induction hc with
  | fresh => simp [jobs_fresh]
  | step _ hs ih =>
    intro job hjob
    rcases hs.mem_jobs hjob with hold | hnew
    · exact ih job hold
    · exact hs.queued_settled hnew
  | note _ ih => exact ih

lemma Later.keeps (hl : h.Later h') (hwf : h.WellFormed) (hroom : h'.Roomy)
    (hp : h.promise? r = some p) (hp' : h'.promise? r = some p') : p.Keeps p' :=
  hl.promise Promise.Keeps.refl Promise.Keeps.trans
    (fun hs hwf hroom _ _ _ hp hp' => hs.keeps hwf hroom hp hp') hwf hroom hp hp'

end States

section Following

-- One promise follows another: a reaction without handlers waits in that one, or its job is
-- queued already.
def Follows (h : Heap) (d x : ObjectRef) : Prop :=
  ∃ q, h.promise? x = some q ∧ (q.state = .pending → ⟨none, none, d⟩ ∈ q.reactions) ∧
    (q.state ≠ .pending → ⟨⟨none, none, d⟩, q.state, q.result⟩ ∈ h.jobs)

variable {h : Heap} {d x : ObjectRef} {p q : Promise}

lemma fulfil_with_promise (hne : x ≠ d) (hd : h.promise? d = some p) (hx : h.promise? x = some q) :
    (h.fulfil d (.object x)).promise? d = some p ∧ (h.fulfil d (.object x)).Follows d x := by
  have heq : h.fulfil d (.object x) = h.react x q { derived := d } := by
    simp only [fulfil, if_neg hne, hx]
  have hset : ∀ s, (h.react x q { derived := d }).promise? s =
      if s = x then some (q.react { derived := d } true).2 else h.promise? s :=
    fun s => h.promise?_setPromise hx _ s
  rw [heq]
  refine ⟨(hset d).trans ((if_neg (Ne.symm hne)).trans hd), _, (hset x).trans (if_pos rfl), ?_, ?_⟩
  · rw [Promise.react_state]
    intro hpending
    rw [Promise.react_of_pending hpending]
    exact List.mem_append_right _ List.mem_cons_self
  · rw [Promise.react_state, Promise.react_result]
    intro hsettled
    have hjobs : (h.react x q { derived := d }).jobs =
      h.jobs ++ (q.react { derived := d } true).1.toList := rfl
    rw [hjobs, Promise.react_of_settled hsettled]
    exact List.mem_append_right _ List.mem_cons_self

lemma fulfil_with_itself (hwf : h.WellFormed) (hd : h.promise? d = some p)
    (hpending : p.state = .pending) (hroom : (h.fulfil d (.object d)).Roomy) :
    ∃ error, (h.fulfil d (.object d)).promise? d =
        some { p with state := .rejected, result := .object error, reactions := [] } ∧
      (h.fulfil d (.object d)).object? error =
        some (errorObject .typeError "promise resolved with itself") := by
  let made := h.allocate (errorObject .typeError "promise resolved with itself")
  have heq : h.fulfil d (.object d) = made.2.settle d .rejected (.object made.1) := by
    simp only [fulfil, if_true]
    rfl
  have hmade : made.2.promise? d = some p := promise?_allocate_of_some hwf _ hd
  have hroom' : made.2.Roomy := (works_settle made.2 d _ _).leads.roomy (heq ▸ hroom)
  -- The error is a new object, and so it is not the promise.
  have hnew : made.1 ≠ d := fun hsame => not_issued_allocate hwf _ hroom'
    (hsame ▸ hwf.issued_of_contains (h.isAlive_of_promise? hd))
  have herror : made.2.object? made.1 =
      some (errorObject .typeError "promise resolved with itself") := by
    have hsize : h.objects.slots.size < 2 ^ 32 := (leads_allocate h _).roomy hroom'
    simp only [made, object?, allocate_objects]
    exact h.objects.get?_insert_self hwf hsize _
  have hsettled : made.2.settle d .rejected (.object made.1) = (made.2.setPromise d
      { p with state := .rejected, result := .object made.1, reactions := [] }).enqueue
        (p.reactions.map fun reaction => ⟨reaction, .rejected, .object made.1⟩) := by
    rw [settle_of_some made.2 d _ _ hmade, Promise.settle_of_pending hpending (by simp)]
    rfl
  rw [heq, hsettled]
  refine ⟨made.1, ?_, ?_⟩
  · rw [promise?_enqueue, made.2.promise?_setPromise hmade]
    exact if_pos rfl
  · exact ((made.2.object?_modifyObject d made.1 _).trans (if_neg hnew)).trans herror

end Following

section Reactions

-- How the events of a chronicle and the heap that they lead to agree.
structure Agrees (h : Heap) (events : List Event) : Prop where
  started : Event.starts events ++ h.jobs = Event.queue events
  pending : ∀ r p, h.promise? r = some p → p.state = .pending →
    Event.registrations r events = p.reactions ∧ Event.jobsOf r events = []
  settled : ∀ r p, h.promise? r = some p → p.state ≠ .pending →
    Event.jobsOf r events = (Event.registrations r events).map (⟨·, p.state, p.result⟩)
  given : ∀ r, ¬ h.objects.Issued r →
    Event.registrations r events = [] ∧ Event.jobsOf r events = []

lemma agrees_fresh (limits : HeapLimits) : (fresh limits).Agrees [] where
  started := by
    rw [jobs_fresh]
    rfl
  pending r p hp := absurd hp (by simp [promise?_fresh])
  settled r p hp := absurd hp (by simp [promise?_fresh])
  given _ _ := ⟨rfl, rfl⟩

variable {h h' : Heap} {pledged pledged' : List ObjectRef} {more events : List Event}

lemma Step.given (hs : Step h pledged more h' pledged') (hwf : h.WellFormed)
    (hr : ¬ h.objects.Issued r) : Event.registrations r more = [] ∧ Event.jobsOf r more = [] := by
  have hne : ∀ {s p}, h.promise? s = some p → s ≠ r := fun hp heq =>
    hr (heq ▸ hwf.issued_of_contains (h.isAlive_of_promise? hp))
  cases hs with
  | quiet | openScope | closeScope | newResolver | lock | refuse | start => exact ⟨rfl, rfl⟩
  | derive s p f g hp | adopt d s p hp =>
    rw [Event.registrations_registration, Event.jobsOf_registration, if_neg (hne hp),
      if_neg (hne hp)]
    exact ⟨rfl, rfl⟩
  | settle d state value =>
    rw [registrations_settlement, jobsOf_settlement]
    refine ⟨rfl, ?_⟩
    cases hp : h.promise? d with
    | none => rw [released_of_none h d state value hp, ite_self]
    | some p => exact if_neg (hne hp)

lemma Step.agrees (hs : Step h pledged more h' pledged') (hwf : h.WellFormed)
    (hroom : h'.Roomy) (ha : h.Agrees events) : h'.Agrees (events ++ more) where
  started := by
    rw [Event.starts_append, Event.queue_append, List.append_assoc, ← hs.jobs, ← ha.started,
      List.append_assoc]
  pending r p' hp' hstate := by
    simp only [Event.registrations_append, Event.jobsOf_append]
    cases hs.change hwf hroom hp' with
    | same _ hp hregs hjobs =>
      obtain ⟨hbefore, hnone⟩ := ha.pending r p' hp hstate
      simp [hregs, hjobs, hbefore, hnone]
    | born hfresh hregs hjobs =>
      obtain ⟨hbefore, hnone⟩ := ha.given r hfresh
      simp [hregs, hjobs, hbefore, hnone]
    | locked p hp hopen hpending hregs hjobs =>
      obtain ⟨hbefore, hnone⟩ := ha.pending r p hp hpending
      simp [hregs, hjobs, hbefore, hnone]
    | reacted p reaction hp hregs hjobs =>
      rw [Promise.react_state] at hstate
      obtain ⟨hbefore, hnone⟩ := ha.pending r p hp hstate
      simp [hregs, hjobs, hbefore, hnone, Promise.react_of_pending hstate]
    | settled p state value hp hnot hplain hpledged hawaited hregs hjobs =>
      -- A promise that is pending after it was settled has not been there to settle.
      by_cases hpending : p.state = .pending
      · rw [Promise.settle_of_pending hpending hnot] at hstate
        exact absurd hstate hnot
      · rw [Promise.settle_of_left (.inl hpending)] at hstate
        exact absurd hstate hpending
  settled r p' hp' hstate := by
    simp only [Event.registrations_append, Event.jobsOf_append]
    cases hs.change hwf hroom hp' with
    | same _ hp hregs hjobs => simp [hregs, hjobs, ha.settled r p' hp hstate]
    | born => exact absurd rfl hstate
    | locked p hp hopen hpending => exact absurd hpending hstate
    | reacted p reaction hp hregs hjobs =>
      have hsettled : p.state ≠ .pending := by rwa [Promise.react_state] at hstate
      simp [hregs, hjobs, ha.settled r p hp hsettled, Promise.react_of_settled hsettled]
    | settled p state value hp hnot hplain hpledged hawaited hregs hjobs =>
      by_cases hpending : p.state = .pending
      · obtain ⟨hbefore, hnone⟩ := ha.pending r p hp hpending
        simp [hregs, hjobs, hbefore, hnone, Promise.settle_of_pending hpending hnot]
      · simp [hregs, hjobs, ha.settled r p hp hpending, Promise.settle_of_left (.inl hpending)]
  given r hr := by
    have hbefore : ¬ h.objects.Issued r := fun hissued => hr (hs.leads.issued hwf hroom hissued)
    obtain ⟨hregs, hjobs⟩ := ha.given r hbefore
    obtain ⟨hregs', hjobs'⟩ := hs.given hwf hbefore
    simp [hregs, hjobs, hregs', hjobs']

lemma Chronicle.agrees (hc : Chronicle limits pages events h pledged) (hroom : h.Roomy) :
    h.Agrees events :=
  hc.invariant (I := fun events h _ => h.Agrees events) (agrees_fresh limits)
    (fun hwf hroom hs ha => hs.agrees hwf hroom ha) hroom

end Reactions

section Settlers

-- The promises that somebody is going to settle: a reaction, a job, or code under way.
def claimed (h : Heap) (pledged : List ObjectRef) : List ObjectRef := h.awaited ++ pledged

-- Nobody settles what somebody else is going to settle.
structure Settlers (h : Heap) (pledged : List ObjectRef) (events : List Event) : Prop where
  once : ∀ d, (h.claimed pledged).count d ≤ 1
  issued : ∀ d ∈ h.claimed pledged, h.objects.Issued d
  pending : ∀ d ∈ h.claimed pledged, ∀ p, h.promise? d = some p → p.state = .pending
  target : ∀ s d, h.resolver? s = some d → h.objects.Issued d
  unlocked : ∀ s d p, h.resolver? s = some d → h.promise? d = some p → p.locked = false →
    d ∉ h.claimed pledged
  found : ∀ r state, Event.settling r (some state) ∈ events → state = .pending
  answered : ∀ s, Event.answered s true ∈ events → h.objects.Issued s ∧
    ∀ d p, h.resolver? s = some d → h.promise? d = some p → p.locked = true
  accepted : ∀ s, events.count (.answered s true) ≤ 1

lemma settlers_fresh (limits : HeapLimits) : (fresh limits).Settlers [] [] := by
  have hnone : (fresh limits).claimed [] = [] := by
    rw [claimed, awaited_fresh]
    rfl
  refine ⟨?_, ?_, ?_, ?_, ?_, ?_, ?_, ?_⟩
  · simp [hnone]
  · simp [hnone]
  · simp [hnone]
  · simp [resolver?_fresh]
  · simp [resolver?_fresh]
  · simp
  · simp
  · simp

variable {h h' : Heap} {pledged pledged' : List ObjectRef} {more events : List Event}

-- How the promises that somebody is going to settle change: none is added, or one that is new,
-- or one whose resolver was still to be used.
inductive Tally (h h' : Heap) (pledged pledged' : List ObjectRef) : Prop where
  | kept (hle : ∀ x, (h'.claimed pledged').count x ≤ (h.claimed pledged).count x)
  | fresh (d : ObjectRef) (hd : ¬ h.objects.Issued d) (hd' : h'.objects.Issued d)
      (hle : ∀ x, (h'.claimed pledged').count x ≤ (d :: h.claimed pledged).count x)
  | locked (s d : ObjectRef) (p : Promise) (hs : h.resolver? s = some d)
      (hp : h.promise? d = some p) (hopen : p.locked = false)
      (hp' : h'.promise? d = some { p with locked := true }) (hstate : p.state = .pending)
      (hle : ∀ x, (h'.claimed pledged').count x ≤ (d :: h.claimed pledged).count x)

lemma count_awaited_react (hp : h.promise? s = some p) (reaction : Reaction) (x : ObjectRef) :
    (h.react s p reaction).awaited.count x = h.awaited.count x + [reaction.derived].count x := by
  have hcount := h.count_awaited_setPromise hp (p.react reaction true).2 x
  have heq : h.react s p reaction =
      (h.setPromise s (p.react reaction true).2).enqueue (p.react reaction true).1.toList := rfl
  rw [heq, awaited_enqueue, List.count_append]
  by_cases hpending : p.state = .pending
  · simp only [Promise.react_of_pending hpending, List.map_append, List.count_append,
      List.map_cons, List.map_nil, Option.toList_none, List.count_nil] at hcount ⊢
    omega
  · simp only [Promise.react_of_settled hpending, List.map_cons, List.map_nil,
      Option.toList_some] at hcount ⊢
    omega

lemma count_awaited_newResolver (h : Heap) (x : ObjectRef) :
    h.newResolver.2.awaited.count x ≤ h.awaited.count x := by
  have hfirst := h.count_awaited_allocate (.ofBody (.promise {})) rfl x
  have hsecond := h.newPromise.2.count_awaited_allocate (.ofBody (.resolver h.newPromise.1)) rfl x
  exact Nat.le_trans hsecond hfirst

lemma awaited_root (h : Heap) (r : ObjectRef) : (h.root r).awaited = h.awaited := by
  simp [awaited, root_jobs]

namespace Step

variable (hs : Step h pledged more h' pledged')

include hs

lemma tally (hwf : h.WellFormed) (hroom : h'.Roomy) : Tally h h' pledged pledged' := by
  have hstill : ∀ {g : Heap}, h.Still g → Tally h g pledged pledged := fun hg =>
    .kept fun x => by
      have hle := hg.awaited x
      simp only [claimed, List.count_append]
      omega
  cases hs with
  | quiet op hq => exact hstill hq.still
  | openScope => exact hstill h.still_pushScope
  | closeScope => exact hstill h.still_popScope
  | newResolver =>
    refine .kept fun x => ?_
    simp only [claimed, List.count_append]
    exact Nat.add_le_add_right (h.count_awaited_newResolver x) _
  | derive s p f g hp =>
    have hmiddle := promise?_allocate_of_some hwf (.ofBody (.promise {})) hp
    rw [thenPromise_of_some hp] at hroom ⊢
    have hreact := (works_react _ s p ⟨f, g, h.newPromise.1⟩ (promise_body _ s p hmiddle)).leads
    have hfirst : h.newPromise.2.Roomy := hreact.roomy hroom
    have hwf' := (h.leads_allocate (.ofBody (.promise {}))).wellFormed hwf hfirst
    refine .fresh h.newPromise.1 (not_issued_allocate hwf _ hfirst)
      (hreact.issued hwf' hroom (issued_allocate hwf _ hfirst)) fun x => ?_
    have hcount := count_awaited_react hmiddle ⟨f, g, h.newPromise.1⟩ x
    have hle := h.count_awaited_allocate (.ofBody (.promise {})) rfl x
    simp only [claimed, List.count_append, List.count_cons, List.count_nil] at hcount ⊢
    change (h.newPromise.2.react s p _).awaited.count x = _ at hcount
    omega
  | lock s d hd =>
    obtain ⟨hresolver, p, hp, hopen, hstate, heq⟩ := lockResolver_of_some hd
    refine .locked s d p hresolver hp hopen ?_ hstate fun x => ?_
    · exact (promise?_lockResolver hd hp d).trans (if_pos rfl)
    · have hroot : (h.root d).promise? d = some p := (h.promise?_root d d).trans hp
      have hcount := (h.root d).count_awaited_setPromise hroot { p with locked := true } x
      rw [awaited_root] at hcount
      rw [heq]
      simp only [claimed, List.count_append, List.count_cons] at hcount ⊢
      omega
  | refuse s hn => exact hstill (quietly_lockResolver_of_none hn).still
  | settle d state value =>
    refine .kept fun x => ?_
    have hcount := h.count_awaited_settle d state value x
    simp only [claimed, List.count_append, List.count_cons]
    omega
  | adopt d inner p hp =>
    refine .kept fun x => ?_
    have hcount := count_awaited_react hp { derived := d } x
    simp only [claimed, List.count_append, List.count_cons, List.count_nil] at hcount ⊢
    omega
  | start job hj =>
    obtain ⟨hjobs, hobjects, -⟩ := nextJob_of_some hj
    refine .kept fun x => ?_
    simp only [claimed, awaited, hobjects, hjobs, List.map_cons, List.count_append,
      List.count_cons]
    omega

-- A resolver was there before, or it was made for a new promise that nobody settles yet.
lemma resolver (hwf : h.WellFormed) (hroom : h'.Roomy) (hr : h'.resolver? s = some d) :
    h.resolver? s = some d ∨ ¬ h.objects.Issued s ∧ ¬ h.objects.Issued d ∧ h'.objects.Issued d ∧
      ∀ x, (h'.claimed pledged').count x ≤ (h.claimed pledged).count x := by
  have hsame : ∀ {g : Heap}, g.objects = h.objects → g.resolver? s = some d →
      h.resolver? s = some d := by
    intro g hobjects hg
    simpa [resolver?, body?, object?, hobjects] using hg
  cases hs with
  | quiet op hq => exact .inl (hq.still.resolver hr)
  | openScope => exact .inl (h.still_pushScope.resolver hr)
  | closeScope => exact .inl (h.still_popScope.resolver hr)
  | newResolver =>
    have hlast := h.newPromise.2.leads_allocate (.ofBody (.resolver h.newPromise.1))
    have hmiddle : h.newPromise.2.Roomy := hlast.roomy hroom
    have hfirst := h.leads_allocate (.ofBody (.promise {}))
    have hwf' : h.newPromise.2.WellFormed := hfirst.wellFormed hwf hmiddle
    rcases resolver?_allocate hwf' _ hroom hr with ⟨rfl, hrole⟩ | hbefore
    · obtain rfl : h.newPromise.1 = d := HeapObject.Role.resolver.inj hrole
      refine .inr ⟨fun hi => ?_, not_issued_allocate hwf _ hmiddle, ?_, fun x => ?_⟩
      · exact not_issued_allocate hwf' _ hroom (hfirst.issued hwf hmiddle hi)
      · exact hlast.issued hwf' hroom (issued_allocate hwf _ hmiddle)
      · simp only [claimed, List.count_append]
        exact Nat.add_le_add_right (h.count_awaited_newResolver x) _
    · rcases resolver?_allocate hwf _ hmiddle hbefore with ⟨-, hrole⟩ | hold
      · exact absurd hrole (by simp [HeapObject.role, HeapObject.ofBody])
      · exact .inl hold
  | derive r p f g hp =>
    have hmiddle := promise?_allocate_of_some hwf (.ofBody (.promise {})) hp
    rw [thenPromise_of_some hp] at hroom hr
    have hfirst := (works_react _ r p _ (promise_body _ r p hmiddle)).leads.roomy hroom
    rcases resolver?_allocate hwf _ hfirst
      ((resolver?_setPromise _ hmiddle _ s).symm.trans hr) with ⟨-, hrole⟩ | hold
    · exact absurd hrole (by simp [HeapObject.role, HeapObject.ofBody])
    · exact .inl hold
  | lock r d' hd =>
    obtain ⟨-, p, hp, -, -, heq⟩ := lockResolver_of_some hd
    have hroot : (h.root d').promise? d' = some p := (h.promise?_root d' d').trans hp
    rw [heq, resolver?_setPromise _ hroot] at hr
    exact .inl (hsame (root_objects h d') hr)
  | refuse r hn => exact .inl ((quietly_lockResolver_of_none hn).still.resolver hr)
  | settle r state value =>
    cases hp : h.promise? r with
    | none => exact .inl (settle_of_none h r state value hp ▸ hr)
    | some p =>
      rw [settle_of_some h r state value hp] at hr
      exact .inl ((h.resolver?_setPromise hp _ s).symm.trans hr)
  | adopt d' inner p hp => exact .inl ((h.resolver?_setPromise hp _ s).symm.trans hr)
  | start job hj =>
    obtain ⟨-, hobjects, -⟩ := nextJob_of_some hj
    exact .inl (hsame hobjects hr)

lemma answered (ha : Event.answered s true ∈ more) :
    more = [.answered s true] ∧ ∃ d p, h.resolver? s = some d ∧ h.promise? d = some p ∧
      p.locked = false ∧ h'.promise? d = some { p with locked := true } := by
  cases hs with
  | lock r d hd =>
    obtain rfl : s = r := by simpa using ha
    obtain ⟨hresolver, p, hp, hopen, -⟩ := lockResolver_of_some hd
    exact ⟨rfl, d, p, hresolver, hp, hopen, (promise?_lockResolver hd hp d).trans (if_pos rfl)⟩
  | derive | adopt => exact absurd ha (by simp [Event.registration])
  | settle => exact absurd ha (by simp [settlement])
  | quiet | openScope | closeScope | newResolver | refuse | start => exact absurd ha (by simp)

lemma found (hf : Event.settling r (some state) ∈ more) :
    r ∈ pledged ∧ ∃ p, h.promise? r = some p ∧ p.state = state := by
  cases hs with
  | settle d state' value =>
    have hfound : r = d ∧ h.promiseState? d = some state := by
      simpa [settlement, eq_comm] using hf
    obtain ⟨rfl, hstate⟩ := hfound
    exact ⟨List.mem_cons_self, Option.map_eq_some_iff.mp hstate⟩
  | derive | adopt => exact absurd hf (by simp [Event.registration])
  | quiet | openScope | closeScope | newResolver | lock | refuse | start =>
    exact absurd hf (by simp)

end Step

lemma Step.claimed (hs : Step h pledged more h' pledged') (hwf : h.WellFormed)
    (hroom : h'.Roomy) (hd : d ∈ h'.claimed pledged') :
    d ∈ h.claimed pledged ∨ (¬ h.objects.Issued d ∧ h'.objects.Issued d) ∨
      ∃ s, ∃ p : Promise, h.resolver? s = some d ∧ h'.promise? d = some { p with locked := true } ∧
        p.state = .pending := by
  have hpos := List.count_pos_iff.mpr hd
  have hmem : ∀ {x}, (h'.claimed pledged').count d ≤ (x :: h.claimed pledged).count d →
      d ∈ h.claimed pledged ∨ d = x := by
    intro x hle
    have hin := List.count_pos_iff.mp (Nat.lt_of_lt_of_le hpos hle)
    exact (List.mem_cons.mp hin).symm
  cases hs.tally hwf hroom with
  | kept hle => exact .inl (List.count_pos_iff.mp (Nat.lt_of_lt_of_le hpos (hle d)))
  | fresh x hx hx' hle =>
    rcases hmem (hle d) with hold | rfl
    · exact .inl hold
    · exact .inr (.inl ⟨hx, hx'⟩)
  | locked s x p hr hp hopen hp' hstate hle =>
    rcases hmem (hle d) with hold | rfl
    · exact .inl hold
    · exact .inr (.inr ⟨s, p, hr, hp', hstate⟩)

namespace Later

variable (hl : h.Later h') (hwf : h.WellFormed) (hroom : h'.Roomy) {s : ObjectRef}
  (hs : h.objects.Issued s)

include hl hwf hroom hs

lemma resolver (hr : h'.resolver? s = some d) : h.resolver? s = some d := by
  induction hl with
  | refl => exact hr
  | @tail middle last hrun hlast ih =>
    obtain ⟨_, _, _, hstep⟩ := hlast
    have hmid : middle.Roomy := hstep.leads.roomy hroom
    rcases hstep.resolver ((Later.leads hrun).wellFormed hwf hmid) hroom hr with
      hold | ⟨hfresh, -⟩
    · exact ih hmid hold
    · exact absurd ((Later.leads hrun).issued hwf hmid hs) hfresh

lemma lockResolver (htarget : ∀ d, h.resolver? s = some d → h.objects.Issued d)
    (hn : (h.lockResolver s).1 = none) : (h'.lockResolver s).1 = none := by
  cases hd : (h'.lockResolver s).1 with
  | none => rfl
  | some d =>
    obtain ⟨hr', p', hp', hopen, hstate, -⟩ := lockResolver_of_some hd
    have hr := Later.resolver hl hwf hroom hs hr'
    cases hp : h.promise? d with
    | none =>
      have hnone := Later.promise?_eq_none hl hwf hroom hp (htarget d hr)
      exact absurd (hnone.symm.trans hp') (by simp)
    | some p =>
      have hkeeps := Later.keeps hl hwf hroom hp hp'
      rcases lockResolver_of_none hn d p hr hp with hlocked | hsettled
      · exact absurd (hopen.symm.trans (hkeeps.locked hlocked)) (by simp)
      · exact absurd ((hkeeps.outcome hsettled).1.symm.trans hstate) hsettled

end Later

namespace Settlers

lemma count_of_not_issued (hc : h.Settlers pledged events) (hd : ¬ h.objects.Issued d) :
    (h.claimed pledged).count d = 0 :=
  List.count_eq_zero.mpr fun hmem => hd (hc.issued d hmem)

variable (hc : h.Settlers pledged events) (hs : Step h pledged more h' pledged')

include hc hs

lemma found_step (hf : Event.settling r (some state) ∈ events ++ more) : state = .pending := by
  rcases List.mem_append.mp hf with hold | hnew
  · exact hc.found r state hold
  · obtain ⟨hmem, p, hp, rfl⟩ := hs.found hnew
    exact hc.pending r (List.mem_append_right _ hmem) p hp

lemma accepted_step (s : ObjectRef) : (events ++ more).count (.answered s true) ≤ 1 := by
  rw [List.count_append]
  by_cases hmem : Event.answered s true ∈ more
  · obtain ⟨hone, d, p, hr, hp, hopen, -⟩ := hs.answered hmem
    have hnone : Event.answered s true ∉ events := by
      intro hold
      have hlocked := (hc.answered s hold).2 d p hr hp
      exact absurd (hopen.symm.trans hlocked) (by simp)
    rw [List.count_eq_zero.mpr hnone, hone]
    simp
  · rw [List.count_eq_zero.mpr hmem]
    exact hc.accepted s

variable (hwf : h.WellFormed) (hroom : h'.Roomy)

include hwf hroom

lemma once_step (d : ObjectRef) : (h'.claimed pledged').count d ≤ 1 := by
  have hbefore := hc.once d
  -- What is added was not claimed before.
  have hadd : ∀ {x}, (h.claimed pledged).count x = 0 →
      (h'.claimed pledged').count d ≤ (x :: h.claimed pledged).count d →
      (h'.claimed pledged').count d ≤ 1 := by
    intro x hnew hle
    by_cases hd : x = d
    · subst hd
      rwa [List.count_cons_self, hnew] at hle
    · rw [List.count_cons_of_ne hd] at hle
      exact Nat.le_trans hle hbefore
  cases hs.tally hwf hroom with
  | kept hle => exact Nat.le_trans (hle d) hbefore
  | fresh x hx hx' hle => exact hadd (hc.count_of_not_issued hx) (hle d)
  | locked s x p hr hp hopen hp' hstate hle =>
    exact hadd (List.count_eq_zero.mpr (hc.unlocked s x p hr hp hopen)) (hle d)

lemma issued_step (hd : d ∈ h'.claimed pledged') : h'.objects.Issued d := by
  rcases hs.claimed hwf hroom hd with hold | ⟨-, hnew⟩ | ⟨s, p, hr, -⟩
  · exact hs.leads.issued hwf hroom (hc.issued d hold)
  · exact hnew
  · exact hs.leads.issued hwf hroom (hc.target s d hr)

lemma pending_step (hd : d ∈ h'.claimed pledged') (hp' : h'.promise? d = some p') :
    p'.state = .pending := by
  -- A promise that was there before is pending, or is just being locked.
  have hold : ∀ p, h.promise? d = some p → p'.state = p.state → p'.state = .pending := by
    intro p hp hstate
    rcases hs.claimed hwf hroom hd with hmem | ⟨hnew, -⟩ | ⟨s, q, hr, hq', hq⟩
    · exact hstate.trans (hc.pending d hmem p hp)
    · exact absurd (hwf.issued_of_contains (h.isAlive_of_promise? hp)) hnew
    · exact Option.some.inj (hp'.symm.trans hq') ▸ hq
  cases hs.change hwf hroom hp' with
  | same _ hp => exact hold _ hp rfl
  | born => rfl
  | locked p hp hopen hpending => exact hpending
  | reacted p reaction hp => exact hold p hp (p.react_state reaction true)
  | settled p state value hp hnot hplain hpledged hawaited =>
    -- It was claimed by the one who settles it, and so by nobody else.
    have honce := hc.once d
    have hcount := hawaited d
    have hpos := List.count_pos_iff.mpr hd
    rw [claimed, hpledged, List.count_append, List.count_cons_self] at honce
    rw [claimed, List.count_append] at hpos
    omega

lemma target_step (hr : h'.resolver? s = some d) : h'.objects.Issued d := by
  rcases hs.resolver hwf hroom hr with hold | ⟨-, -, hnew, -⟩
  · exact hs.leads.issued hwf hroom (hc.target s d hold)
  · exact hnew

lemma unlocked_step (hr : h'.resolver? s = some d) (hp' : h'.promise? d = some p')
    (hopen : p'.locked = false) : d ∉ h'.claimed pledged' := by
  intro hd
  rcases hs.resolver hwf hroom hr with hold | ⟨-, hnew, -, hle⟩
  · have hknown := hc.target s d hold
    -- It was not locked before either.
    have hbefore : ∃ p, h.promise? d = some p ∧ p.locked = false := by
      cases hs.change hwf hroom hp' with
      | same _ hp => exact ⟨_, hp, hopen⟩
      | born hfresh => exact absurd hknown hfresh
      | locked => exact absurd hopen (by simp)
      | reacted p reaction hp => exact ⟨p, hp, p.react_locked reaction true ▸ hopen⟩
      | settled p state value hp => exact ⟨p, hp, p.settle_locked value ▸ hopen⟩
    obtain ⟨p, hp, hpopen⟩ := hbefore
    rcases hs.claimed hwf hroom hd with hmem | ⟨hfresh, -⟩ | ⟨s', q, -, hq', -⟩
    · exact hc.unlocked s d p hold hp hpopen hmem
    · exact hfresh hknown
    · obtain rfl := Option.some.inj (hp'.symm.trans hq')
      exact absurd hopen (by simp)
  · have hcount := hle d
    rw [hc.count_of_not_issued hnew] at hcount
    have hpos := List.count_pos_iff.mpr hd
    omega

lemma answered_step (ha : Event.answered s true ∈ events ++ more) :
    h'.objects.Issued s ∧
      ∀ d p, h'.resolver? s = some d → h'.promise? d = some p → p.locked = true := by
  -- In either case the resolver is known, and its promise was locked or is so now.
  have hbefore : h.objects.Issued s ∧ ∀ d p, h.resolver? s = some d → h'.promise? d = some p →
      p.locked = true := by
    rcases List.mem_append.mp ha with hold | hnew
    · obtain ⟨hknown, hlocked⟩ := hc.answered s hold
      refine ⟨hknown, fun d p' hr hp' => ?_⟩
      cases hs.change hwf hroom hp' with
      | same _ hp => exact hlocked d _ hr hp
      | born hfresh => exact absurd (hc.target s d hr) hfresh
      | locked => rfl
      | reacted p reaction hp =>
        rw [Promise.react_locked]
        exact hlocked d p hr hp
      | settled p state value hp =>
        rw [Promise.settle_locked]
        exact hlocked d p hr hp
    · obtain ⟨-, d, p, hr, -, -, hp'⟩ := hs.answered hnew
      obtain ⟨o, ho, -⟩ := (h.resolver?_eq_some_iff s d).mp hr
      refine ⟨hwf.issued_of_contains (isAlive_of_object? h s o ho), fun d' q hr' hq => ?_⟩
      obtain rfl := Option.some.inj (hr'.symm.trans hr)
      exact Option.some.inj (hq.symm.trans hp') ▸ rfl
  refine ⟨hs.leads.issued hwf hroom hbefore.1, fun d p hr hp => ?_⟩
  rcases hs.resolver hwf hroom hr with hold | ⟨hfresh, -⟩
  · exact hbefore.2 d p hold hp
  · exact absurd hbefore.1 hfresh

lemma step : h'.Settlers pledged' (events ++ more) where
  once := hc.once_step hs hwf hroom
  issued _ hd := hc.issued_step hs hwf hroom hd
  pending _ hd _ hp := hc.pending_step hs hwf hroom hd hp
  target _ _ hr := hc.target_step hs hwf hroom hr
  unlocked _ _ _ hr hp hopen := hc.unlocked_step hs hwf hroom hr hp hopen
  found _ _ hf := hc.found_step hs hf
  answered _ ha := hc.answered_step hs hwf hroom ha
  accepted := hc.accepted_step hs

end Settlers

lemma Settlers.lockResolver (hc : h.Settlers pledged events) (ha : Event.answered s true ∈ events) :
    (h.lockResolver s).1 = none := by
  cases hd : (h.lockResolver s).1 with
  | none => rfl
  | some d =>
    obtain ⟨hr, p, hp, hopen, -⟩ := lockResolver_of_some hd
    have hlocked := (hc.answered s ha).2 d p hr hp
    exact absurd (hopen.symm.trans hlocked) (by simp)

lemma Chronicle.settlers (hc : Chronicle limits pages events h pledged) (hroom : h.Roomy) :
    h.Settlers pledged events :=
  hc.invariant (I := fun events h pledged => h.Settlers pledged events) (settlers_fresh limits)
    (fun hwf hroom hs hc => hc.step hs hwf hroom) hroom

end Settlers

end Heap

end HostBoundary
