import HostBoundary.Proofs.Moves
import HostBoundary.Proofs.PromiseView

namespace HostBoundary.Heap

variable {p : Promise} {r : ObjectRef}

inductive Event where
  | registered (p : ObjectRef) (reaction : Reaction)
  | queued (p : ObjectRef) (job : Job)
  | started (job : Job)
  -- A promise is to be settled, and the state it is found in, if it is there.
  | settling (p : ObjectRef) (found : Option PromiseState)
  -- A resolver is asked to settle its promise, and what it answers.
  | answered (resolver : ObjectRef) (accepted : Bool)
  -- A scope is pushed, and whether that is refused at the depth limit.
  | opened (refused : Bool)
  -- A scope is popped, and whether it makes good for a refused push.
  | closed (refused : Bool)
  deriving DecidableEq

namespace Event

def registrations (r : ObjectRef) (events : List Event) : List Reaction :=
  events.filterMap fun
    | .registered p reaction => if p = r then some reaction else none
    | _ => none

def jobsOf (r : ObjectRef) (events : List Event) : List Job :=
  events.filterMap fun
    | .queued p job => if p = r then some job else none
    | _ => none

def queue (events : List Event) : List Job :=
  events.filterMap fun
    | .queued _ job => some job
    | _ => none

def starts (events : List Event) : List Job :=
  events.filterMap fun
    | .started job => some job
    | _ => none

variable (r : ObjectRef) (events more : List Event)

@[simp] lemma registrations_append :
    registrations r (events ++ more) = registrations r events ++ registrations r more :=
  List.filterMap_append

@[simp] lemma jobsOf_append : jobsOf r (events ++ more) = jobsOf r events ++ jobsOf r more :=
  List.filterMap_append

@[simp] lemma queue_append : queue (events ++ more) = queue events ++ queue more :=
  List.filterMap_append

@[simp] lemma starts_append : starts (events ++ more) = starts events ++ starts more :=
  List.filterMap_append

section

variable (p : ObjectRef) (jobs : List Job)

@[simp] lemma registrations_queued : registrations r (jobs.map (.queued p)) = [] := by
  simp [registrations, List.filterMap_map]

@[simp] lemma jobsOf_queued : jobsOf r (jobs.map (.queued p)) = if p = r then jobs else [] := by
  by_cases hp : p = r <;> simp [jobsOf, List.filterMap_map, hp]

@[simp] lemma queue_queued : queue (jobs.map (.queued p)) = jobs := by
  simp [queue, List.filterMap_map]

@[simp] lemma starts_queued : starts (jobs.map (.queued p)) = [] := by
  simp [starts, List.filterMap_map]

end

def registration (p : Promise) (reaction : Reaction) : List Event :=
  [.registered r reaction] ++ (p.react reaction true).1.toList.map (.queued r)

section Registration

variable (p : Promise) (reaction : Reaction) (s : ObjectRef)

lemma registrations_registration :
    registrations s (registration r p reaction) = if r = s then [reaction] else [] := by
  rw [registration, registrations_append, registrations_queued, List.append_nil]
  by_cases hr : r = s <;> simp [registrations, hr]

lemma jobsOf_registration :
    jobsOf s (registration r p reaction) =
      if r = s then (p.react reaction true).1.toList else [] := by
  rw [registration, jobsOf_append, jobsOf_queued]
  rfl

lemma queue_registration :
    queue (registration r p reaction) = (p.react reaction true).1.toList := by
  rw [registration, queue_append, queue_queued]
  rfl

lemma starts_registration : starts (registration r p reaction) = [] := by
  rw [registration, starts_append, starts_queued]
  rfl

end Registration

end Event

def released (h : Heap) (r : ObjectRef) (state : PromiseState) (value : Value) : List Job :=
  match h.promise? r with
  | none => []
  | some p => (p.settle state value).1.getD []

def settlement (h : Heap) (r : ObjectRef) (state : PromiseState) (value : Value) : List Event :=
  [.settling r (h.promiseState? r)] ++ (h.released r state value).map (.queued r)

section Settlement

variable (h : Heap) (r : ObjectRef) (state : PromiseState) (value : Value) (s : ObjectRef)

lemma registrations_settlement : Event.registrations s (h.settlement r state value) = [] := by
  rw [settlement, Event.registrations_append, Event.registrations_queued]
  rfl

lemma jobsOf_settlement :
    Event.jobsOf s (h.settlement r state value) =
      if r = s then h.released r state value else [] := by
  rw [settlement, Event.jobsOf_append, Event.jobsOf_queued]
  rfl

lemma queue_settlement : Event.queue (h.settlement r state value) = h.released r state value := by
  rw [settlement, Event.queue_append, Event.queue_queued]
  rfl

lemma starts_settlement : Event.starts (h.settlement r state value) = [] := by
  rw [settlement, Event.starts_append, Event.starts_queued]
  rfl

lemma settle_of_some (hp : h.promise? r = some p) :
    h.settle r state value =
      (h.setPromise r (p.settle state value).2).enqueue ((p.settle state value).1.getD []) := by
  rw [settle, hp]

lemma released_of_some (hp : h.promise? r = some p) :
    h.released r state value = (p.settle state value).1.getD [] := by
  rw [released, hp]

lemma count_awaited_settle (d : ObjectRef) :
    (h.settle r state value).awaited.count d = h.awaited.count d := by
  cases hp : h.promise? r with
  | none => rw [settle, hp]
  | some p =>
    have hcount := h.count_awaited_setPromise hp (p.settle state value).2 d
    rw [settle_of_some h r state value hp, awaited_enqueue, List.count_append]
    by_cases hleft : p.state ≠ .pending ∨ state = .pending
    · rw [Promise.settle_of_left hleft] at hcount ⊢
      simp only [Option.getD_none, List.map_nil, List.count_nil] at hcount ⊢
      omega
    · obtain ⟨hpending, hstate⟩ := not_or.mp hleft
      rw [Promise.settle_of_pending (Decidable.not_not.mp hpending) hstate] at hcount ⊢
      simp only [Option.getD_some, List.map_map, List.map_nil, List.count_nil] at hcount ⊢
      exact hcount

lemma settle_of_none (hn : h.promise? r = none) : h.settle r state value = h := by
  rw [settle, hn]

lemma released_of_none (hn : h.promise? r = none) : h.released r state value = [] := by
  rw [released, hn]

end Settlement

-- A value that is no promise. It will not become one either, having been given out already.
def Plain (h : Heap) (value : Value) : Prop :=
  ∀ r, value = .object r → h.promise? r = none ∧ (h.Roomy → h.objects.Issued r)

-- One step of a heap, with the promises that code under way has taken on to settle before and after
-- it, the last one first.
inductive Step : Heap → List ObjectRef → List Event → Heap → List ObjectRef → Prop where
  | quiet {h pledged} (op : Operation) (hq : op.Quiet h) :
      Step h pledged [] (h.apply op).2 pledged
  | openScope {h pledged} :
      Step h pledged [.opened (decide (h.limits.maxScopeDepth ≤ h.pushed.length))] h.pushScope
        pledged
  | closeScope {h pledged} (hopen : 0 < h.overflow ∨ h.pushed ≠ []) :
      Step h pledged [.closed (decide (0 < h.overflow))] h.popScope.2 pledged
  | newResolver {h pledged} : Step h pledged [] h.newResolver.2 pledged
  | derive {h pledged} (r : ObjectRef) (p : Promise) (onFulfilled onRejected : Option ObjectRef)
      (hp : h.promise? r = some p) :
      Step h pledged (Event.registration r p ⟨onFulfilled, onRejected, h.newPromise.1⟩)
        (h.thenPromise r onFulfilled onRejected).2 pledged
  | lock {h pledged} (s d : ObjectRef) (hd : (h.lockResolver s).1 = some d) :
      Step h pledged [.answered s true] (h.lockResolver s).2 (d :: pledged)
  | refuse {h pledged} (s : ObjectRef) (hn : (h.lockResolver s).1 = none) :
      Step h pledged [.answered s false] (h.lockResolver s).2 pledged
  | settle {h pledged} (d : ObjectRef) (state : PromiseState) (value : Value)
      (hstate : state ≠ .pending) (hplain : state = .fulfilled → h.Plain value) :
      Step h (d :: pledged) (h.settlement d state value) (h.settle d state value) pledged
  | adopt {h pledged} (d inner : ObjectRef) (p : Promise) (hp : h.promise? inner = some p) :
      Step h (d :: pledged) (Event.registration inner p { derived := d })
        (h.react inner p { derived := d }) pledged
  | start {h h' pledged} (job : Job) (hj : h.nextJob = some (job, h')) :
      Step h pledged [.started job] h' (job.reaction.derived :: pledged)

-- How a heap came about: the heaps that were looked at on the way, all that happened to promises
-- and scopes, and the promises about to be settled.
inductive Chronicle (limits : HeapLimits) :
    List Heap → List Event → Heap → List ObjectRef → Prop where
  | fresh : Chronicle limits [] [] (fresh limits) []
  | step {pages events h pledged more h' pledged'} (hc : Chronicle limits pages events h pledged)
      (hs : Step h pledged more h' pledged') : Chronicle limits pages (events ++ more) h' pledged'
  | note {pages events h pledged} (hc : Chronicle limits pages events h pledged) :
      Chronicle limits (pages ++ [h]) events h pledged

namespace Step

variable {h h' : Heap} {pledged pledged' : List ObjectRef} {more : List Event}
  (hs : Step h pledged more h' pledged')

include hs

lemma leads : h.Leads h' := by
  cases hs with
  | quiet op hq => exact .op op hq.mild
  | openScope => exact .op .pushScope trivial
  | closeScope => exact .op .popScope trivial
  | newResolver => exact h.works_newResolver.leads
  | derive r p f g => exact (h.works_thenPromise r f g).leads
  | lock s | refuse s => exact (h.works_lockResolver s).leads
  | settle d state value => exact (h.works_settle d state value).leads
  | adopt d inner p hp => exact (h.works_react inner p _ (h.promise_body inner p hp)).leads
  | start job hj => exact (h.works_nextJob job _ hj).leads

lemma jobs : h.jobs ++ Event.queue more = Event.starts more ++ h'.jobs := by
  cases hs with
  | quiet op hq => exact (List.append_nil _).trans hq.still.jobs.symm
  | openScope => exact (List.append_nil _).trans h.still_pushScope.jobs.symm
  | closeScope => exact (List.append_nil _).trans h.still_popScope.jobs.symm
  | newResolver =>
    exact (List.append_nil _).trans ((allocate_jobs _ _).trans (h.allocate_jobs _)).symm
  | derive r p f g hp =>
    rw [Event.queue_registration, Event.starts_registration, thenPromise_of_some hp]
    exact congrArg (· ++ _) (h.allocate_jobs _).symm
  | lock s d hd =>
    obtain ⟨-, p, -, -, -, heq⟩ := lockResolver_of_some hd
    rw [heq]
    exact (List.append_nil _).trans (root_jobs _ _).symm
  | refuse s hn =>
    exact (List.append_nil _).trans (quietly_lockResolver_of_none hn).still.jobs.symm
  | settle d state value =>
    rw [queue_settlement, starts_settlement]
    cases hp : h.promise? d with
    | none => rw [settle_of_none h d state value hp, released_of_none h d state value hp]; simp
    | some p => rw [settle_of_some h d state value hp, released_of_some h d state value hp]; rfl
  | adopt d inner p hp =>
    rw [Event.queue_registration, Event.starts_registration]
    rfl
  | start job hj =>
    obtain ⟨hjobs, -⟩ := nextJob_of_some hj
    simp [hjobs, Event.queue, Event.starts]

end Step

-- What one step makes of a promise, along with what is taken down about it.
inductive Change (h h' : Heap) (pledged pledged' : List ObjectRef) (more : List Event)
    (r : ObjectRef) : Promise → Prop where
  | same (p : Promise) (hp : h.promise? r = some p) (hregs : Event.registrations r more = [])
      (hjobs : Event.jobsOf r more = []) : Change h h' pledged pledged' more r p
  | born (hr : ¬ h.objects.Issued r) (hregs : Event.registrations r more = [])
      (hjobs : Event.jobsOf r more = []) : Change h h' pledged pledged' more r {}
  | locked (p : Promise) (hp : h.promise? r = some p) (hopen : p.locked = false)
      (hstate : p.state = .pending) (hregs : Event.registrations r more = [])
      (hjobs : Event.jobsOf r more = []) :
      Change h h' pledged pledged' more r { p with locked := true }
  | reacted (p : Promise) (reaction : Reaction) (hp : h.promise? r = some p)
      (hregs : Event.registrations r more = [reaction])
      (hjobs : Event.jobsOf r more = (p.react reaction true).1.toList) :
      Change h h' pledged pledged' more r (p.react reaction true).2
  | settled (p : Promise) (state : PromiseState) (value : Value) (hp : h.promise? r = some p)
      (hstate : state ≠ .pending) (hplain : state = .fulfilled → h.Plain value)
      (hpledged : pledged = r :: pledged')
      (hawaited : ∀ d, h'.awaited.count d = h.awaited.count d)
      (hregs : Event.registrations r more = [])
      (hjobs : Event.jobsOf r more = (p.settle state value).1.getD []) :
      Change h h' pledged pledged' more r (p.settle state value).2

namespace Step

variable {h h' : Heap} {pledged pledged' : List ObjectRef} {more : List Event} {r : ObjectRef}
  {p' : Promise}

lemma change_react {middle : Heap} {s : ObjectRef} (hp : h.promise? s = some p)
    (hmiddle : middle.promise? s = some p)
    (hbefore : ∀ q, middle.promise? r = some q →
      h.promise? r = some q ∨ ¬ h.objects.Issued r ∧ q = {})
    (reaction : Reaction) (hp' : (middle.react s p reaction).promise? r = some p') :
    Change h (middle.react s p reaction) pledged pledged' (Event.registration s p reaction) r
      p' := by
  have hset : (middle.react s p reaction).promise? r =
      if r = s then some (p.react reaction true).2 else middle.promise? r :=
    middle.promise?_setPromise hmiddle _ r
  rw [hset] at hp'
  by_cases hr : r = s
  · subst hr
    rw [if_pos rfl] at hp'
    obtain rfl := Option.some.inj hp'
    refine .reacted p reaction hp ?_ ?_
    · rw [Event.registrations_registration, if_pos rfl]
    · rw [Event.jobsOf_registration, if_pos rfl]
  · rw [if_neg hr] at hp'
    have hregs : Event.registrations r (Event.registration s p reaction) = [] := by
      rw [Event.registrations_registration, if_neg (Ne.symm hr)]
    have hjobs : Event.jobsOf r (Event.registration s p reaction) = [] := by
      rw [Event.jobsOf_registration, if_neg (Ne.symm hr)]
    rcases hbefore p' hp' with hsame | ⟨hfresh, rfl⟩
    · exact .same p' hsame hregs hjobs
    · exact .born hfresh hregs hjobs

lemma change_still (hstill : h.Still h') (hregs : Event.registrations r more = [])
    (hjobs : Event.jobsOf r more = []) (hp' : h'.promise? r = some p') :
    Change h h' pledged pledged' more r p' :=
  .same p' (hstill.promise hp') hregs hjobs

lemma change (hs : Step h pledged more h' pledged') (hwf : h.WellFormed) (hroom : h'.Roomy)
    (hp' : h'.promise? r = some p') : Change h h' pledged pledged' more r p' := by
  cases hs with
  | quiet op hq => exact change_still hq.still rfl rfl hp'
  | openScope => exact change_still h.still_pushScope rfl rfl hp'
  | closeScope => exact change_still h.still_popScope rfl rfl hp'
  | newResolver =>
    have hfirst : h.newPromise.2.Roomy := (leads_allocate _ _).roomy hroom
    have hwf' := (h.leads_allocate (.ofBody (.promise {}))).wellFormed hwf hfirst
    rcases promise?_allocate hwf' _ hroom hp' with ⟨-, hrole⟩ | hmiddle
    · exact absurd hrole (by simp [HeapObject.role, HeapObject.ofBody])
    · rcases promise?_newPromise hwf hfirst hmiddle with hsame | ⟨hfresh, rfl⟩
      · exact .same p' hsame rfl rfl
      · exact .born hfresh rfl rfl
  | derive s p f g hp =>
    have hmiddle := promise?_allocate_of_some hwf (.ofBody (.promise {})) hp
    rw [thenPromise_of_some hp] at hroom hp' ⊢
    have hfirst : h.newPromise.2.Roomy :=
      (works_react _ s p _ (promise_body _ s p hmiddle)).leads.roomy hroom
    exact change_react hp hmiddle (fun q => promise?_newPromise hwf hfirst) _ hp'
  | lock s d hd =>
    obtain ⟨-, p, hp, hopen, hstate, -⟩ := lockResolver_of_some hd
    rw [promise?_lockResolver hd hp] at hp'
    by_cases hr : r = d
    · subst hr
      rw [if_pos rfl] at hp'
      obtain rfl := Option.some.inj hp'
      exact .locked p hp hopen hstate rfl rfl
    · rw [if_neg hr] at hp'
      exact .same p' hp' rfl rfl
  | refuse s hn => exact change_still (quietly_lockResolver_of_none hn).still rfl rfl hp'
  | settle d state value hstate hplain =>
    have hregs := h.registrations_settlement d state value r
    cases hp : h.promise? d with
    | none =>
      rw [settle_of_none h d state value hp] at hp'
      refine .same p' hp' hregs ?_
      rw [jobsOf_settlement, released_of_none h d state value hp, ite_self]
    | some p =>
      rw [settle_of_some h d state value hp, promise?_enqueue, h.promise?_setPromise hp] at hp'
      by_cases hr : r = d
      · subst hr
        rw [if_pos rfl] at hp'
        obtain rfl := Option.some.inj hp'
        refine .settled p state value hp hstate hplain rfl
          (h.count_awaited_settle r state value) hregs ?_
        rw [jobsOf_settlement, if_pos rfl, released_of_some h r state value hp]
      · rw [if_neg hr] at hp'
        refine .same p' hp' hregs ?_
        rw [jobsOf_settlement, if_neg (Ne.symm hr)]
  | adopt d inner p hp => exact change_react hp hp (fun q hq => .inl hq) _ hp'
  | start job hj =>
    obtain ⟨-, hobjects, -⟩ := nextJob_of_some hj
    refine .same p' ?_ rfl rfl
    simpa [promise?, body?, object?, hobjects] using hp'

lemma promise?_eq_none (hs : Step h pledged more h' pledged') (hwf : h.WellFormed)
    (hroom : h'.Roomy) (hn : h.promise? r = none) (hr : h.objects.Issued r) :
    h'.promise? r = none := by
  cases hp' : h'.promise? r with
  | none => rfl
  | some p' =>
    cases hs.change hwf hroom hp' with
    | same p hp | locked p hp | reacted p _ hp | settled p _ _ hp =>
      exact absurd (hn.symm.trans hp) (by simp)
    | born hfresh => exact absurd hr hfresh

end Step

def Later : Heap → Heap → Prop :=
  Relation.ReflTransGen fun h h' => ∃ pledged more pledged', Step h pledged more h' pledged'

namespace Later

variable {h h' h'' : Heap}

lemma refl (h : Heap) : h.Later h := Relation.ReflTransGen.refl

lemma leads (hl : h.Later h') : h.Leads h' := by
  induction hl with
  | refl => exact .refl h
  | tail _ hstep ih =>
    obtain ⟨_, _, _, hs⟩ := hstep
    exact ih.trans hs.leads

lemma promise?_eq_none (hl : h.Later h') (hwf : h.WellFormed) (hroom : h'.Roomy)
    (hn : h.promise? r = none) (hr : h.objects.Issued r) : h'.promise? r = none := by
  induction hl with
  | refl => exact hn
  | @tail middle last hrun hlast ih =>
    obtain ⟨_, _, _, hs⟩ := hlast
    have hmid : middle.Roomy := hs.leads.roomy hroom
    exact hs.promise?_eq_none ((Later.leads hrun).wellFormed hwf hmid) hroom (ih hmid)
      ((Later.leads hrun).issued hwf hmid hr)

-- A relation that every step keeps up holds between any two moments of a promise.
lemma promise {R : Promise → Promise → Prop} (hrefl : ∀ p, R p p)
    (htrans : ∀ p q s, R p q → R q s → R p s)
    (hstep : ∀ {h h' : Heap} {pledged more pledged'}, Step h pledged more h' pledged' →
      h.WellFormed → h'.Roomy → ∀ {r p p'}, h.promise? r = some p →
      h'.promise? r = some p' → R p p')
    (hl : h.Later h') (hwf : h.WellFormed) (hroom : h'.Roomy)
    {p' : Promise} (hp : h.promise? r = some p) (hp' : h'.promise? r = some p') : R p p' := by
  induction hl generalizing p' with
  | refl => exact Option.some.inj (hp.symm.trans hp') ▸ hrefl p
  | @tail middle last hrun hlast ih =>
    obtain ⟨_, _, _, hs⟩ := hlast
    have hmid : middle.Roomy := hs.leads.roomy hroom
    have hwf' := (Later.leads hrun).wellFormed hwf hmid
    have hissued := (Later.leads hrun).issued hwf hmid
      (hwf.issued_of_contains (h.isAlive_of_promise? hp))
    cases hq : middle.promise? r with
    | some q => exact htrans p q p' (ih hmid hq) (hstep hs hwf' hroom hq hp')
    | none => exact absurd (hs.promise?_eq_none hwf' hroom hq hissued) (by simp [hp'])

end Later

namespace Chronicle

variable {limits : HeapLimits} {pages : List Heap} {events : List Event} {h : Heap}
  {pledged : List ObjectRef} (hc : Chronicle limits pages events h pledged)

include hc

lemma leads : (initial limits).Leads h := by
  induction hc with
  | fresh => exact leads_fresh limits
  | step _ hs ih => exact ih.trans hs.leads
  | note _ ih => exact ih

lemma wellFormed (hroom : h.Roomy) : h.WellFormed :=
  hc.leads.wellFormed Arena.wellFormed_empty hroom

omit hc in
lemma invariant {I : List Event → Heap → List ObjectRef → Prop}
    (hfresh : I [] (Heap.fresh limits) [])
    (hstep : ∀ {events h pledged more h' pledged'}, h.WellFormed → h'.Roomy →
      Step h pledged more h' pledged' → I events h pledged → I (events ++ more) h' pledged')
    (hc : Chronicle limits pages events h pledged) (hroom : h.Roomy) : I events h pledged := by
  induction hc with
  | fresh => exact hfresh
  | step hc hs ih =>
    have hbefore := hs.leads.roomy hroom
    exact hstep (hc.wellFormed hbefore) hroom hs (ih hbefore)
  | note _ ih => exact ih hroom

lemma pairwise : (pages ++ [h]).Pairwise Later := by
  induction hc with
  | fresh => exact List.pairwise_singleton _ _
  | step _ hs ih =>
    obtain ⟨hpages, -, hlast⟩ := List.pairwise_append.mp ih
    refine List.pairwise_append.mpr ⟨hpages, List.pairwise_singleton _ _, fun a ha b hb => ?_⟩
    obtain rfl := List.mem_singleton.mp hb
    exact (hlast a ha _ List.mem_cons_self).tail ⟨_, _, _, hs⟩
  | @note pages events h pledged hc ih =>
    refine List.pairwise_append.mpr ⟨ih, List.pairwise_singleton _ _, fun a ha b hb => ?_⟩
    rw [List.mem_singleton.mp hb]
    obtain ⟨-, -, hlast⟩ := List.pairwise_append.mp ih
    rcases List.mem_append.mp ha with hpage | hnow
    · exact hlast a hpage h List.mem_cons_self
    · rw [List.mem_singleton.mp hnow]
      exact .refl h

lemma of_page {page : Heap} (hpage : page ∈ pages) :
    ∃ earlier before rest pledged', Chronicle limits earlier before page pledged' ∧
      before ++ rest = events := by
  induction hc with
  | fresh => cases hpage
  | @step _ _ _ _ more _ _ _ _ ih =>
    obtain ⟨earlier, before, rest, pledged', hc', rfl⟩ := ih hpage
    exact ⟨earlier, before, rest ++ more, pledged', hc', by simp⟩
  | note hc ih =>
    rcases List.mem_append.mp hpage with hbefore | hnow
    · exact ih hbefore
    · obtain rfl := List.mem_singleton.mp hnow
      exact ⟨_, _, [], _, hc, by simp⟩

end Chronicle

end HostBoundary.Heap
