import HostBoundary.Proofs.SafeRuns

namespace HostBoundary

variable {o : HeapObject} {p : Promise} {h h' : Heap} {d r target : ObjectRef}

namespace Promise

variable {p : Promise} {state : PromiseState} {value : Value}

lemma settle_of_left (h : p.state ≠ .pending ∨ state = .pending) :
    p.settle state value = (none, p) := if_pos h

lemma settle_of_pending (hp : p.state = .pending) (hs : state ≠ .pending) :
    p.settle state value =
      (some (p.reactions.map fun reaction => ⟨reaction, state, value⟩),
        { p with state, result := value, reactions := [] }) :=
  if_neg (by simp [hp, hs])

lemma react_of_pending (hp : p.state = .pending) (reaction : Reaction) (counts : Bool) :
    p.react reaction counts =
      (none, { p with
        handled := p.handled || counts
        reactions := p.reactions ++ [reaction] }) :=
  if_pos hp

lemma react_of_settled (hp : p.state ≠ .pending) (reaction : Reaction) (counts : Bool) :
    p.react reaction counts =
      (some ⟨reaction, p.state, p.result⟩, { p with handled := p.handled || counts }) :=
  if_neg hp

end Promise

namespace HeapObject

def awaited (o : HeapObject) : List ObjectRef :=
  match o.role with
  | .promise p => p.reactions.map (·.derived)
  | _ => []

lemma awaited_congr {o' : HeapObject} (h : o'.role = o.role) : o'.awaited = o.awaited := by
  simp [awaited, h]

lemma awaited_of_role (h : o.role.settles = false) : o.awaited = [] := by
  unfold awaited
  split
  · rename_i hp
    exact absurd h (by simp [hp, Role.settles])
  · rfl

lemma awaited_of_promise (h : o.role = .promise p) : o.awaited = p.reactions.map (·.derived) := by
  simp [awaited, h]

lemma role_eq_promise_iff (o : HeapObject) (p : Promise) :
    o.role = .promise p ↔ o.body = .promise p := by
  unfold role
  cases o.body <;> simp

lemma role_eq_resolver_iff (o : HeapObject) (target : ObjectRef) :
    o.role = .resolver target ↔ o.body = .resolver target := by
  unfold role
  cases o.body <;> simp

end HeapObject

namespace Heap

def resolver? (h : Heap) (r : ObjectRef) : Option ObjectRef :=
  match h.body? r with
  | some (.resolver target) => some target
  | _ => none

def awaited (h : Heap) : List ObjectRef :=
  h.objects.entries.flatMap (·.awaited) ++ h.jobs.map (·.reaction.derived)

section View

variable (h : Heap)

lemma promise?_eq_some_iff (r : ObjectRef) (p : Promise) :
    h.promise? r = some p ↔ ∃ o, h.object? r = some o ∧ o.role = .promise p := by
  simp only [HeapObject.role_eq_promise_iff]
  refine ⟨h.promise?_eq_some r p, ?_⟩
  rintro ⟨o, ho, hb⟩
  simp [promise?, body?, ho, hb]

lemma resolver?_eq_some_iff (r target : ObjectRef) :
    h.resolver? r = some target ↔ ∃ o, h.object? r = some o ∧ o.role = .resolver target := by
  simp only [HeapObject.role_eq_resolver_iff, resolver?, body?]
  cases h.object? r with
  | none => simp
  | some o => cases hb : o.body <;> simp [hb]

variable (hp : h.promise? r = some p)

include hp

lemma isAlive_of_promise? : h.isAlive r = true := by
  obtain ⟨o, ho, -⟩ := (h.promise?_eq_some_iff r p).mp hp
  exact isAlive_of_object? h r o ho

omit hp in
lemma promise?_enqueue (jobs : List Job) (r : ObjectRef) :
    (h.enqueue jobs).promise? r = h.promise? r := rfl

omit hp in
lemma awaited_enqueue (jobs : List Job) :
    (h.enqueue jobs).awaited = h.awaited ++ jobs.map (·.reaction.derived) := by
  simp [awaited, enqueue]

lemma promise?_setPromise (q : Promise) (s : ObjectRef) :
    (h.setPromise r q).promise? s = if s = r then some q else h.promise? s := by
  obtain ⟨o, ho, -⟩ := h.promise?_eq_some r p hp
  by_cases hs : s = r
  · simp [promise?, body?, setPromise, object?_modifyObject, hs, ho]
  · simp [promise?, body?, setPromise, object?_modifyObject, hs]

lemma resolver?_setPromise (q : Promise) (s : ObjectRef) :
    (h.setPromise r q).resolver? s = h.resolver? s := by
  obtain ⟨o, ho, hb⟩ := h.promise?_eq_some r p hp
  by_cases hs : s = r
  · simp [resolver?, body?, setPromise, object?_modifyObject, hs, ho, hb]
  · simp [resolver?, body?, setPromise, object?_modifyObject, hs]

lemma count_awaited_setPromise (q : Promise) (d : ObjectRef) :
    (h.setPromise r q).awaited.count d + (p.reactions.map (·.derived)).count d =
      h.awaited.count d + (q.reactions.map (·.derived)).count d := by
  obtain ⟨o, ho, hrole⟩ := (h.promise?_eq_some_iff r p).mp hp
  obtain ⟨pre, post, hold, hnew⟩ :=
    h.objects.entries_modify r (fun o => { o with body := .promise q }) o ho
  have hq : ({ o with body := .promise q } : HeapObject).awaited = q.reactions.map (·.derived) :=
    rfl
  simp only [awaited, setPromise, modifyObject, hold, hnew, List.flatMap_append, List.flatMap_cons,
    List.flatMap_nil, List.append_nil, List.count_append, hq,
    HeapObject.awaited_of_promise hrole]
  omega

end View

-- A change that leaves promises, resolvers and jobs alone, except that objects may go.
structure Still (h h' : Heap) : Prop where
  role : ∀ r o', h'.object? r = some o' →
    (∃ o, h.object? r = some o ∧ o'.role = o.role) ∨ o'.role.settles = false
  awaited : ∀ d, h'.awaited.count d ≤ h.awaited.count d
  jobs : h'.jobs = h.jobs

namespace Still

variable {h h' : Heap}

lemma of_eq (hobjects : h'.objects = h.objects) (hjobs : h'.jobs = h.jobs) : h.Still h' where
  role r o' ho := .inl ⟨o', by rwa [object?, hobjects] at ho, rfl⟩
  awaited d := by simp [Heap.awaited, hobjects, hjobs]
  jobs := hjobs

lemma promise (hs : h.Still h') (hp : h'.promise? r = some p) : h.promise? r = some p := by
  obtain ⟨o', ho', hrole⟩ := (h'.promise?_eq_some_iff r p).mp hp
  rcases hs.role r o' ho' with ⟨o, ho, hsame⟩ | hother
  · exact (h.promise?_eq_some_iff r p).mpr ⟨o, ho, hsame ▸ hrole⟩
  · exact absurd hother (by simp [hrole, HeapObject.Role.settles])

lemma resolver (hs : h.Still h') (hr : h'.resolver? r = some target) :
    h.resolver? r = some target := by
  obtain ⟨o', ho', hrole⟩ := (h'.resolver?_eq_some_iff r target).mp hr
  rcases hs.role r o' ho' with ⟨o, ho, hsame⟩ | hother
  · exact (h.resolver?_eq_some_iff r target).mpr ⟨o, ho, hsame ▸ hrole⟩
  · exact absurd hother (by simp [hrole, HeapObject.Role.settles])

end Still

lemma still_pushScope (h : Heap) : h.Still h.pushScope := by
  refine .of_eq h.pushScope_objects ?_
  unfold pushScope
  split <;> rfl

lemma still_popScope (h : Heap) : h.Still h.popScope.2 := by
  refine .of_eq h.popScope_objects ?_
  unfold popScope
  repeat' split
  all_goals rfl

structure Level (h h' : Heap) : Prop where
  pushed : h'.pushed.length = h.pushed.length
  overflow : h'.overflow = h.overflow
  limits : h'.limits = h.limits

namespace Level

variable {h h' h'' : Heap}

lemma refl (h : Heap) : h.Level h := ⟨rfl, rfl, rfl⟩

lemma trans (hab : h.Level h') (hbc : h'.Level h'') : h.Level h'' :=
  ⟨hbc.pushed.trans hab.pushed, hbc.overflow.trans hab.overflow, hbc.limits.trans hab.limits⟩

end Level

lemma level_root (h : Heap) (r : ObjectRef) : h.Level (h.root r) := by
  unfold root
  split
  · exact ⟨rfl, rfl, rfl⟩
  · rename_i hp
    exact ⟨by simp [hp], rfl, rfl⟩

lemma level_allocate (h : Heap) (o : HeapObject) : h.Level (h.allocate o).2 := by
  let grown := { h with
    objects := (h.objects.insert o).2
    allocations := h.allocations + 1 }
  have hgrown : h.Level grown := ⟨rfl, rfl, rfl⟩
  exact hgrown.trans (grown.level_root _)

lemma root_jobs (h : Heap) (r : ObjectRef) : (h.root r).jobs = h.jobs := by
  unfold root
  split <;> rfl

lemma Operation.Quiet.level {op : Operation} (hq : op.Quiet h) : h.Level (h.apply op).2 := by
  cases op with
  | allocate o => exact h.level_allocate o
  | root r => exact h.level_root r
  | target slot =>
    simp only [apply, Prod.map, id, Heap.target]
    repeat' split
    · exact .refl h
    · exact .refl h
    · exact h.level_root _
    · exact .refl h
  | persist target =>
    simp only [apply, Heap.persist]
    split <;> exact ⟨rfl, rfl, rfl⟩
  | weaken slot hook =>
    simp only [apply, Heap.weaken]
    split <;> exact ⟨rfl, rfl, rfl⟩
  | collect =>
    simp only [apply, collect_eq]
    exact ⟨rfl, rfl, rfl⟩
  | mutate | dispose | addTemplate | mutateTemplate | discardTemplate | drainReleases =>
    exact ⟨rfl, rfl, rfl⟩
  | setGlobal | pushScope | popScope | enqueue | dequeue => exact hq.elim

lemma allocate_jobs (h : Heap) (o : HeapObject) : (h.allocate o).2.jobs = h.jobs := root_jobs _ _

lemma count_awaited_allocate (h : Heap) (o : HeapObject) (ho : o.awaited = []) (d : ObjectRef) :
    (h.allocate o).2.awaited.count d ≤ h.awaited.count d := by
  obtain ⟨pre, old, post, hold, hnew⟩ := h.objects.entries_insert o
  simp only [awaited, allocate_objects, allocate_jobs, hold, hnew, List.flatMap_append,
    List.flatMap_cons, List.flatMap_nil, List.append_nil, List.count_append, ho]
  omega

lemma awaited_drainReleases (h : Heap) : h.drainReleases.2.awaited = h.awaited := by
  have hsame : ∀ o, (drained o).awaited = o.awaited := fun o =>
    HeapObject.awaited_congr (calm_drained o).role
  rw [awaited, awaited, entries_drainReleases, List.flatMap_map]
  simp only [hsame]
  rfl

lemma Operation.Quiet.still {op : Operation} (hq : op.Quiet h) : h.Still (h.apply op).2 := by
  cases op with
  | allocate x =>
    refine ⟨fun r o' ho => ?_, ?_, h.allocate_jobs x⟩
    · rcases h.object?_allocate x r o' ho with rfl | hbefore
      · exact .inr hq
      · exact .inl ⟨o', hbefore, rfl⟩
    · exact h.count_awaited_allocate x (HeapObject.awaited_of_role hq)
  | mutate r change =>
    refine ⟨fun s o' ho => ?_, fun d => ?_, rfl⟩
    · simp only [apply, object?_modifyObject] at ho
      split at ho
      · rename_i hs
        obtain ⟨o, hbefore, rfl⟩ := Option.map_eq_some_iff.mp ho
        exact .inl ⟨o, hbefore, (hq o (hs ▸ hbefore)).role⟩
      · exact .inl ⟨o', ho, rfl⟩
    · cases hr : h.object? r with
      | none =>
        have hsame := h.objects.modify_of_get?_eq_none r change hr
        simp [awaited, apply, modifyObject, hsame]
      | some o =>
        obtain ⟨pre, post, hold, hnew⟩ := h.objects.entries_modify r change o hr
        have hsame := HeapObject.awaited_congr (hq o hr).role
        simp [awaited, apply, modifyObject, hold, hnew, hsame]
  | collect =>
    refine ⟨fun r o' ho => ?_, fun d => ?_, ?_⟩
    · simp only [apply, Prod.map, id, object?_collect] at ho
      exact .inl ⟨o', (Option.filter_eq_some_iff.mp ho).1, rfl⟩
    · simp only [apply, Prod.map, id, collect_eq, awaited]
      exact (((h.objects.sublist_entries_sweep _ _).flatMap _).append_right _).count_le d
    · simp only [apply, collect_eq]
      rfl
  | drainReleases =>
    refine ⟨fun r o' ho => ?_, fun d => ?_, rfl⟩
    · obtain ⟨o, hbefore, rfl⟩ := h.eq_drained_of_drainReleases ho
      exact .inl ⟨o, hbefore, (calm_drained o).role⟩
    · simp only [apply, Prod.map, id, awaited_drainReleases, Nat.le_refl]
  | root r => exact .of_eq (root_objects h r) (root_jobs h r)
  | target slot =>
    refine .of_eq (target_objects h slot) ?_
    simp only [apply, Prod.map, id, Heap.target]
    repeat' split
    all_goals simp only [root_jobs]
  | persist target =>
    refine .of_eq (persist_objects h target) ?_
    simp only [apply, Heap.persist]
    split <;> rfl
  | weaken slot hook =>
    refine .of_eq (weaken_objects h slot hook) ?_
    simp only [apply, Heap.weaken]
    split <;> rfl
  | dispose | addTemplate | mutateTemplate | discardTemplate => exact .of_eq rfl rfl
  | setGlobal | pushScope | popScope | enqueue | dequeue => exact hq.elim

namespace Still

variable {h h' h'' : Heap}

lemma refl (h : Heap) : h.Still h := .of_eq rfl rfl

lemma trans (hab : h.Still h') (hbc : h'.Still h'') : h.Still h'' where
  role r o'' ho := by
    rcases hbc.role r o'' ho with ⟨o', ho', hsame⟩ | hother
    · rcases hab.role r o' ho' with ⟨o, hbefore, hsame'⟩ | hother
      · exact .inl ⟨o, hbefore, hsame.trans hsame'⟩
      · exact .inr (hsame ▸ hother)
    · exact .inr hother
  awaited d := Nat.le_trans (hbc.awaited d) (hab.awaited d)
  jobs := hbc.jobs.trans hab.jobs

end Still

lemma Quietly.still (hl : h.Quietly h') : h.Still h' := by
  induction hl with
  | refl => exact .refl h
  | tail _ hstep ih =>
    obtain ⟨op, hq, rfl⟩ := hstep
    exact ih.trans hq.still

lemma Quietly.level (hl : h.Quietly h') : h.Level h' := by
  induction hl with
  | refl => exact .refl h
  | tail _ hstep ih =>
    obtain ⟨op, hq, rfl⟩ := hstep
    exact ih.trans hq.level

section Allocation

variable {h : Heap} (hwf : h.WellFormed) (x : HeapObject) (hroom : (h.allocate x).2.Roomy)

include hwf hroom

lemma advance_allocate : Arena.Advance h.objects (h.allocate x).2.objects [(h.allocate x).1] := by
  rw [Roomy, allocate_objects] at hroom
  rw [allocate_objects]
  exact (Arena.Progress.insert h.objects x).advance hwf hroom

lemma not_issued_allocate : ¬ h.objects.Issued (h.allocate x).1 :=
  (advance_allocate hwf x hroom).unissued _ (by simp)

lemma issued_allocate : (h.allocate x).2.objects.Issued (h.allocate x).1 :=
  (advance_allocate hwf x hroom).issues _ (by simp)

lemma object?_allocate_cases (ho : (h.allocate x).2.object? r = some o) :
    r = (h.allocate x).1 ∧ o = x ∨ h.object? r = some o := by
  rcases (advance_allocate hwf x hroom).valid r (isAlive_of_object? _ r o ho) with halive | hfresh
  · obtain ⟨before, hb⟩ := (h.isAlive_iff r).mp halive
    have hkept := h.objects.get?_insert_of_get? hwf x before r hb
    simp only [object?, allocate_objects] at ho
    exact .inr (hb.trans (hkept.symm.trans ho))
  · have hsize : h.objects.slots.size < 2 ^ 32 := by
      rw [Roomy, allocate_objects] at hroom
      exact Nat.lt_of_le_of_lt (Arena.Progress.insert h.objects x).size hroom
    obtain rfl : r = (h.allocate x).1 := List.mem_singleton.mp hfresh
    have hself := h.objects.get?_insert_self hwf hsize x
    simp only [object?, allocate_objects] at ho
    exact .inl ⟨rfl, Option.some.inj (ho.symm.trans hself)⟩

lemma promise?_allocate (hp : (h.allocate x).2.promise? r = some p) :
    r = (h.allocate x).1 ∧ x.role = .promise p ∨ h.promise? r = some p := by
  obtain ⟨o, ho, hrole⟩ := (promise?_eq_some_iff _ r p).mp hp
  rcases object?_allocate_cases hwf x hroom ho with ⟨hr, rfl⟩ | hbefore
  · exact .inl ⟨hr, hrole⟩
  · exact .inr ((promise?_eq_some_iff _ r p).mpr ⟨o, hbefore, hrole⟩)

lemma resolver?_allocate (hr : (h.allocate x).2.resolver? r = some target) :
    r = (h.allocate x).1 ∧ x.role = .resolver target ∨ h.resolver? r = some target := by
  obtain ⟨o, ho, hrole⟩ := (resolver?_eq_some_iff _ r target).mp hr
  rcases object?_allocate_cases hwf x hroom ho with ⟨hfresh, rfl⟩ | hbefore
  · exact .inl ⟨hfresh, hrole⟩
  · exact .inr ((resolver?_eq_some_iff _ r target).mpr ⟨o, hbefore, hrole⟩)

end Allocation

lemma promise?_newPromise (hwf : h.WellFormed) (hroom : h.newPromise.2.Roomy)
    (hp : h.newPromise.2.promise? r = some p) :
    h.promise? r = some p ∨ ¬ h.objects.Issued r ∧ p = {} := by
  rcases promise?_allocate hwf _ hroom hp with ⟨rfl, hrole⟩ | hbefore
  · exact .inr ⟨not_issued_allocate hwf _ hroom, (HeapObject.Role.promise.inj hrole).symm⟩
  · exact .inl hbefore

lemma promise?_allocate_of_some (hwf : h.WellFormed) (x : HeapObject)
    (hp : h.promise? r = some p) : (h.allocate x).2.promise? r = some p := by
  obtain ⟨o, ho, hrole⟩ := (h.promise?_eq_some_iff r p).mp hp
  refine (promise?_eq_some_iff _ r p).mpr ⟨o, ?_, hrole⟩
  rw [object?, allocate_objects]
  exact h.objects.get?_insert_of_get? hwf x o r ho

lemma thenPromise_of_some (hp : h.promise? r = some p) (f g : Option ObjectRef) :
    (h.thenPromise r f g).2 = h.newPromise.2.react r p ⟨f, g, h.newPromise.1⟩ := by
  rw [thenPromise, hp]

section Resolvers

variable (h : Heap) (s : ObjectRef)

lemma promise?_root (r : ObjectRef) : (h.root s).promise? r = h.promise? r := by
  simp [promise?, body?, object?]

lemma resolverPromise_eq :
    h.resolverPromise s =
      match h.resolver? s with
      | some d => (some d, h.root d)
      | none => (none, h) := by
  unfold resolverPromise resolver?
  cases h.body? s with
  | none => rfl
  | some body => cases body <;> rfl

lemma lockResolver_eq :
    h.lockResolver s =
      match h.resolver? s with
      | some d =>
        match h.promise? d with
        | some p =>
          if p.locked = false ∧ p.state = .pending then
            (some d, (h.root d).setPromise d { p with locked := true })
          else (none, h.root d)
        | none => (none, h.root d)
      | none => (none, h) := by
  unfold lockResolver
  rw [resolverPromise_eq]
  cases h.resolver? s with
  | none => rfl
  | some d =>
    simp only [promise?_root]
    cases h.promise? d with
    | none => rfl
    | some p => simp

variable {h s}

lemma lockResolver_of_some (hd : (h.lockResolver s).1 = some d) :
    h.resolver? s = some d ∧ ∃ p, h.promise? d = some p ∧ p.locked = false ∧
      p.state = .pending ∧
      (h.lockResolver s).2 = (h.root d).setPromise d { p with locked := true } := by
  rw [lockResolver_eq] at hd ⊢
  split at hd
  · rename_i target hs
    split at hd
    · rename_i p hp
      split at hd
      · rename_i hopen
        obtain rfl : target = d := Option.some.inj hd
        exact ⟨hs, p, hp, hopen.1, hopen.2, by simp [hopen]⟩
      · cases hd
    · cases hd
  · cases hd

lemma promise?_lockResolver (hd : (h.lockResolver s).1 = some d) (hp : h.promise? d = some p)
    (r : ObjectRef) :
    (h.lockResolver s).2.promise? r =
      if r = d then some { p with locked := true } else h.promise? r := by
  obtain ⟨-, q, hq, -, -, heq⟩ := lockResolver_of_some hd
  obtain rfl := Option.some.inj (hq.symm.trans hp)
  rw [heq, promise?_setPromise _ ((h.promise?_root d d).trans hp), promise?_root]

lemma lockResolver_of_none (hn : (h.lockResolver s).1 = none) :
    ∀ d p, h.resolver? s = some d → h.promise? d = some p →
      p.locked = true ∨ p.state ≠ .pending := by
  intro d p hs hp
  rw [lockResolver_eq, hs] at hn
  simp only [hp] at hn
  split at hn
  · cases hn
  · rename_i hclosed
    by_contra hopen
    simp only [not_or, Bool.not_eq_true, Decidable.not_not] at hopen
    exact hclosed hopen

lemma quietly_lockResolver_of_none (hn : (h.lockResolver s).1 = none) :
    h.Quietly (h.lockResolver s).2 := by
  rw [lockResolver_eq] at hn ⊢
  split at hn
  · split at hn
    · split at hn
      · cases hn
      · rename_i hclosed
        rw [if_neg hclosed]
        exact (h.discreetly_root _).quietly
    · exact (h.discreetly_root _).quietly
  · exact .refl h

end Resolvers

section Jobs

variable {h h' : Heap} {job : Job}

section

variable (refs : List ObjectRef)

lemma foldl_root_objects (h : Heap) : (refs.foldl root h).objects = h.objects := by
  induction refs generalizing h with
  | nil => rfl
  | cons r rest ih => exact (ih _).trans (root_objects h r)

lemma foldl_root_jobs (h : Heap) : (refs.foldl root h).jobs = h.jobs := by
  induction refs generalizing h with
  | nil => rfl
  | cons r rest ih => exact (ih _).trans (root_jobs h r)

lemma level_foldl_root (h : Heap) : h.Level (refs.foldl root h) := by
  induction refs generalizing h with
  | nil => exact .refl h
  | cons r rest ih => exact (h.level_root r).trans (ih _)

end

lemma nextJob_of_some (hj : h.nextJob = some (job, h')) :
    h.jobs = job :: h'.jobs ∧ h'.objects = h.objects ∧ h.Level h' := by
  unfold nextJob at hj
  split at hj
  · cases hj
  · rename_i first rest hjobs
    obtain ⟨rfl, rfl⟩ := Prod.mk.inj (Option.some.inj hj)
    refine ⟨?_, foldl_root_objects _ _, ?_⟩
    · rw [hjobs, foldl_root_jobs]
    · have hfields : h.Level { h with jobs := rest } := ⟨rfl, rfl, rfl⟩
      exact hfields.trans (level_foldl_root _ _)

end Jobs

end Heap

end HostBoundary
