import HostBoundary.Proofs.LawfulRuns

namespace HostBoundary

variable {r : ObjectRef} {o : HeapObject}

-- What a reaction weighs. Running one that has a handler may leave another behind, which has none.
def Reaction.weight (r : Reaction) : Nat :=
  if r.onFulfilled.isSome || r.onRejected.isSome then 2 else 1

namespace Reaction

lemma weight_pos (r : Reaction) : 0 < r.weight := by
  unfold weight
  split <;> decide

lemma weight_of_handler {r : Reaction} {state : PromiseState} {f : ObjectRef}
    (h : r.handler state = some f) : r.weight = 2 := by
  refine if_pos ?_
  cases state with
  | pending => exact absurd h (by simp [handler])
  | fulfilled => simp [show r.onFulfilled = some f from h]
  | rejected => simp [show r.onRejected = some f from h]

end Reaction

def Promise.load (p : Promise) : Nat := (p.reactions.map (·.weight)).sum

namespace HeapObject

def Role.load : Role → Nat
  | .promise p => p.load
  | _ => 0

lemma Role.load_of_not_settles {role : Role} (h : role.settles = false) : role.load = 0 := by
  cases role with
  | promise => exact absurd h (by simp [settles])
  | _ => rfl

end HeapObject

namespace Heap

def stored (h : Heap) : Nat := (h.objects.entries.map (·.role.load)).sum

def burden (h : Heap) : Nat := h.stored + (h.jobs.map (·.reaction.weight)).sum

section Burden

variable {h h' : Heap} {r : ObjectRef} {p : Promise}

lemma burden_of_eq (hobjects : h'.objects = h.objects) (hjobs : h'.jobs = h.jobs) :
    h'.burden = h.burden := by
  simp only [burden, stored, hobjects, hjobs]

lemma burden_enqueue (h : Heap) (jobs : List Job) :
    (h.enqueue jobs).burden = h.burden + (jobs.map (·.reaction.weight)).sum := by
  simp [burden, stored, enqueue, Nat.add_assoc]

lemma burden_setPromise (hp : h.promise? r = some p) (q : Promise) :
    (h.setPromise r q).burden + p.load = h.burden + q.load := by
  obtain ⟨o, ho, hrole⟩ := (h.promise?_eq_some_iff r p).mp hp
  obtain ⟨pre, post, hold, hnew⟩ :=
    h.objects.entries_modify r (fun o => { o with body := .promise q }) o ho
  have hbefore : o.role.load = p.load := by rw [hrole]; rfl
  have hafter : ({ o with body := .promise q } : HeapObject).role.load = q.load := rfl
  simp only [burden, stored, setPromise, modifyObject, hold, hnew, List.map_append, List.map_cons,
    List.map_nil, List.sum_append, List.sum_cons, List.sum_nil, hbefore, hafter]
  omega

lemma burden_settle (h : Heap) (r : ObjectRef) (state : PromiseState) (value : Value) :
    (h.settle r state value).burden = h.burden := by
  cases hp : h.promise? r with
  | none => rw [settle_of_none h r state value hp]
  | some p =>
    have hset := burden_setPromise hp (p.settle state value).2
    rw [settle_of_some h r state value hp, burden_enqueue]
    by_cases hleft : p.state ≠ .pending ∨ state = .pending
    · rw [Promise.settle_of_left hleft] at hset ⊢
      simp only [Option.getD_none, List.map_nil, List.sum_nil] at hset ⊢
      omega
    · obtain ⟨hpending, hstate⟩ := not_or.mp hleft
      rw [Promise.settle_of_pending (Decidable.not_not.mp hpending) hstate] at hset ⊢
      simp only [Promise.load, Option.getD_some, List.map_map, List.map_nil, List.sum_nil] at hset ⊢
      exact hset

lemma burden_react (hp : h.promise? r = some p) (reaction : Reaction) :
    (h.react r p reaction).burden = h.burden + reaction.weight := by
  have hset := burden_setPromise hp (p.react reaction true).2
  have heq : h.react r p reaction =
      (h.setPromise r (p.react reaction true).2).enqueue (p.react reaction true).1.toList := rfl
  rw [heq, burden_enqueue]
  by_cases hpending : p.state = .pending
  · rw [Promise.react_of_pending hpending] at hset ⊢
    simp only [Promise.load, List.map_append, List.map_cons, List.map_nil, List.sum_append,
      List.sum_cons, List.sum_nil, Option.toList_none] at hset ⊢
    omega
  · rw [Promise.react_of_settled hpending] at hset ⊢
    simp only [Promise.load, Option.toList_some, List.map_cons, List.map_nil, List.sum_cons,
      List.sum_nil] at hset ⊢
    omega

lemma burden_nextJob {job : Job} (hj : h.nextJob = some (job, h')) :
    h.burden = h'.burden + job.reaction.weight := by
  obtain ⟨hjobs, hobjects, -⟩ := nextJob_of_some hj
  simp only [burden, stored, hjobs, hobjects, List.map_cons, List.sum_cons]
  omega

lemma jobs_of_burden (hb : h.burden = 0) : h.jobs = [] := by
  cases hjobs : h.jobs with
  | nil => rfl
  | cons job rest =>
    have hpos := job.reaction.weight_pos
    simp only [burden, hjobs, List.map_cons, List.sum_cons] at hb
    omega

lemma stored_allocate (h : Heap) (o : HeapObject) (ho : o.role.load = 0) :
    (h.allocate o).2.stored ≤ h.stored := by
  obtain ⟨pre, old, post, hold, hnew⟩ := h.objects.entries_insert o
  simp only [stored, allocate_objects, hold, hnew, List.map_append, List.map_cons, List.map_nil,
    List.sum_append, List.sum_cons, List.sum_nil, ho]
  omega

lemma stored_drainReleases (h : Heap) : h.drainReleases.2.stored = h.stored := by
  simp only [stored, entries_drainReleases, List.map_map, Function.comp_def, (calm_drained _).role]

end Burden

-- A change by which nothing happens to promises and jobs, and none of the promises goes.
structure Serene (h h' : Heap) : Prop where
  leads : h.Leads h'
  still : h.Still h'
  burden : h'.burden ≤ h.burden
  promise : h.objects.WellFormed → h'.Roomy → ∀ r p, h.promise? r = some p → h'.promise? r = some p

namespace Serene

variable {h h' h'' : Heap}

lemma refl (h : Heap) : h.Serene h := ⟨.refl h, .refl h, Nat.le_refl _, fun _ _ _ _ hp => hp⟩

lemma trans (hab : h.Serene h') (hbc : h'.Serene h'') : h.Serene h'' where
  leads := hab.leads.trans hbc.leads
  still := hab.still.trans hbc.still
  burden := Nat.le_trans hbc.burden hab.burden
  promise hwf hroom r p hp := by
    have hmid := hbc.leads.roomy hroom
    exact hbc.promise (hab.leads.wellFormed hwf hmid) hroom r p (hab.promise hwf hmid r p hp)

lemma of_eq (hl : h.Leads h') (hobjects : h'.objects = h.objects) (hjobs : h'.jobs = h.jobs) :
    h.Serene h' where
  leads := hl
  still := .of_eq hobjects hjobs
  burden := Nat.le_of_eq (burden_of_eq hobjects hjobs)
  promise _ _ r p hp := by simpa [promise?, body?, object?, hobjects] using hp

end Serene

section Serenity

variable (h : Heap)

lemma serene_pushScope : h.Serene h.pushScope :=
  .of_eq (.op .pushScope trivial) h.pushScope_objects h.still_pushScope.jobs

lemma serene_popScope : h.Serene h.popScope.2 :=
  .of_eq (.op .popScope trivial) h.popScope_objects h.still_popScope.jobs

variable {h} {op : Operation}

lemma Operation.Quiet.burden_le (hq : op.Quiet h) : (h.apply op).2.burden ≤ h.burden := by
  have hjobs := hq.still.jobs
  suffices hstored : (h.apply op).2.stored ≤ h.stored by
    simp only [burden, hjobs]
    omega
  cases op with
  | allocate o => exact h.stored_allocate o (HeapObject.Role.load_of_not_settles hq)
  | mutate r change =>
    cases hr : h.object? r with
    | none =>
      have hsame := h.objects.modify_of_get?_eq_none r change hr
      simp [stored, apply, modifyObject, hsame]
    | some o =>
      obtain ⟨pre, post, hold, hnew⟩ := h.objects.entries_modify r change o hr
      simp [stored, apply, modifyObject, hold, hnew, (hq o hr).role]
  | collect =>
    simp only [stored, apply, Prod.map, id, collect_eq]
    exact ((h.objects.sublist_entries_sweep _ _).map _).sum_le_sum fun _ _ => Nat.zero_le _
  | drainReleases => exact Nat.le_of_eq h.stored_drainReleases
  | root | target | persist | weaken => simp [stored, apply]
  | dispose | addTemplate | mutateTemplate | discardTemplate => exact Nat.le_refl _
  | setGlobal | pushScope | popScope | enqueue | dequeue => exact hq.elim

lemma Operation.Quiet.role (hq : op.Quiet h) (hne : op ≠ .collect) (hwf : h.WellFormed)
    (ho : h.object? r = some o) : ∃ o', (h.apply op).2.object? r = some o' ∧ o'.role = o.role := by
  cases op with
  | allocate x =>
    refine ⟨o, ?_, rfl⟩
    simp only [apply, Prod.map, id, object?, allocate_objects]
    exact h.objects.get?_insert_of_get? hwf x o r ho
  | mutate s change =>
    simp only [apply, object?_modifyObject]
    split
    · rename_i hs
      exact ⟨change o, by rw [ho]; rfl, (hq o (hs ▸ ho)).role⟩
    · exact ⟨o, ho, rfl⟩
  | collect => exact absurd rfl hne
  | drainReleases =>
    exact ⟨drained o, (h.object?_drainReleases r).trans (congrArg _ ho), (calm_drained o).role⟩
  | root | target | persist | weaken => exact ⟨o, by simpa [apply, object?] using ho, rfl⟩
  | dispose | addTemplate | mutateTemplate | discardTemplate => exact ⟨o, ho, rfl⟩
  | setGlobal | pushScope | popScope | enqueue | dequeue => exact hq.elim

lemma serene_apply (op : Operation) (hq : op.Quiet h) (hne : op ≠ .collect) :
    h.Serene (h.apply op).2 where
  leads := .op op hq.mild
  still := hq.still
  burden := hq.burden_le
  promise hwf _ r p hp := by
    obtain ⟨o, ho, hrole⟩ := (h.promise?_eq_some_iff r p).mp hp
    obtain ⟨o', ho', hsame⟩ := hq.role hne hwf ho
    exact (promise?_eq_some_iff _ r p).mpr ⟨o', ho', hsame.trans hrole⟩

lemma Discreetly.serene {h' : Heap} (hl : h.Discreetly h') : h.Serene h' := by
  induction hl with
  | refl => exact .refl h
  | @tail middle last _ hstep ih =>
    obtain ⟨d, hp, hq, rfl⟩ := hstep
    refine ih.trans ?_
    cases d with
    | op op => exact serene_apply op hq fun heq => (heq ▸ hp : (Deed.op .collect).Plain _)
    | hold target hook =>
      have hpersist : middle.Serene (middle.persist target).2 :=
        serene_apply (.persist target) trivial (by simp)
      simp only [enact, hold]
      split <;> rename_i heq <;> rw [heq] at hpersist
      · exact hpersist.trans (serene_apply (.weaken _ hook) trivial (by simp))
      · exact hpersist
    | assign r i word =>
      simp only [enact, setField]
      split
      · exact serene_apply (.mutate r _) (fun o _ => .of_properties rfl rfl) (by simp)
      · exact .refl _

end Serenity

end Heap

variable {σ α β : Type} {host : Host σ}

-- Something by which nothing happens to promises and jobs, whatever the engine.
def Act.Serene (act : Act σ α) : Prop :=
  ∀ (w : World σ) e, (w.engine e).heap.Serene ((act w).2.engine e).heap

namespace Act.Serene

lemma of_engines {act : Act σ α} (h : ∀ w, (act w).2.engines = w.engines) : Serene act := by
  intro w e
  have hsame : (act w).2.engine e = w.engine e := congrArg (·.getD e.index default) (h w)
  rw [hsame]
  exact .refl _

lemma bind {act : Act σ α} {next : α → Act σ β} (h : Serene act)
    (hnext : ∀ x, Serene (next x)) : Serene (act >>= next) :=
  fun w e => (h w e).trans (hnext (act w).1 (act w).2 e)

lemma updateEngine (e : EngineId) {f : Engine → Engine}
    (hf : ∀ engine : Engine, engine.heap.Serene (f engine).heap) :
    Serene (Act.updateEngine e f : Act σ Unit) := by
  intro w d
  change (w.engine d).heap.Serene ((w.modifyEngine e f).engine d).heap
  rw [World.engine_modifyEngine]
  split
  · rename_i hand
    rw [hand.1]
    exact hf _
  · exact .refl _

lemma onHeap (e : EngineId) {f : Heap → α × Heap} (hf : ∀ h : Heap, h.Serene (f h).2) :
    Serene (Act.onHeap e f : Act σ α) := by
  intro w d
  change (w.engine d).heap.Serene
    ((w.setHeap e (f (w.engine e).heap).2).engine d).heap
  rw [World.engine_modifyEngine]
  split
  · rename_i hand
    rw [hand.1]
    exact hf _
  · exact .refl _

lemma minor : Act.Minor fun act : Act σ _ => Serene act where
  pure _ := .of_engines fun _ => rfl
  bind h hnext := .bind h hnext
  read _ := .of_engines fun _ => rfl
  update _ _ _ := .of_engines fun _ => rfl
  detach e _ hf := .updateEngine e fun engine => (hf engine).heap.symm ▸ .refl _

end Act.Serene

-- Native routines that do not call back into an engine. Beside their own state they may change
-- environments in minor ways, as they do to throw.
structure Host.Aloof (host : Host σ) : Prop where
  engines : ∀ visit w, (host.visit visit w).2.engines = w.engines
  size : ∀ visit w, (host.visit visit w).2.environments.size = w.environments.size
  environment : ∀ visit w n,
    Environment.Kept (w.environment n) ((host.visit visit w).2.environment n)

namespace Host.Aloof

variable (ha : host.Aloof)

include ha

lemma serene (visit : Visit) : Act.Serene (host.visit visit) := .of_engines (ha.engines visit)

lemma ground : Act.Ground host fun act => Act.Serene act where
  toMinor := Act.Serene.minor
  moves e _ hf := .onHeap e fun h => (hf h).discreetly.serene
  reap e := Act.Serene.minor.reap_of (fun hook memory => ha.serene (.release hook memory))
    (.updateEngine e fun _ => .refl _)
    (.onHeap e fun h => Heap.serene_apply .drainReleases trivial (by simp))

lemma visits (n : EnvironmentId) : Act.Visits host n fun act => Act.Serene act :=
  ha.ground.visits id fun visit _ => ha.serene visit

lemma dispatch (e : EngineId) (data : CallbackData) (i : Invocation)
    (hi : i.kind ≠ .construct) : Act.Serene (Engine.dispatch host e data i) := by
  refine .bind (ha.ground.returning ha.ground.get _) fun dispatcher => ?_
  split
  · exact ha.ground.returning (ha.ground.moves e fun h => h.moves_newError _ _) _
  · refine .bind (.onHeap e fun h => h.serene_pushScope) fun _ =>
      .bind (.of_engines fun _ => rfl) fun _ =>
        .bind ((ha.visits _).dispatch data i fun h => absurd h hi) fun completion =>
          .bind (.of_engines fun _ => rfl) fun _ =>
            .bind (.onHeap e fun h => h.serene_popScope.trans ?_) fun _ => ha.ground.pure completion
    split
    · exact (Heap.discreetly_root _ _).serene
    · exact (Heap.discreetly_root _ _).serene
    · exact .refl _

lemma call (e : EngineId) (f : ObjectRef) (this : Value) (args : List Value) :
    Act.Serene (Engine.call host e f this args) :=
  ha.ground.call ha.dispatch e f this args

lemma lawful : host.Lawful fun _ => [] := by
  intro visit pledges w _ hw
  have hengines := ha.engines visit w
  have hsize := ha.size visit w
  have hkept := ha.environment visit w
  generalize (host.visit visit w).2 = w' at hengines hsize hkept
  have hengine : ∀ e, w'.engine e = w.engine e := fun e =>
    congrArg (·.getD e.index default) hengines
  have hthere : ∀ e, w'.HasEngine e ↔ w.HasEngine e := fun e => by
    rw [World.HasEngine, World.HasEngine, hengines]
  have hhas : ∀ n, w'.Has n ↔ w.Has n := fun n => by rw [World.Has, World.Has, hsize]
  have hlevel : ∀ n, (w'.environment n).level = (w.environment n).level := fun n => by
    rw [Environment.level, Environment.level, (hkept n).scopeDepth, (hkept n).running]
  refine ⟨⟨⟨⟨fun n hn => ?_, fun e n hd => ?_⟩, fun e he => ?_⟩, fun e he => ?_,
    fun page hpage => absurd hpage (by simp), fun e he => hw.vacant e ((hthere e).not.mp he)⟩, ?_⟩
  · rw [(hkept n).engine, hthere]
    exact hw.accounted.engine n ((hhas n).mp hn)
  · rw [hengine] at hd
    rw [hhas, (hkept n).engine]
    exact hw.accounted.dispatcher e n hd
  · rw [hengine, World.opened_congr e hsize fun n _ => ⟨(hkept n).engine, hlevel n⟩]
    exact hw.accounted.scopes e ((hthere e).mp he)
  · rw [hengine]
    exact hw.history e ((hthere e).mp he)
  · exact ⟨Nat.le_of_eq (congrArg Array.size hengines.symm), Nat.le_of_eq hsize.symm,
      fun n _ => (hkept n).engine, fun n _ => (hkept n).running⟩

end Host.Aloof

end HostBoundary
