import HostBoundary.Proofs.Moments
import HostBoundary.Proofs.Serenity

namespace HostBoundary

namespace Heap

section Fulfilment

variable (h : Heap) (d : ObjectRef)

-- What it takes to fulfil a promise: it is rejected, or it follows another one, or it settles.
lemma fulfil_cases (value : Value) :
    (value = .object d ∧ ∃ message,
      h.fulfil d value = (h.newError .typeError message).2.settle d .rejected
        (h.newError .typeError message).1) ∨
    (∃ inner p, value = .object inner ∧ h.promise? inner = some p ∧
      h.fulfil d value = h.react inner p { derived := d }) ∨
    (∀ x, value = .object x → x ≠ d ∧ h.promise? x = none) ∧
      h.fulfil d value = h.settle d .fulfilled value := by
  unfold fulfil
  split
  · rename_i inner
    split
    · rename_i hself
      exact .inl ⟨congrArg _ hself, _, rfl⟩
    · rename_i hne
      split
      · rename_i p hp
        exact .inr (.inl ⟨inner, p, rfl, hp, rfl⟩)
      · rename_i hp
        refine .inr (.inr ⟨fun x hx => ?_, rfl⟩)
        rw [← Value.object.inj hx]
        exact ⟨hne, hp⟩
  · rename_i hplain
    exact .inr (.inr ⟨fun x hx => absurd hx (hplain x), rfl⟩)

lemma fulfil_of_plain {p : Promise} (hd : h.promise? d = some p) {value : Value}
    (hplain : ∀ x, value = .object x → h.promise? x = none) :
    h.fulfil d value = h.settle d .fulfilled value := by
  rcases h.fulfil_cases d value with ⟨hself, -⟩ | ⟨inner, q, hinner, hq, -⟩ | ⟨-, hsettle⟩
  · exact absurd ((hplain d hself).symm.trans hd) (by simp)
  · exact absurd ((hplain inner hinner).symm.trans hq) (by simp)
  · exact hsettle

-- Only following another promise adds to the burden.
lemma burden_fulfil (value : Value) :
    (h.fulfil d value).burden ≤ h.burden + 1 ∧
    ((∀ x, value = .object x → h.promise? x = none) → (h.fulfil d value).burden ≤ h.burden) := by
  rcases h.fulfil_cases d value with ⟨-, message, heq⟩ | ⟨inner, p, hinner, hp, heq⟩ | ⟨-, heq⟩
  · have herror := (h.moves_newError .typeError message).discreetly.serene.burden
    rw [heq, burden_settle]
    exact ⟨Nat.le_succ_of_le herror, fun _ => herror⟩
  · rw [heq, burden_react hp]
    exact ⟨Nat.le_refl _, fun hplain => absurd ((hplain inner hinner).symm.trans hp) (by simp)⟩
  · rw [heq, burden_settle]
    exact ⟨Nat.le_succ _, fun _ => Nat.le_refl _⟩

end Fulfilment

-- How a heap comes out of a job that has been taken off the queue, where handlers are aloof.
inductive Worked (h : Heap) (job : Job) : Heap → Prop where
  | returned (h' : Heap) (f : ObjectRef) (value : Value) (hs : h.Serene h')
      (hf : job.reaction.handler job.state = some f) :
      Worked h job (h'.fulfil job.reaction.derived value)
  | thrown (h' : Heap) (f : ObjectRef) (value : Value) (hs : h.Serene h')
      (hf : job.reaction.handler job.state = some f) :
      Worked h job (h'.settle job.reaction.derived .rejected value)
  | fulfilled (hf : job.reaction.handler job.state = none) (hstate : job.state = .fulfilled) :
      Worked h job (h.fulfil job.reaction.derived job.value)
  | rejected (hf : job.reaction.handler job.state = none) (hstate : job.state ≠ .fulfilled) :
      Worked h job (h.settle job.reaction.derived job.state job.value)

-- A handler weighs more than the following that it may lead to, and where there is none nothing is
-- followed.
lemma Worked.burden_lt {h h₁ h' : Heap} {job : Job} (hw : Worked h₁ job h')
    (hj : h.nextJob = some (job, h₁))
    (hplain : job.state = .fulfilled → ∀ x, job.value = .object x → h₁.promise? x = none) :
    h'.burden < h.burden := by
  have htaken := burden_nextJob hj
  have hpos := job.reaction.weight_pos
  cases hw with
  | returned h₂ f value hs hf =>
    have hle := (h₂.burden_fulfil job.reaction.derived value).1
    have hserene := hs.burden
    have hweight := Reaction.weight_of_handler hf
    omega
  | thrown h₂ f value hs hf =>
    have hserene := hs.burden
    rw [burden_settle]
    omega
  | fulfilled hf hstate =>
    have hle := (h₁.burden_fulfil job.reaction.derived job.value).2 (hplain hstate)
    omega
  | rejected hf hstate =>
    rw [burden_settle]
    omega

section Jobs

variable {limits : HeapLimits} {pages : List Heap} {events : List Event} {h : Heap}
  {pledged : List ObjectRef} (hc : Chronicle limits pages events h pledged)

include hc

lemma Chronicle.job_plain (hroom : h.Roomy) :
    ∀ job ∈ h.jobs, job.state = .fulfilled → ∀ x, job.value = .object x → h.promise? x = none := by
  have hboth := hc.invariant (I := fun _ h _ => h.SoundPromises ∧ ∀ job ∈ h.jobs,
    job.state = .fulfilled → ∀ x, job.value = .object x → h.promise? x = none)
    ⟨soundPromises_fresh limits, by simp [jobs_fresh]⟩ (fun hwf hroom hs ⟨hsound, hjobs⟩ => ?_) hroom
  · exact hboth.2
  · have hsound' := hs.soundPromises hwf hroom hsound
    refine ⟨hsound', fun job hjob hstate x hx => ?_⟩
    rcases hs.mem_jobs hjob with hold | hnew
    · exact hs.promise?_eq_none hwf hroom (hjobs job hold hstate x hx)
        (hsound.value job hold hstate x hx)
    · obtain ⟨r, p, hp, hsame, hvalue⟩ := hs.queued hwf hnew
      exact (hsound'.fulfilled r p hp (hsame ▸ hstate) x (hvalue ▸ hx)).1

lemma Chronicle.forget : Chronicle limits [] events h pledged := by
  induction hc with
  | fresh => exact .fresh
  | step _ hs ih => exact ih.step hs
  | note _ ih => exact ih

end Jobs

end Heap

variable {σ τ : Type} {host : Host σ} {diary : σ → List (World Unit)} {e : EngineId}
  {pledges : EngineId → List ObjectRef} {w : World σ}

lemma World.seen_mem_moments (w : World σ) : w.seen.seen ∈ w.moments diary :=
  List.mem_append_right _ List.mem_cons_self

lemma World.Lawful.moment (hw : w.Lawful diary pledges) {m : World τ}
    (hm : m.seen ∈ w.moments diary) : ∃ pledges', m.Lawful (fun _ => []) pledges' := by
  have haccounted : m.Accounted := (hw.accounted_moment hm).of_eq rfl rfl
  have hhistory : ∀ e, ∃ pledged, (m.HasEngine e → ∃ limits events,
      Heap.Chronicle limits [] events (m.engine e).heap pledged) ∧
      (¬ m.HasEngine e → pledged = []) := by
    intro e
    by_cases he : m.HasEngine e
    · obtain ⟨limits, pages, events, pledged, hc⟩ := hw.chronicle_moment hm he
      exact ⟨pledged, fun _ => ⟨limits, events, hc.forget⟩, fun hnot => absurd he hnot⟩
    · exact ⟨[], fun hthere => absurd hthere he, fun _ => rfl⟩
  choose pledges' hchronicle hvacant using hhistory
  exact ⟨pledges', haccounted, hchronicle, fun page hpage => absurd hpage (by simp), hvacant⟩

namespace Engine

section Runs

variable {job : Job} {h : Heap} (budget : Nat)

lemma runJobs_of_none (hj : (w.engine e).heap.nextJob = none) :
    runJobs host e budget w = ((), w) := by
  cases budget with
  | zero => rfl
  | succ budget =>
    simp only [runJobs, bind, StateT.bind, takeJob_of_none hj, World.modifyEngine_self]
    rfl

lemma runJobs_of_some (hj : (w.engine e).heap.nextJob = some (job, h)) :
    runJobs host e (budget + 1) w =
      runJobs host e budget (runJob host e job (w.setHeap e h)).2 := by
  simp only [runJobs, bind, StateT.bind, takeJob_of_some hj]
  rfl

lemma nextJob_eq_none_iff (h : Heap) : h.nextJob = none ↔ h.jobs = [] := by
  unfold Heap.nextJob
  split
  · simp_all
  · simp_all

lemma runJobs_add (more : Nat) (hdone : ((runJobs host e budget w).2.engine e).heap.jobs = []) :
    runJobs host e (budget + more) w = runJobs host e budget w := by
  induction budget generalizing w with
  | zero =>
    rw [Nat.zero_add]
    exact runJobs_of_none more ((nextJob_eq_none_iff _).mpr hdone)
  | succ budget ih =>
    cases hj : (w.engine e).heap.nextJob with
    | none => rw [runJobs_of_none _ hj, runJobs_of_none _ hj]
    | some next =>
      obtain ⟨job, h⟩ := next
      rw [Nat.add_right_comm, runJobs_of_some _ hj, runJobs_of_some _ hj]
      rw [runJobs_of_some _ hj] at hdone
      exact ih hdone

-- Once no job is left, a larger budget makes no difference.
lemma roomy_of_done (budget size : Nat) (hsize : size < 2 ^ 32)
    (hdone : ((runJobs host e budget w).2.engine e).heap.jobs = [])
    (hslots : (List.range (budget + 1)).all (fun fewer =>
      ((runJobs host e fewer w).2.engine e).heap.objects.slots.size = size) = true) (any : Nat) :
    ((runJobs host e any w).2.engine e).heap.Roomy := by
  have hroom : ∀ fewer ≤ budget, ((runJobs host e fewer w).2.engine e).heap.Roomy := by
    intro fewer hle
    have hsame := List.all_eq_true.mp hslots fewer (List.mem_range.mpr (Nat.lt_succ_of_le hle))
    rwa [Heap.Roomy, of_decide_eq_true hsame]
  rcases Nat.le_total any budget with hle | hle
  · exact hroom any hle
  · obtain ⟨more, rfl⟩ := Nat.exists_eq_add_of_le hle
    rw [runJobs_add _ more hdone]
    exact hroom budget (Nat.le_refl _)

end Runs

section Aloof

variable (ha : host.Aloof) (hw : w.Lawful (fun _ => []) pledges)

include ha hw

lemma runJob_worked {job : Job} {h : Heap} (hj : (w.engine e).heap.nextJob = some (job, h)) :
    Heap.Worked h job ((runJob host e job (w.setHeap e h)).2.engine e).heap := by
  obtain ⟨hjobs, -⟩ := Heap.nextJob_of_some hj
  have he := World.hasEngine_of_job (e := e) (w := w) (hjobs ▸ List.mem_cons_self)
  have hstarted : (w.setHeap e h).Lawful _ _ :=
    hw.modifyEngine e _ rfl (Heap.proceeds_nextJob hj) fun hnot => absurd he hnot
  have he' : (w.setHeap e h).HasEngine e := (World.hasEngine_modifyEngine ..).mpr he
  have hheap := World.heap_modifyEngine he h
  generalize w.setHeap e h = w₁ at hstarted he' hheap
  have hupdate : ∀ (w : World σ) (f : Heap → Heap), w.HasEngine e →
      ((Act.updateHeap e f w).2.engine e).heap = f (w.engine e).heap := by
    intro w f hthere
    change ((w.setHeap e (f (w.engine e).heap)).engine e).heap = _
    rw [World.heap_modifyEngine hthere]
  cases hf : job.reaction.handler job.state with
  | none =>
    simp only [runJob, hf]
    split
    · rename_i hstate
      rw [hupdate _ _ he', hheap]
      exact .fulfilled hf hstate
    · rename_i hstate
      rw [hupdate _ _ he', hheap]
      exact .rejected hf hstate
  | some f =>
    obtain ⟨-, hretains⟩ := (lawful_basis ha.lawful []).call e f .undefined [job.value] _ w₁
      hstarted (by simp)
    have hserene := ha.call e f .undefined [job.value] w₁ e
    rw [hheap] at hserene
    simp only [runJob, hf, bind, StateT.bind]
    generalize call host e f .undefined [job.value] w₁ = done at hretains hserene ⊢
    obtain ⟨result, w₂⟩ := done
    cases result with
    | ok value =>
      rw [hupdate _ _ (hretains.hasEngine he')]
      exact .returned _ f value hserene hf
    | error thrown =>
      rw [hupdate _ _ (hretains.hasEngine he')]
      exact .thrown _ f thrown.value hserene hf

variable (hroom : ∀ budget, ((runJobs host e budget w).2.engine e).heap.Roomy)

include hroom

-- What holds of a heap with so much budget left and is kept by every job holds after the run.
lemma runJobs_induction {I : Nat → Heap → Prop}
    (hidle : ∀ {budget h}, h.jobs = [] → I budget h → I 0 h)
    (hstep : ∀ {limits events h job h₁ h' budget}, Heap.Chronicle limits [] events h (pledges e) →
      h.nextJob = some (job, h₁) → Heap.Worked h₁ job h' → h.Roomy → h'.Roomy →
      I (budget + 1) h → I budget h')
    (budget : Nat) (hI : I budget (w.engine e).heap) :
    I 0 ((runJobs host e budget w).2.engine e).heap := by
  induction budget generalizing w with
  | zero => exact hI
  | succ budget ih =>
    cases hj : (w.engine e).heap.nextJob with
    | none =>
      rw [runJobs_of_none _ hj]
      exact hidle ((nextJob_eq_none_iff _).mp hj) hI
    | some next =>
      obtain ⟨job, h⟩ := next
      have he : w.HasEngine e :=
        World.hasEngine_of_job ((Heap.nextJob_of_some hj).1 ▸ List.mem_cons_self)
      obtain ⟨limits, events, hc⟩ := hw.history e he
      have hrest : ∀ budget, runJobs host e (budget + 1) w = _ := fun budget =>
        runJobs_of_some budget hj
      have hroom' := fun budget => hrest budget ▸ hroom (budget + 1)
      rw [hrest]
      exact ih (startJob_lawful ha.lawful hw hj).1 hroom'
        (hstep hc hj (runJob_worked ha hw hj) (hroom 0) (hroom' 0) hI)

lemma runJobs_dry {budget : Nat} (hb : (w.engine e).heap.burden ≤ budget) :
    ((runJobs host e budget w).2.engine e).heap.jobs = [] := by
  have hdone := runJobs_induction ha hw hroom (I := fun budget h => h.jobs = [] ∨ h.burden ≤ budget)
    (fun hjobs _ => .inl hjobs) (fun {_ _ h job h₁ h' _} hc hj hworked hbefore _ hI => ?_) budget (.inr hb)
  · exact hdone.elim id fun hzero => Heap.jobs_of_burden (Nat.le_zero.mp hzero)
  · obtain ⟨hjobs, hobjects, -⟩ := Heap.nextJob_of_some hj
    have hmem : job ∈ h.jobs := hjobs ▸ List.mem_cons_self
    have hless := hworked.burden_lt hj fun hstate x hx => by
      simpa [Heap.promise?, Heap.body?, Heap.object?, hobjects] using
        hc.job_plain hbefore job hmem hstate x hx
    have hle := hI.resolve_left (List.ne_nil_of_mem hmem)
    exact .inr (by omega)

-- A budget of what all reactions weigh is enough, and a larger one makes no difference.
lemma runJobs_ends : ∃ last, (last.engine e).heap.jobs = [] ∧
    ∀ budget, (w.engine e).heap.burden ≤ budget → runJobs host e budget w = ((), last) := by
  have hdry := runJobs_dry ha hw hroom (Nat.le_refl (w.engine e).heap.burden)
  refine ⟨_, hdry, fun budget hle => ?_⟩
  obtain ⟨more, rfl⟩ := Nat.exists_eq_add_of_le hle
  exact runJobs_add _ more hdry

end Aloof

end Engine

lemma Environment.perform_runMicrotasks {n : EnvironmentId} {last : World σ}
    (hengine : (w.environment n).engine = e)
    (hrun : Engine.runJobs host e host.jobBudget w = ((), last)) :
    perform host n .runMicrotasks w = (.done, last) := by
  subst hengine
  have hperform : perform host n .runMicrotasks w =
    (.done, (Engine.runJobs host (w.environment n).engine host.jobBudget w).2) := rfl
  rw [hperform, hrun]

-- If handlers do not call back into the engine, a run of jobs comes to an end, and then no job is
-- left and no settled promise has a reaction.
theorem microtasks_run_dry (hn : host.Native diary) (w : World σ) (hw : w.Reached diary host)
    (handlers : Host τ) (ha : handlers.Aloof) (m : World τ) (hm : m.seen ∈ w.moments diary)
    (n : EnvironmentId) (hthere : m.Has n) (e : EngineId) (hengine : (m.environment n).engine = e)
    (hroom : ∀ budget, ((Engine.runJobs handlers e budget m).2.engine e).heap.Roomy) :
    ∃ last : World τ,
      (∀ budget, (m.engine e).heap.burden ≤ budget →
        Engine.runJobs handlers e budget m = ((), last)) ∧
      ((m.engine e).heap.burden ≤ handlers.jobBudget →
        Environment.perform handlers n .runMicrotasks m = (.done, last)) ∧
      (last.engine e).heap.jobs = [] ∧
      ∀ r p, (last.engine e).heap.promise? r = some p → p.state ≠ .pending → p.reactions = [] := by
  obtain ⟨pledges, hlaw⟩ := (hw.lawful hn).moment hm
  obtain ⟨last, hdry, hrun⟩ := Engine.runJobs_ends ha hlaw hroom
  refine ⟨last, hrun, fun hle => Environment.perform_runMicrotasks hengine (hrun _ hle), hdry, ?_⟩
  intro r p hp
  have hlast := hrun _ (Nat.le_refl _)
  obtain ⟨hend, hretains⟩ :=
    Engine.runJobs_lawful ha.lawful [] e (m.engine e).heap.burden pledges m hlaw (by simp)
  have hroomy := hroom (m.engine e).heap.burden
  rw [hlast] at hend hretains hroomy
  obtain ⟨limits, events, hc⟩ :=
    hend.history e (hretains.hasEngine (hengine ▸ hlaw.accounted.engine n hthere))
  exact ((hc.soundPromises hroomy).promise r p hp).reactions

def entangling : Host Unit :=
  { Host.inert with function := fun _ _ _ _ => pure (some (.object .promise (.transient (.first 5)))) }

lemma entangling_aloof : entangling.Aloof where
  engines visit w := by cases visit <;> rfl
  size visit w := by cases visit <;> rfl
  environment visit w n := by cases visit <;> exact ⟨rfl, rfl, rfl, rfl⟩

def beforeRun : World (List (World Unit)) := World.after handlers { host := [] } chained.dropLast

lemma beforeRun_reached : beforeRun.Reached id handlers :=
  ⟨[], rfl, Stretch.start.after chained.dropLast (by decide +kernel)⟩

lemma beforeRun_roomy (budget : Nat) :
    ((Engine.runJobs entangling ⟨0⟩ budget beforeRun.seen).2.engine ⟨0⟩).heap.Roomy :=
  Engine.roomy_of_done 1 7 (by decide) (by decide +kernel) (by decide +kernel) budget

-- Two promises follow each other in the end.
theorem microtasks_run_dry_of_entangled :
    entangling.Aloof ∧ (beforeRun.seen.engine ⟨0⟩).heap.burden = 3 ∧
    (beforeRun.seen.engine ⟨0⟩).heap.jobs.length = 1 ∧
    ∃ last, Engine.runJobs entangling ⟨0⟩ 3 beforeRun.seen = ((), last) ∧
      (last.engine ⟨0⟩).heap.jobs = [] ∧
      ((last.engine ⟨0⟩).heap.promise? (.first 4)).map (·.reactions) =
        some [⟨none, none, .first 5⟩] ∧
      ((last.engine ⟨0⟩).heap.promise? (.first 5)).map (·.reactions) =
        some [⟨none, none, .first 4⟩] := by
  have hburden : (beforeRun.seen.engine ⟨0⟩).heap.burden = 3 := by decide +kernel
  obtain ⟨last, hrun, -, hdry, -⟩ := microtasks_run_dry handlers_native beforeRun
    beforeRun_reached entangling entangling_aloof beforeRun.seen beforeRun.seen_mem_moments ⟨0⟩
    (by decide +kernel) ⟨0⟩ (by decide +kernel) beforeRun_roomy
  have hthree := hrun 3 (Nat.le_of_eq hburden)
  have hlast : (Engine.runJobs entangling ⟨0⟩ 3 beforeRun.seen).2 = last := congrArg (·.2) hthree
  refine ⟨entangling_aloof, hburden, by decide +kernel, last, hthree, hdry, ?_, ?_⟩
  · rw [← hlast]
    decide +kernel
  · rw [← hlast]
    decide +kernel

end HostBoundary
