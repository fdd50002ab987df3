import HostBoundary.Proofs.NoDangling

namespace HostBoundary

open Environment

variable {σ : Type} {host : Host σ} {n : EnvironmentId} {e : EngineId} {w w' : World σ} {k : Nat}

def Action.scopesOn (w : World σ) (e : EngineId) : Action → Bool
  | .operate n .pushScope => (w.environment n).engine = e
  | .operate n .popScope => (w.environment n).engine = e ∧ (w.environment n).scopeDepth ≠ 0
  | _ => false

-- All that can follow while the scopes of an engine stay open, with the number of scopes that have
-- been opened on top of them.
inductive Since (host : Host σ) (e : EngineId) (w : World σ) : Nat → World σ → Prop where
  | start : Since host e w 0 w
  | think (k : Nat) (w' : World σ) (s : σ) (hw : Since host e w k w') :
      Since host e w k { w' with host := s }
  | act (k : Nat) (w' : World σ) (action : Action) (hw : Since host e w k w')
      (hp : action.possible w' = true) (hs : action.scopesOn w' e = false) :
      Since host e w k (action.perform host w').2
  | push (k : Nat) (w' : World σ) (n : EnvironmentId) (hw : Since host e w k w') (hn : w'.Has n)
      (hs : (Action.operate n .pushScope).scopesOn w' e = true) :
      Since host e w (k + 1) ((Action.operate n .pushScope).perform host w').2
  | pop (k : Nat) (w' : World σ) (n : EnvironmentId) (hw : Since host e w (k + 1) w')
      (hn : w'.Has n) (hs : (Action.operate n .popScope).scopesOn w' e = true) :
      Since host e w k ((Action.operate n .popScope).perform host w').2

namespace Environment

lemma heap_popped (w : World σ) (he : w.HasEngine e) :
    ((popped n w).engine e).heap =
      if (w.environment n).engine = e then (w.engine e).heap.popScope.2 else (w.engine e).heap := by
  simp only [popped, World.engine_modifyEngine, World.engine_modifyEnvironment,
    World.hasEngine_modifyEnvironment]
  by_cases hsame : (w.environment n).engine = e
  · rw [if_pos ⟨hsame.symm, hsame ▸ he⟩, if_pos hsame, hsame]
  · rw [if_neg fun hand => hsame hand.1.symm, if_neg hsame]

lemma popScope_opens (hs : host.Steady) (hw : w.Sound) (he : w.HasEngine e)
    (hd : (w.environment n).scopeDepth ≠ 0) :
    Heap.Opens 0
      (if (w.environment n).engine = e then (w.engine e).heap.popScope.2 else (w.engine e).heap)
      ((popScope host n w).2.engine e).heap ∧ (popScope host n w).2.HasEngine e := by
  have hc := popScope_carries hs hw hd
  have hthere : (popped n w).HasEngine e := by
    rw [popped, World.hasEngine_modifyEngine]
    exact he
  rw [← heap_popped w he]
  exact ⟨hc.heap e hthere, hc.hasEngine hthere⟩

end Environment

lemma Action.perform_opens (hs : host.Steady) (action : Action) (w : World σ) (hw : w.Sound)
    (he : w.HasEngine e) (hp : action.possible w = true) (hscopes : action.scopesOn w e = false) :
    Heap.Opens 0 (w.engine e).heap ((action.perform host w).2.engine e).heap ∧
    (action.perform host w).2.HasEngine e := by
  by_cases hlevel : action.scopes = false
  · obtain ⟨hc, -⟩ := action.perform_carries hs w hw hp hlevel
    exact ⟨hc.heap e he, hc.hasEngine he⟩
  · cases action with
    | operate n op =>
      have hn : w.Has n := of_decide_eq_true hp
      cases op with
      | pushScope =>
        have hne : (w.environment n).engine ≠ e := of_decide_eq_false hscopes
        have ho := pushScope_opens hw hn
        have hheap := ho.heap e he
        rw [if_neg hne] at hheap
        exact ⟨hheap, ho.hasEngine he⟩
      | popScope =>
        by_cases hdepth : (w.environment n).scopeDepth = 0
        · have hsame : ((Action.operate n .popScope).perform host w).2 = w :=
            popScope_of_zero w hdepth
          rw [hsame]
          exact ⟨.refl _, he⟩
        · have hne : (w.environment n).engine ≠ e := fun heq =>
            of_decide_eq_false hscopes ⟨heq, hdepth⟩
          obtain ⟨ho, hthere⟩ := Environment.popScope_opens (n := n) hs hw he hdepth
          rw [if_neg hne] at ho
          exact ⟨ho, hthere⟩
      | _ => exact absurd rfl hlevel
    | _ => exact absurd rfl hlevel

lemma Since.opens (hs : host.Steady) (hw : w.Sound)
    (he : w.HasEngine e) (hsince : Since host e w k w') :
    Heap.Opens k (w.engine e).heap (w'.engine e).heap ∧ w'.Sound ∧ w'.HasEngine e := by
  induction hsince with
  | start => exact ⟨.refl _, hw, he⟩
  | think k w' s _ ih =>
    obtain ⟨ho, hsound, hthere⟩ := ih
    exact ⟨ho, hsound.of_eq rfl rfl, hthere⟩
  | act k w' action _ hp hscopes ih =>
    obtain ⟨ho, hsound, hthere⟩ := ih
    obtain ⟨hstep, hthere'⟩ := action.perform_opens hs w' hsound hthere hp hscopes
    exact ⟨ho.trans hstep, action.perform_sound hs w' hsound hp, hthere'⟩
  | push k w' n _ hn hscopes ih =>
    obtain ⟨ho, hsound, hthere⟩ := ih
    have hpush := pushScope_opens hsound hn
    have hheap := hpush.heap e hthere
    rw [if_pos (of_decide_eq_true hscopes)] at hheap
    exact ⟨ho.trans hheap, pushScope_sound hsound, hpush.hasEngine hthere⟩
  | pop k w' n _ hn hscopes ih =>
    obtain ⟨ho, hsound, hthere⟩ := ih
    obtain ⟨heq, hdepth⟩ := of_decide_eq_true hscopes
    obtain ⟨hpop, hthere'⟩ := Environment.popScope_opens hs hsound hthere hdepth
    rw [if_pos heq] at hpop
    exact ⟨ho.popScope.trans hpop, popScope_sound hs hsound, hthere'⟩

lemma Action.scopesOn_of_scopes (w : World σ) (e : EngineId) (action : Action)
    (hs : action.scopes = false) : action.scopesOn w e = false := by
  unfold scopesOn
  split
  · exact absurd hs (by simp [Action.scopes, Environment.Operation.scopes])
  · exact absurd hs (by simp [Action.scopes, Environment.Operation.scopes])
  · rfl

lemma Since.after (hsince : Since host e w k w') (actions : List Action)
    (hp : w'.allows host actions = true) (hs : ∀ action ∈ actions, action.scopes = false) :
    Since host e w k (w'.after host actions) := by
  induction actions generalizing w' with
  | nil => exact hsince
  | cons action rest ih =>
    obtain ⟨hfirst, hrest⟩ := (Bool.and_eq_true _ _).mp hp
    have hlevel := action.scopesOn_of_scopes w' e (hs action List.mem_cons_self)
    exact ih (.act k w' action hsince hfirst hlevel) hrest fun other hother =>
      hs other (List.mem_cons_of_mem _ hother)

-- What an operation lends is alive, and it is pinned unless it was read out of an object that still
-- holds it. What is pinned stays alive until a scope is closed that was open when it was lent.
theorem lent_until_scope_closed (hd : host.Disciplined) (w : World σ) (hw : w.Reachable host)
    (n : EnvironmentId) (hn : w.Has n) (op : Environment.Operation.Known) (r : ObjectRef)
    (hr : (Environment.perform host n op w).1.object? = some r) :
    let w₁ := (Environment.perform host n op w).2
    let e := (w.environment n).engine
    (w₁.engine e).heap.Live r ∧
    ((w₁.engine e).heap.Pinned r ∨ op.reads = true ∧ (w₁.engine e).heap.Stored r) ∧
    ((w₁.engine e).heap.Pinned r →
      ∀ k w₂, Since host e w₁ k w₂ → (w₂.engine e).heap.Live r) := by
  intro w₁ e
  have hsound := hw.sound hd.steady
  have hlevel : op.scopes = false := by
    cases op with
    | pushScope | popScope =>
      have hnone : none = some r := hr
      cases hnone
    | _ => rfl
  have hin : (View.environment n e).In w := ⟨hsound.engine n hn, hn, rfl⟩
  obtain ⟨hc, hsound₁, hlends⟩ := perform_meets hd.steady op hlevel w hsound hin trivial
  have hkept := hlends r hr
  have hthere : w₁.HasEngine e := hc.hasEngine hin.1
  refine ⟨?_, hkept, fun hp k w₂ hsince => ?_⟩
  · rcases hkept with hp | ⟨-, hstored⟩
    · exact (hsound₁.heap e).live_of_pinned hp
    · exact (hsound₁.heap e).live_of_stored hstored
  · obtain ⟨ho, hsound₂, -⟩ := hsince.opens hd.steady hsound₁ hthere
    exact (hsound₂.heap e).live_of_pinned (hp.opens ho)

def scopeOpen : World Unit :=
  World.after oneObject { host := () }
    [.newEngine {}, .attach ⟨0⟩, .operate ⟨0⟩ (.newFunction 0 ⟨⟨0⟩, none⟩), .operate ⟨0⟩ .pushScope]

lemma scopeOpen_reachable : scopeOpen.Reachable oneObject :=
  World.Reachable.after (.start ()) _ (by decide +kernel)

def objectMade : World Unit := (Environment.perform oneObject ⟨0⟩ .newObject scopeOpen).2

def callAndCollect : List Action :=
  [.operate ⟨0⟩ (.call none [] (.transient (.first 1)) 0), .operate ⟨0⟩ (.command 1)]

theorem lent_until_scope_closed_of_new_object :
    scopeOpen.Has ⟨0⟩ ∧
    (Environment.perform oneObject ⟨0⟩ .newObject scopeOpen).1.object? = some (.first 2) ∧
    ((objectMade.after oneObject callAndCollect).engine ⟨0⟩).heap.isAlive (.first 2) = true ∧
    ((objectMade.after oneObject callAndCollect).engine ⟨0⟩).heap.isAlive (.first 3) = false := by
  have hn : scopeOpen.Has ⟨0⟩ := by decide +kernel
  have he : (scopeOpen.environment ⟨0⟩).engine = ⟨0⟩ := by decide +kernel
  have hr : (perform oneObject ⟨0⟩ .newObject scopeOpen).1.object? = some (.first 2) := by
    decide +kernel
  have hd : oneObject.Disciplined := Host.scripted_disciplined (by simp [Environment.Operation.scopes]) 1
  obtain ⟨-, hkept, hlater⟩ :=
    lent_until_scope_closed hd scopeOpen scopeOpen_reachable ⟨0⟩ hn .newObject (.first 2) hr
  rw [he] at hkept hlater
  have hpinned := hkept.resolve_right (by simp [Environment.Operation.reads])
  have hsince : Since oneObject ⟨0⟩ objectMade 0 (objectMade.after oneObject callAndCollect) :=
    Since.start.after callAndCollect (by decide +kernel)
      (by simp [callAndCollect, Action.scopes, Environment.Operation.scopes])
  have hslots : ((objectMade.after oneObject callAndCollect).engine ⟨0⟩).heap.objects.slots.size = 4 := by
    cbv
  refine ⟨hn, hr, hlater hpinned 0 _ hsince ?_, by cbv⟩
  rw [Heap.Roomy, hslots]
  omega

def stored : World Unit :=
  World.after .inert { host := () }
    [.newEngine {}, .attach ⟨0⟩, .operate ⟨0⟩ .pushScope, .operate ⟨0⟩ .newObject,
      .operate ⟨0⟩ .pushScope, .operate ⟨0⟩ .newObject,
      .operate ⟨0⟩ (.setProperty (.transient (.first 1)) (.utf8 "k")
        (.object .plain (.transient (.first 2)))),
      .operate ⟨0⟩ .popScope]

def readOut : Environment.Answer × World Unit :=
  Environment.perform .inert ⟨0⟩ (.getProperty (.transient (.first 1)) (.utf8 "k") 0) stored

def overwritten : World Unit :=
  readOut.2.after .inert
    [.operate ⟨0⟩ (.setProperty (.transient (.first 1)) (.utf8 "k") .null), .operate ⟨0⟩ (.command 1)]

theorem read_object_collected_in_scope :
    stored.Reachable .inert ∧ (stored.engine ⟨0⟩).heap.pushed.length = 1 ∧
    readOut.1.object? = some (.first 2) ∧ Since .inert ⟨0⟩ readOut.2 0 overwritten ∧
    (overwritten.engine ⟨0⟩).heap.isAlive (.first 2) = false := by
  refine ⟨World.Reachable.after (.start ()) _ (by cbv), by cbv, by cbv, ?_, by cbv⟩
  exact Since.start.after _ (by decide +kernel)
    (by simp [Action.scopes, Environment.Operation.scopes])

end HostBoundary
