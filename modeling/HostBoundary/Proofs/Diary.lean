import HostBoundary.Proofs.ScopeAccounts

namespace HostBoundary

variable {value : Value} {h' heap : Heap} {d : ObjectRef} {e : EngineId} {n : EnvironmentId}

namespace Heap

-- Steps that leave the scopes alone lead from one heap to another, with the promises about to be
-- settled before and after.
structure Proceeds (h : Heap) (pledged : List ObjectRef) (h' : Heap) (pledged' : List ObjectRef) :
    Prop where
  level : h.Level h'
  chronicle : ∀ {limits pages events}, Chronicle limits pages events h pledged →
    ∃ more, Chronicle limits pages (events ++ more) h' pledged'

namespace Proceeds

variable {h h' h'' : Heap} {pledged pledged' pledged'' : List ObjectRef} {more : List Event}

lemma refl (h : Heap) (pledged : List ObjectRef) : Proceeds h pledged h pledged where
  level := .refl h
  chronicle hc := ⟨[], by simpa using hc⟩

lemma trans (hab : Proceeds h pledged h' pledged') (hbc : Proceeds h' pledged' h'' pledged'') :
    Proceeds h pledged h'' pledged'' where
  level := hab.level.trans hbc.level
  chronicle hc := by
    obtain ⟨first, hfirst⟩ := hab.chronicle hc
    obtain ⟨second, hsecond⟩ := hbc.chronicle hfirst
    exact ⟨first ++ second, by simpa using hsecond⟩

lemma of_step (hs : Step h pledged more h' pledged') (hlevel : h.Level h') :
    Proceeds h pledged h' pledged' where
  level := hlevel
  chronicle hc := ⟨more, hc.step hs⟩

lemma of_quietly (hl : h.Quietly h') (pledged : List ObjectRef) :
    Proceeds h pledged h' pledged := by
  induction hl with
  | refl => exact .refl h pledged
  | tail _ hstep ih =>
    obtain ⟨op, hq, rfl⟩ := hstep
    exact ih.trans (.of_step (.quiet op hq) hq.level)

end Proceeds

section Promises

variable {h : Heap} {pledged : List ObjectRef}

lemma proceeds_newResolver : Proceeds h pledged h.newResolver.2 pledged :=
  .of_step .newResolver h.level_newResolver

lemma proceeds_thenPromise (r : ObjectRef) (f g : Option ObjectRef) :
    Proceeds h pledged (h.thenPromise r f g).2 pledged := by
  cases hp : h.promise? r with
  | none =>
    rw [thenPromise, hp]
    exact .refl h pledged
  | some p => exact .of_step (.derive r p f g hp) (h.level_thenPromise r f g)

lemma proceeds_settle (d : ObjectRef) {state : PromiseState} (hstate : state ≠ .pending)
    (hplain : state = .fulfilled → h.Plain value) :
    Proceeds h (d :: pledged) (h.settle d state value) pledged :=
  .of_step (.settle d state value hstate hplain) (h.level_settle d state value)

lemma proceeds_rejected (d : ObjectRef) (value : Value) :
    Proceeds h (d :: pledged) (h.settle d .rejected value) pledged :=
  proceeds_settle d (by simp) (by simp)

lemma proceeds_fulfil (d : ObjectRef)
    (hvalue : ∀ x, value = .object x → h.Roomy → h.objects.Issued x) :
    Proceeds h (d :: pledged) (h.fulfil d value) pledged := by
  have hfulfilled : (∀ x, value = .object x → h.promise? x = none) →
      Proceeds h (d :: pledged) (h.settle d .fulfilled value) pledged := fun hnone =>
    proceeds_settle d (by simp) fun _ x hx => ⟨hnone x hx, hvalue x hx⟩
  unfold fulfil
  split
  · rename_i inner
    split
    · exact (Proceeds.of_quietly (h.moves_newError _ _).quietly _).trans (proceeds_rejected d _)
    · split
      · rename_i p hp
        exact .of_step (.adopt d inner p hp) (h.level_react inner p _)
      · rename_i hp
        exact hfulfilled fun x hx => Value.object.inj hx ▸ hp
  · rename_i hplain
    exact hfulfilled fun x hx => absurd hx (hplain x)

section Resolvers

variable {s : ObjectRef} {value : Value}

lemma resolve_of_some (hd : (h.lockResolver s).1 = some d) :
    h.resolve s value = (true, (h.lockResolver s).2.fulfil d value) := by
  rw [resolve]
  split <;> simp_all

lemma resolve_of_none (hn : (h.lockResolver s).1 = none) :
    h.resolve s value = (false, (h.lockResolver s).2) := by
  rw [resolve]
  split <;> simp_all

lemma reject_of_some (hd : (h.lockResolver s).1 = some d) :
    h.reject s value = (true, (h.lockResolver s).2.settle d .rejected value) := by
  rw [reject]
  split <;> simp_all

lemma reject_of_none (hn : (h.lockResolver s).1 = none) :
    h.reject s value = (false, (h.lockResolver s).2) := by
  rw [reject]
  split <;> simp_all

lemma proceeds_lock (hd : (h.lockResolver s).1 = some d) :
    Proceeds h pledged (h.lockResolver s).2 (d :: pledged) :=
  .of_step (.lock s d hd) (h.level_lockResolver s)

lemma proceeds_refuse (hn : (h.lockResolver s).1 = none) :
    Proceeds h pledged (h.lockResolver s).2 pledged :=
  .of_step (.refuse s hn) (h.level_lockResolver s)

lemma proceeds_fulfil_locked (hwf : h.Roomy → h.WellFormed) (s d : ObjectRef)
    (hvalue : h.LiveValue value) :
    Proceeds (h.lockResolver s).2 (d :: pledged) ((h.lockResolver s).2.fulfil d value) pledged := by
  refine proceeds_fulfil d fun x hx hroom => ?_
  have hl := (h.works_lockResolver s).leads
  have hbefore := hl.roomy hroom
  exact hl.issued (hwf hbefore) hroom ((hwf hbefore).issued_of_contains (hvalue x hx hbefore))

lemma proceeds_reject (s : ObjectRef) (value : Value) :
    Proceeds h pledged (h.reject s value).2 pledged := by
  cases hl : (h.lockResolver s).1 with
  | none =>
    rw [reject_of_none hl]
    exact proceeds_refuse hl
  | some d =>
    rw [reject_of_some hl]
    exact (proceeds_lock hl).trans (proceeds_rejected d value)

lemma proceeds_resolve (hwf : h.Roomy → h.WellFormed) (s : ObjectRef)
    (hvalue : h.LiveValue value) : Proceeds h pledged (h.resolve s value).2 pledged := by
  cases hl : (h.lockResolver s).1 with
  | none =>
    rw [resolve_of_none hl]
    exact proceeds_refuse hl
  | some d =>
    rw [resolve_of_some hl]
    exact (proceeds_lock hl).trans (proceeds_fulfil_locked hwf s d hvalue)

lemma lockResolver_of_refuses (hno : (h.resolve s value).1 = false ∨ (h.reject s value).1 = false) :
    (h.lockResolver s).1 = none := by
  cases hl : (h.lockResolver s).1 with
  | none => rfl
  | some d =>
    rw [resolve_of_some hl, reject_of_some hl] at hno
    exact absurd hno (by simp)

lemma Chronicle.spent {limits : HeapLimits} {pages : List Heap} {events : List Event}
    (hc : Chronicle limits pages events h pledged) (hvalue : h.LiveValue value)
    (hyes : h.resolve s value = (true, h') ∨ h.reject s value = (true, h')) (hroom : h'.Roomy) :
    (h'.lockResolver s).1 = none := by
  cases hl : (h.lockResolver s).1 with
  | none =>
    rw [resolve_of_none hl, reject_of_none hl] at hyes
    exact absurd hyes (by simp)
  | some d =>
    have hp : Proceeds (h.lockResolver s).2 (d :: pledged) h' pledged := by
      rw [resolve_of_some hl, reject_of_some hl] at hyes
      rcases hyes with heq | heq
      · exact (Prod.mk.inj heq).2 ▸ proceeds_fulfil_locked hc.wellFormed s d hvalue
      · exact (Prod.mk.inj heq).2 ▸ proceeds_rejected d value
    obtain ⟨more, hc'⟩ := hp.chronicle (hc.step (.lock s d hl))
    exact (hc'.settlers hroom).lockResolver (by simp)

end Resolvers

lemma proceeds_nextJob {job : Job} (hj : h.nextJob = some (job, h')) :
    Proceeds h pledged h' (job.reaction.derived :: pledged) :=
  .of_step (.start job hj) (nextJob_of_some hj).2.2

end Promises

end Heap

variable {σ : Type}

namespace World

-- A world as it looks to native code, which knows its own state anyway.
def seen (w : World σ) : World Unit := { w with host := () }

def heap? (w : World σ) (e : EngineId) : Option Heap :=
  if w.HasEngine e then some (w.engine e).heap else none

lemma heap?_eq_some {w : World σ} (he : w.HasEngine e) :
    w.heap? e = some (w.engine e).heap := if_pos he

def pages (diary : List (World Unit)) (e : EngineId) : List Heap := diary.filterMap (·.heap? e)

-- What holds at any time, whoever is at work: every heap has a chronicle that goes through the
-- pages of the diary that native code may keep.
structure Lawful (diary : σ → List (World Unit)) (pledges : EngineId → List ObjectRef)
    (w : World σ) : Prop where
  accounted : w.Accounted
  history : ∀ e, w.HasEngine e → ∃ limits events,
    Heap.Chronicle limits (pages (diary w.host) e) events (w.engine e).heap (pledges e)
  noted : ∀ page ∈ diary w.host, page.Accounted ∧ page.engines.size ≤ w.engines.size
  vacant : ∀ e, ¬ w.HasEngine e → pledges e = []

-- What stays whatever is done: engines and environments, and how many native calls are under way.
structure Retains (w w' : World σ) : Prop where
  engines : w.engines.size ≤ w'.engines.size
  environments : w.environments.size ≤ w'.environments.size
  engine : ∀ n, w.Has n → (w'.environment n).engine = (w.environment n).engine
  running : ∀ n, w.Has n → (w'.environment n).running = (w.environment n).running

namespace Retains

variable {w w' w'' : World σ}

lemma has (hr : w.Retains w') (hn : w.Has n) : w'.Has n :=
  Nat.lt_of_lt_of_le hn hr.environments

lemma hasEngine (hr : w.Retains w') (he : w.HasEngine e) : w'.HasEngine e :=
  Nat.lt_of_lt_of_le he hr.engines

lemma of_eq (hengines : w'.engines.size = w.engines.size)
    (henvironments : w'.environments = w.environments) : w.Retains w' := by
  have henv : ∀ n, w'.environment n = w.environment n := fun n =>
    congrArg (·.getD n.index default) henvironments
  exact ⟨hengines.ge, (congrArg Array.size henvironments).ge, fun n _ => congrArg _ (henv n),
    fun n _ => congrArg _ (henv n)⟩

lemma refl (w : World σ) : w.Retains w := .of_eq rfl rfl

lemma trans (hab : w.Retains w') (hbc : w'.Retains w'') : w.Retains w'' where
  engines := Nat.le_trans hab.engines hbc.engines
  environments := Nat.le_trans hab.environments hbc.environments
  engine n hn := (hbc.engine n (hab.has hn)).trans (hab.engine n hn)
  running n hn := (hbc.running n (hab.has hn)).trans (hab.running n hn)

lemma modifyEngine (w : World σ) (e : EngineId) (f : Engine → Engine) :
    w.Retains (w.modifyEngine e f) :=
  .of_eq (by simp [World.modifyEngine]) rfl

lemma modifyEnvironment (w : World σ) (n : EnvironmentId) (f : Environment → Environment)
    (hengine : (f (w.environment n)).engine = (w.environment n).engine)
    (hrunning : (f (w.environment n)).running = (w.environment n).running) :
    w.Retains (w.modifyEnvironment n f) := by
  refine ⟨Nat.le_refl _, by simp [World.modifyEnvironment], fun m _ => ?_, fun m _ => ?_⟩
  · exact environment_modifyEnvironment_congr (·.engine) hengine m
  · exact environment_modifyEnvironment_congr (·.running) hrunning m

lemma addEngine (w : World σ) (engine : Engine) : w.Retains (w.addEngine engine).2 :=
  ⟨by simp [World.addEngine], Nat.le_refl _, fun _ _ => rfl, fun _ _ => rfl⟩

lemma seated (w : World σ) (e : EngineId) : w.Retains (w.seated e) where
  engines := (Opens.seated w e).engines
  environments := (Opens.seated w e).environments
  engine _ hn := congrArg _ (w.environment_seated_of_has e hn)
  running _ hn := congrArg _ (w.environment_seated_of_has e hn)

end Retains

namespace Lawful

variable {diary : σ → List (World Unit)} {pledges : EngineId → List ObjectRef} {w : World σ}

lemma empty {s : σ} (hs : diary s = []) : Lawful diary (fun _ => []) ({ host := s } : World σ) where
  accounted := accounted_empty s
  history e he := absurd he (by simp [HasEngine])
  noted page hpage := by simp [hs] at hpage
  vacant _ _ := rfl

variable (hw : w.Lawful diary pledges)

include hw

lemma wellFormed (he : w.HasEngine e) (hroom : (w.engine e).heap.Roomy) :
    (w.engine e).heap.WellFormed := by
  obtain ⟨limits, events, hc⟩ := hw.history e he
  exact hc.wellFormed hroom

lemma of_eq {w' : World σ} (hengines : w'.engines = w.engines)
    (henvironments : w'.environments = w.environments) (hhost : w'.host = w.host) :
    w'.Lawful diary pledges := by
  have hengine : ∀ e, w'.engine e = w.engine e := fun e =>
    congrArg (·.getD e.index default) hengines
  refine ⟨hw.accounted.of_eq hengines henvironments, fun e he => ?_, ?_, fun e he => ?_⟩
  · rw [hhost, hengine]
    exact hw.history e (by rwa [HasEngine, hengines] at he)
  · rw [hhost, hengines]
    exact hw.noted
  · exact hw.vacant e (by rwa [HasEngine, hengines] at he)

lemma think {s : σ} (hs : diary s = diary w.host ∨ diary s = diary w.host ++ [w.seen]) :
    ({ w with host := s } : World σ).Lawful diary pledges := by
  have haccounted : ({ w with host := s } : World σ).Accounted := hw.accounted.of_eq rfl rfl
  rcases hs with hs | hs
  · refine ⟨haccounted, fun e he => ?_, ?_, hw.vacant⟩
    · dsimp only
      rw [hs]
      exact hw.history e he
    · dsimp only
      rw [hs]
      exact hw.noted
  · refine ⟨haccounted, fun e he => ?_, fun page hpage => ?_, hw.vacant⟩
    · obtain ⟨limits, events, hc⟩ := hw.history e he
      have hpages : pages (diary s) e = pages (diary w.host) e ++ [(w.engine e).heap] := by
        have hlast : w.seen.heap? e = some (w.engine e).heap := heap?_eq_some he
        simp [pages, hs, List.filterMap_append, hlast]
      refine ⟨limits, events, ?_⟩
      dsimp only
      rw [hpages]
      exact hc.note
    · rcases List.mem_append.mp (hs ▸ hpage) with hold | hnew
      · exact hw.noted page hold
      · rw [List.mem_singleton.mp hnew]
        exact ⟨hw.accounted.of_eq rfl rfl, Nat.le_refl _⟩

lemma modifyEnvironment (n : EnvironmentId) (f : Environment → Environment)
    (hengine : (f (w.environment n)).engine = (w.environment n).engine)
    (hlevel : (f (w.environment n)).level = (w.environment n).level) :
    (w.modifyEnvironment n f).Lawful diary pledges where
  accounted := hw.accounted.modifyEnvironment n f hengine hlevel
  history := hw.history
  noted := hw.noted
  vacant := hw.vacant

lemma modifyEngine (e : EngineId) (f : Engine → Engine)
    (hd : (f (w.engine e)).dispatcher = (w.engine e).dispatcher) {pledged : List ObjectRef}
    (hp : (w.engine e).heap.Proceeds (pledges e) (f (w.engine e)).heap pledged)
    (hmissing : ¬ w.HasEngine e → pledged = []) :
    (w.modifyEngine e f).Lawful diary (Function.update pledges e pledged) where
  accounted := hw.accounted.modifyEngine e f hp.level hd
  history d hthere := by
    rw [hasEngine_modifyEngine] at hthere
    rw [engine_modifyEngine]
    by_cases hde : d = e
    · subst hde
      obtain ⟨limits, events, hc⟩ := hw.history d hthere
      obtain ⟨more, hc'⟩ := hp.chronicle hc
      rw [if_pos ⟨rfl, hthere⟩, Function.update_self]
      exact ⟨limits, events ++ more, hc'⟩
    · rw [if_neg fun hand => hde hand.1, Function.update_of_ne hde]
      exact hw.history d hthere
  vacant d hnot := by
    rw [hasEngine_modifyEngine] at hnot
    by_cases hde : d = e
    · subst hde
      rw [Function.update_self]
      exact hmissing hnot
    · rw [Function.update_of_ne hde]
      exact hw.vacant d hnot
  noted page hpage := by
    obtain ⟨haccounted, hsize⟩ := hw.noted page hpage
    exact ⟨haccounted, by simpa [World.modifyEngine] using hsize⟩

-- An environment has to do with one more scope or one fewer, and so has the heap of its engine.
lemma exchange (hn : w.Has n) (f : Environment → Environment)
    (hengine : (f (w.environment n)).engine = (w.environment n).engine)
    (hmove : ∀ rest, (w.engine (w.environment n).engine).heap.Accounts
        (rest + (w.environment n).level) → heap.Accounts (rest + (f (w.environment n)).level))
    (hsteps : ∀ {limits pages events}, Heap.Chronicle limits pages events
        (w.engine (w.environment n).engine).heap (pledges (w.environment n).engine) →
      ∃ more, Heap.Chronicle limits pages (events ++ more) heap
        (pledges (w.environment n).engine)) :
    ((w.setHeap (w.environment n).engine heap).modifyEnvironment n f).Lawful diary
      pledges where
  accounted := hw.accounted.exchange hn f hengine hmove
  history d hd := by
    have hd' := (hasEngine_modifyEngine w _ d _).mp hd
    obtain ⟨limits, events, hc⟩ := hw.history d hd'
    rw [engine_modifyEnvironment, engine_modifyEngine]
    split
    · rename_i hand
      rw [hand.1] at hc ⊢
      obtain ⟨more, hc'⟩ := hsteps hc
      exact ⟨limits, events ++ more, hc'⟩
    · exact ⟨limits, events, hc⟩
  noted page hpage := by
    obtain ⟨haccounted, hsize⟩ := hw.noted page hpage
    exact ⟨haccounted, by simpa [World.modifyEngine, World.modifyEnvironment] using hsize⟩
  vacant d hnot := hw.vacant d fun hd => hnot ((hasEngine_modifyEngine w _ d _).mpr hd)

lemma push (hn : w.Has n) (f : Environment → Environment)
    (hengine : (f (w.environment n)).engine = (w.environment n).engine)
    (hlevel : (f (w.environment n)).level = (w.environment n).level + 1) :
    ((w.setHeap (w.environment n).engine
      (w.engine (w.environment n).engine).heap.pushScope).modifyEnvironment n
        f).Lawful diary pledges := by
  refine hw.exchange hn f hengine (fun rest ha => ?_) fun hc => ⟨_, hc.step .openScope⟩
  rw [hlevel]
  exact ha.push

lemma pop (hn : w.Has n) (f : Environment → Environment)
    (hengine : (f (w.environment n)).engine = (w.environment n).engine)
    (hlevel : (w.environment n).level = (f (w.environment n)).level + 1)
    (hl : (w.engine (w.environment n).engine).heap.popScope.2.Quietly heap) :
    ((w.modifyEnvironment n f).setHeap (w.environment n).engine heap).Lawful diary
      pledges := by
  have hopen : 0 < (w.engine (w.environment n).engine).heap.overflow ∨
      (w.engine (w.environment n).engine).heap.pushed ≠ [] := by
    have htotal := hw.accounted.scopes _ (hw.accounted.engine n hn)
    obtain ⟨rest, hrest⟩ := Nat.exists_eq_add_of_le' (w.level_le_opened hn)
    rw [hrest, hlevel] at htotal
    exact htotal.closable
  refine hw.exchange hn f hengine (fun rest ha => ?_) fun hc => ?_
  · rw [hlevel] at ha
    exact ha.pop.level hl.level
  · obtain ⟨more, hc'⟩ := (Heap.Proceeds.of_quietly hl _).chronicle (hc.step (.closeScope hopen))
    exact ⟨_, List.append_assoc _ _ more ▸ hc'⟩

lemma addEngine (limits : HeapLimits) (held : Bool) :
    (w.addEngine { heap := .fresh limits, held }).2.Lawful diary pledges where
  accounted := hw.accounted.addEngine limits held
  history := by
    refine forall_addEngine (P := fun e engine => ∃ limits events,
      Heap.Chronicle limits (pages (diary w.host) e) events engine.heap (pledges e)) hw.history ?_
    intro e hnone
    have hpages : pages (diary w.host) e = [] := by
      refine List.filterMap_eq_nil_iff.mpr fun page hpage => if_neg fun hthere => hnone ?_
      exact Nat.lt_of_lt_of_le hthere (hw.noted page hpage).2
    refine ⟨limits, [], ?_⟩
    rw [hw.vacant e hnone, hpages]
    exact .fresh
  noted page hpage := by
    obtain ⟨haccounted, hsize⟩ := hw.noted page hpage
    exact ⟨haccounted, hsize.trans (Retains.addEngine w _).engines⟩
  vacant e he := hw.vacant e fun hthere => he ((hasEngine_addEngine _ e).mpr (.inl hthere))

lemma seated (he : w.HasEngine e) : (w.seated e).Lawful diary pledges where
  accounted := hw.accounted.seated he
  history d hd := by
    rw [heap_seated]
    exact hw.history d ((hasEngine_seated w e d).mp hd)
  noted page hpage := by
    obtain ⟨haccounted, hsize⟩ := hw.noted page hpage
    exact ⟨haccounted, hsize.trans (Retains.seated w e).engines⟩
  vacant d hnot := hw.vacant d fun hd => hnot ((hasEngine_seated w e d).mpr hd)

end Lawful

end World

end HostBoundary
