import HostBoundary.Proofs.Invocation
import HostBoundary.Proofs.SafeRuns

namespace HostBoundary

variable {σ α β : Type} {h : Heap} {w w' : World σ} {n : EnvironmentId}
  {f : Environment → Environment} {e : EngineId} {v : View} {act : Act σ α} {next : α → Act σ β}

namespace Heap

lemma sound_pushScope (hs : h.Sound) : h.pushScope.Sound where
  intact hroom := (hs.intact (by simpa [Roomy] using hroom)).pushScope
  saturated := h.saturated_pushScope hs.saturated

lemma sound_popScope (hs : h.Sound) : h.popScope.2.Sound where
  intact hroom := (hs.intact (by simpa [Roomy] using hroom)).popScope
  saturated := h.saturated_popScope hs.saturated

lemma sound_collect (hs : h.Sound) : h.collect.2.Sound where
  intact hroom := (hs.intact (Nat.lt_of_le_of_lt (apply_objects h .collect).size hroom)).collect
  saturated := by
    rw [collect_eq]
    exact hs.saturated

lemma opens_collect (h : Heap) : Opens 0 h h.collect.2 := by
  have hsize := (apply_objects h .collect).size
  simp only [apply, Prod.map, id] at hsize
  rw [collect_eq] at hsize ⊢
  exact .of_eq hsize rfl rfl rfl rfl

lemma sound_empty (limits : HeapLimits) : ({ limits } : Heap).Sound where
  intact _ :=
    { wellFormed := Arena.wellFormed_empty
      object := by simp [object?, Arena.get?]
      global := by simp
      rooted := by simp [rooted_iff]
      persistent := by simp [TargetsLive, Arena.entries]
      template := by simp [Arena.entries]
      job := by simp }
  saturated := by simp [Saturated]

end Heap

namespace World

def Has (w : World σ) (n : EnvironmentId) : Prop := n.index < w.environments.size

def HasEngine (w : World σ) (e : EngineId) : Prop := e.index < w.engines.size

abbrev heapOf (w : World σ) (n : EnvironmentId) : Heap := (w.engine (w.environment n).engine).heap

instance (w : World σ) (n : EnvironmentId) : Decidable (w.Has n) :=
  inferInstanceAs (Decidable (n.index < w.environments.size))

instance (w : World σ) (e : EngineId) : Decidable (w.HasEngine e) :=
  inferInstanceAs (Decidable (e.index < w.engines.size))

-- All heaps are sound, each engine has its global object, and the ids that engines and
-- environments have of each other are good.
structure Sound (w : World σ) : Prop where
  heap : ∀ e, (w.engine e).heap.Sound
  global : ∀ e, w.HasEngine e → (w.engine e).heap.global.isSome = true
  engine : ∀ n, w.Has n → w.HasEngine (w.environment n).engine
  dispatcher : ∀ e n, (w.engine e).dispatcher = some n → w.Has n ∧ (w.environment n).engine = e

-- What a stretch of native code leaves behind: how many pushes are open on each engine, and
-- how many of them each environment knows of.
structure Opens (pushes : EngineId → Nat) (depth : EnvironmentId → Nat) (w w' : World σ) : Prop where
  engines : w.engines.size ≤ w'.engines.size
  environments : w.environments.size ≤ w'.environments.size
  engine : ∀ n, w.Has n → (w'.environment n).engine = (w.environment n).engine
  depth : ∀ n, (w'.environment n).scopeDepth = (w.environment n).scopeDepth + depth n
  heap : ∀ e, w.HasEngine e → Heap.Opens (pushes e) (w.engine e).heap (w'.engine e).heap

abbrev Carries (w w' : World σ) : Prop := Opens (fun _ => 0) (fun _ => 0) w w'

lemma engine_modifyEngine (w : World σ) (e d : EngineId) (f : Engine → Engine) :
    (w.modifyEngine e f).engine d =
      if d = e ∧ w.HasEngine e then f (w.engine e) else w.engine d := by
  simp only [engine, modifyEngine, HasEngine, Array.getD_eq_getD_getElem?, Array.getElem?_modify]
  by_cases hd : d = e
  · subst hd
    by_cases hlt : d.index < w.engines.size <;> simp [hlt]
  · have hne : ¬ e.index = d.index := fun heq => hd (by cases d; cases e; simp_all)
    simp [hd, hne]

lemma heap_modifyEngine (he : w.HasEngine e) (h : Heap) :
    ((w.setHeap e h).engine e).heap = h := by
  rw [engine_modifyEngine, if_pos ⟨rfl, he⟩]

lemma environment_modifyEnvironment (w : World σ) (n m : EnvironmentId)
    (f : Environment → Environment) :
    (w.modifyEnvironment n f).environment m =
      if m = n ∧ w.Has n then f (w.environment n) else w.environment m := by
  simp only [environment, modifyEnvironment, Has, Array.getD_eq_getD_getElem?, Array.getElem?_modify]
  by_cases hm : m = n
  · subst hm
    by_cases hlt : m.index < w.environments.size <;> simp [hlt]
  · have hne : ¬ n.index = m.index := fun heq => hm (by cases m; cases n; simp_all)
    simp [hm, hne]

-- What a change of one environment leaves alone there, it leaves alone everywhere.
lemma environment_modifyEnvironment_congr (g : Environment → β)
    (hg : g (f (w.environment n)) = g (w.environment n)) (m : EnvironmentId) :
    g ((w.modifyEnvironment n f).environment m) = g (w.environment m) := by
  rw [environment_modifyEnvironment]
  split
  · rename_i hand
    rw [hand.1, hg]
  · rfl

lemma engine_modifyEngine_congr (g : Engine → β) {f : Engine → Engine}
    (hg : g (f (w.engine e)) = g (w.engine e)) (d : EngineId) :
    g ((w.modifyEngine e f).engine d) = g (w.engine d) := by
  rw [engine_modifyEngine]
  split
  · rename_i hand
    rw [hand.1, hg]
  · rfl

@[simp] lemma has_modifyEngine (w : World σ) (e : EngineId) (f : Engine → Engine)
    (n : EnvironmentId) : (w.modifyEngine e f).Has n ↔ w.Has n := Iff.rfl

@[simp] lemma environment_modifyEngine (w : World σ) (e : EngineId) (f : Engine → Engine)
    (n : EnvironmentId) : (w.modifyEngine e f).environment n = w.environment n := rfl

@[simp] lemma engine_modifyEnvironment (w : World σ) (n : EnvironmentId)
    (f : Environment → Environment) (e : EngineId) :
    (w.modifyEnvironment n f).engine e = w.engine e := rfl

@[simp] lemma has_modifyEnvironment (w : World σ) (n m : EnvironmentId)
    (f : Environment → Environment) : (w.modifyEnvironment n f).Has m ↔ w.Has m := by
  simp [Has, modifyEnvironment]

@[simp] lemma hasEngine_modifyEngine (w : World σ) (e d : EngineId) (f : Engine → Engine) :
    (w.modifyEngine e f).HasEngine d ↔ w.HasEngine d := by
  simp [HasEngine, modifyEngine]

@[simp] lemma hasEngine_modifyEnvironment (w : World σ) (n : EnvironmentId)
    (f : Environment → Environment) (e : EngineId) :
    (w.modifyEnvironment n f).HasEngine e ↔ w.HasEngine e := Iff.rfl

lemma engine_addEngine (w : World σ) (engine : Engine) (d : EngineId) :
    (w.addEngine engine).2.engine d = if d.index = w.engines.size then engine else w.engine d := by
  simp only [World.engine, addEngine, Array.getD_eq_getD_getElem?, Array.getElem?_push]
  split <;> rfl

lemma hasEngine_addEngine (engine : Engine) (d : EngineId) :
    (w.addEngine engine).2.HasEngine d ↔ w.HasEngine d ∨ d.index = w.engines.size := by
  simp only [HasEngine, addEngine, Array.size_push]
  omega

-- What holds of all engines still does when one of them is changed in such a way that it does.
lemma forall_modifyEngine {P : EngineId → Engine → Prop} {f : Engine → Engine}
    (hP : ∀ d, w.HasEngine d → P d (w.engine d)) (hf : P e (w.engine e) → P e (f (w.engine e)))
    (d : EngineId) (hd : (w.modifyEngine e f).HasEngine d) : P d ((w.modifyEngine e f).engine d) := by
  rw [hasEngine_modifyEngine] at hd
  rw [engine_modifyEngine]
  split
  · rename_i hand
    obtain ⟨rfl, -⟩ := hand
    exact hf (hP d hd)
  · exact hP d hd

lemma forall_addEngine {P : EngineId → Engine → Prop} {engine : Engine}
    (hP : ∀ d, w.HasEngine d → P d (w.engine d)) (hnew : ∀ d, ¬ w.HasEngine d → P d engine)
    (d : EngineId) (hd : (w.addEngine engine).2.HasEngine d) :
    P d ((w.addEngine engine).2.engine d) := by
  rw [engine_addEngine]
  split
  · rename_i heq
    exact hnew d (Nat.not_lt.mpr (Nat.le_of_eq heq.symm))
  · rename_i hne
    exact hP d (((hasEngine_addEngine _ d).mp hd).resolve_right hne)

-- Native calls of an engine go to an environment of its own.
def Staffed (w : World σ) : Prop :=
  ∀ e n, (w.engine e).dispatcher = some n → w.Has n ∧ (w.environment n).engine = e

namespace Staffed

variable {w : World σ} (hw : w.Staffed)

include hw

lemma of_eq {τ : Type} {w' : World τ} (hengines : w'.engines = w.engines)
    (henvironments : w'.environments = w.environments) : w'.Staffed := by
  intro d m hd
  have hengine : w'.engine d = w.engine d := congrArg (·.getD d.index default) hengines
  have henv : w'.environment m = w.environment m := congrArg (·.getD m.index default) henvironments
  rw [hengine] at hd
  rw [Has, henvironments, henv]
  exact hw d m hd

lemma modifyEngine (e : EngineId) (f : Engine → Engine)
    (hf : (f (w.engine e)).dispatcher = (w.engine e).dispatcher) : (w.modifyEngine e f).Staffed := by
  intro d m hd
  rw [engine_modifyEngine_congr (·.dispatcher) hf] at hd
  exact hw d m hd

lemma modifyEnvironment (n : EnvironmentId) (f : Environment → Environment)
    (hf : (f (w.environment n)).engine = (w.environment n).engine) :
    (w.modifyEnvironment n f).Staffed := by
  intro d m hd
  rw [has_modifyEnvironment, environment_modifyEnvironment_congr (·.engine) hf]
  exact hw d m hd

lemma addEngine (engine : Engine) (hnone : engine.dispatcher = none) :
    (w.addEngine engine).2.Staffed := by
  intro d m hd
  rw [engine_addEngine] at hd
  split at hd
  · exact absurd (hnone.symm.trans hd) (by simp)
  · exact hw d m hd

end Staffed

-- The ids that engines and environments have of each other are good.
structure Wired (w : World σ) : Prop where
  engine : ∀ n, w.Has n → w.HasEngine (w.environment n).engine
  dispatcher : ∀ e n, (w.engine e).dispatcher = some n → w.Has n ∧ (w.environment n).engine = e

namespace Wired

variable {w : World σ} (hw : w.Wired)

include hw

lemma of_eq {τ : Type} {w' : World τ} (hengines : w'.engines = w.engines)
    (henvironments : w'.environments = w.environments) : w'.Wired where
  engine n := by
    have hengine := hw.engine n
    simpa only [Has, HasEngine, environment, hengines, henvironments] using hengine
  dispatcher := Staffed.of_eq hw.dispatcher hengines henvironments

lemma modifyEngine (e : EngineId) (f : Engine → Engine)
    (hf : (f (w.engine e)).dispatcher = (w.engine e).dispatcher) : (w.modifyEngine e f).Wired where
  engine n hn := (hasEngine_modifyEngine w e _ f).mpr (hw.engine n hn)
  dispatcher := Staffed.modifyEngine hw.dispatcher e f hf

lemma modifyEnvironment (n : EnvironmentId) (f : Environment → Environment)
    (hf : (f (w.environment n)).engine = (w.environment n).engine) :
    (w.modifyEnvironment n f).Wired where
  engine m hm := by
    rw [environment_modifyEnvironment_congr (·.engine) hf]
    exact hw.engine m ((has_modifyEnvironment w n m f).mp hm)
  dispatcher := Staffed.modifyEnvironment hw.dispatcher n f hf

lemma addEngine (engine : Engine) (hnone : engine.dispatcher = none) :
    (w.addEngine engine).2.Wired where
  engine n hn := (hasEngine_addEngine _ _).mpr (.inl (hw.engine n hn))
  dispatcher := Staffed.addEngine hw.dispatcher engine hnone

end Wired

lemma Evolves.has (h : w.Evolves w') (hn : w.Has n) : w'.Has n := by
  obtain ⟨env, henv, -⟩ := h.environments n.index _ (Array.getElem?_eq_getElem hn)
  exact (Array.getElem?_eq_some_iff.mp henv).1

lemma Evolves.hasEngine (h : w.Evolves w') (he : w.HasEngine e) : w'.HasEngine e := by
  obtain ⟨engine, hengine, -⟩ := h.engines e.index _ (Array.getElem?_eq_getElem he)
  exact (Array.getElem?_eq_some_iff.mp hengine).1

lemma Evolves.engine (h : w.Evolves w') (hn : w.Has n) :
    (w'.environment n).engine = (w.environment n).engine := by
  have hsome := Array.getElem?_eq_getElem hn
  obtain ⟨env, henv, hengine, -⟩ := h.environments n.index _ hsome
  rw [environment_of_getElem? n _ hsome, environment_of_getElem? n env henv, hengine]

lemma Evolves.leads (h : w.Evolves w') (he : w.HasEngine e) :
    (w.engine e).heap.Leads (w'.engine e).heap := by
  have hsome := Array.getElem?_eq_getElem he
  obtain ⟨engine, hengine, hl⟩ := h.engines e.index _ hsome
  rw [engine_of_getElem? e _ hsome, engine_of_getElem? e engine hengine]
  exact hl

namespace Opens

variable {w w' w'' : World σ} {p p' : EngineId → Nat} {d d' : EnvironmentId → Nat}

lemma has (ho : Opens p d w w') (hn : w.Has n) : w'.Has n :=
  Nat.lt_of_lt_of_le hn ho.environments

lemma hasEngine (ho : Opens p d w w') (he : w.HasEngine e) : w'.HasEngine e :=
  Nat.lt_of_lt_of_le he ho.engines

lemma trans (hab : Opens p d w w') (hbc : Opens p' d' w' w'') :
    Opens (fun e => p e + p' e) (fun n => d n + d' n) w w'' where
  engines := Nat.le_trans hab.engines hbc.engines
  environments := Nat.le_trans hab.environments hbc.environments
  engine n hn := (hbc.engine n (hab.has hn)).trans (hab.engine n hn)
  depth n := by rw [hbc.depth, hab.depth, Nat.add_assoc]
  heap e he := (hab.heap e he).trans (hbc.heap e (hab.hasEngine he))

lemma refl (w : World σ) : w.Carries w where
  engines := Nat.le_refl _
  environments := Nat.le_refl _
  engine _ _ := rfl
  depth _ := rfl
  heap _ _ := .refl _

lemma of_eq (he : w'.engines = w.engines) (hn : w'.environments = w.environments) :
    w.Carries w' where
  engines := by rw [he]
  environments := by rw [hn]
  engine n _ := by simp only [environment, hn]
  depth n := by simp only [environment, hn, Nat.add_zero]
  heap e _ := by
    simp only [World.engine, he]
    exact .refl _

lemma modifyEngine (w : World σ) (e : EngineId) (f : Engine → Engine) (k : Nat)
    (hf : Heap.Opens k (w.engine e).heap (f (w.engine e)).heap) :
    Opens (fun x => if x = e then k else 0) (fun _ => 0) w (w.modifyEngine e f) where
  engines := by simp [World.modifyEngine]
  environments := Nat.le_refl _
  engine _ _ := rfl
  depth _ := rfl
  heap x hx := by
    rw [engine_modifyEngine]
    by_cases hxe : x = e
    · subst hxe
      rw [if_pos rfl, if_pos ⟨rfl, hx⟩]
      exact hf
    · rw [if_neg hxe, if_neg fun hand => hxe hand.1]
      exact .refl _

lemma modifyHeap (w : World σ) (e : EngineId) (f : Engine → Engine)
    (hf : Heap.Opens 0 (w.engine e).heap (f (w.engine e)).heap) :
    w.Carries (w.modifyEngine e f) := by
  have ho := modifyEngine w e f 0 hf
  simpa only [ite_self] using ho

lemma modifyEnvironment (w : World σ) (n : EnvironmentId) (f : Environment → Environment) (k : Nat)
    (hengine : (f (w.environment n)).engine = (w.environment n).engine)
    (hdepth : (f (w.environment n)).scopeDepth = (w.environment n).scopeDepth + k)
    (hn : k = 0 ∨ w.Has n) :
    Opens (fun _ => 0) (fun m => if m = n then k else 0) w (w.modifyEnvironment n f) where
  engines := Nat.le_refl _
  environments := by simp [World.modifyEnvironment]
  engine m _ := environment_modifyEnvironment_congr (·.engine) hengine m
  depth m := by
    rw [environment_modifyEnvironment]
    by_cases hm : m = n
    · subst hm
      rw [if_pos rfl]
      split
      · exact hdepth
      · rename_i hnot
        rcases hn with rfl | hhas
        · rfl
        · exact absurd ⟨rfl, hhas⟩ hnot
    · rw [if_neg hm, if_neg fun hand => hm hand.1, Nat.add_zero]
  heap _ _ := .refl _

lemma popScope (ho : Opens p d w w') (e : EngineId) (f : Engine → Engine)
    (hp : ∀ x, p x = p' x + if x = e then 1 else 0)
    (hf : Heap.Opens 0 (w'.engine e).heap.popScope.2 (f (w'.engine e)).heap) :
    Opens p' d w (w'.modifyEngine e f) where
  engines := by
    simp only [World.modifyEngine, Array.size_modify]
    exact ho.engines
  environments := ho.environments
  engine := ho.engine
  depth := ho.depth
  heap x hx := by
    have hheap := ho.heap x hx
    rw [hp] at hheap
    rw [engine_modifyEngine]
    by_cases hxe : x = e
    · subst hxe
      rw [if_pos ⟨rfl, ho.hasEngine hx⟩]
      rw [if_pos rfl] at hheap
      exact hheap.popScope.trans hf
    · rw [if_neg fun hand => hxe hand.1]
      rwa [if_neg hxe] at hheap

end Opens

namespace Sound

variable {w w' : World σ}

lemma wired (hs : w.Sound) : w.Wired := ⟨hs.engine, hs.dispatcher⟩

lemma of_eq (hs : w.Sound) (he : w'.engines = w.engines) (hn : w'.environments = w.environments) :
    w'.Sound where
  heap e := by
    have hheap := hs.heap e
    simpa only [World.engine, he] using hheap
  global e := by
    have hglobal := hs.global e
    simpa only [World.engine, HasEngine, he] using hglobal
  __ := hs.wired.of_eq he hn

lemma modifyEngine (hs : w.Sound) (e : EngineId) (f : Engine → Engine)
    (hheap : (f (w.engine e)).heap.Sound)
    (hglobal : (f (w.engine e)).heap.global = (w.engine e).heap.global)
    (hd : (f (w.engine e)).dispatcher = (w.engine e).dispatcher) : (w.modifyEngine e f).Sound where
  heap x := by
    rw [engine_modifyEngine]
    split
    · exact hheap
    · exact hs.heap x
  global x hx := by
    rw [engine_modifyEngine_congr (·.heap.global) hglobal]
    exact hs.global x ((hasEngine_modifyEngine w e x f).mp hx)
  __ := hs.wired.modifyEngine e f hd

lemma modifyEnvironment (hs : w.Sound) (n : EnvironmentId) (f : Environment → Environment)
    (hf : (f (w.environment n)).engine = (w.environment n).engine) :
    (w.modifyEnvironment n f).Sound where
  heap := hs.heap
  global := hs.global
  __ := hs.wired.modifyEnvironment n f hf

end Sound

end World

-- Whose heap is looked at: that of an engine, or that of the engine of an environment.
inductive View where
  | engine (e : EngineId)
  | environment (n : EnvironmentId) (e : EngineId)

namespace View

def target : View → EngineId
  | .engine e => e
  | .environment _ e => e

def In (w : World σ) : View → Prop
  | .engine e => w.HasEngine e
  | .environment n e => w.HasEngine e ∧ w.Has n ∧ (w.environment n).engine = e

lemma In.hasEngine (h : v.In w) : w.HasEngine v.target := by
  cases v with
  | engine e => exact h
  | environment n e => exact h.1

lemma In.carried (h : v.In w) (hc : w.Carries w') : v.In w' := by
  cases v with
  | engine e => exact hc.hasEngine h
  | environment n e => exact ⟨hc.hasEngine h.1, hc.has h.2.1, (hc.engine n h.2.1).trans h.2.2⟩

end View

namespace Act

-- Takes a sound world to a sound world, and closes every scope that it opens.
def Orderly (act : Act σ α) : Prop :=
  ∀ w : World σ, w.Sound → w.Carries (act w).2 ∧ (act w).2.Sound

-- The same for what asks something of the heap before and tells something of the result and
-- the heap after.
def Meets (v : View) (pre : Heap → Prop) (act : Act σ α) (post : α → Heap → Prop) : Prop :=
  ∀ w : World σ, w.Sound → v.In w → pre (w.engine v.target).heap →
    w.Carries (act w).2 ∧ (act w).2.Sound ∧ post (act w).1 ((act w).2.engine v.target).heap

abbrev any : Heap → Prop := fun _ => True

abbrev Runs (n : EnvironmentId) (e : EngineId) (pre : Heap → Prop) (act : Act σ α) : Prop :=
  Meets (.environment n e) pre act fun _ _ => True

namespace Orderly

lemma pure (x : α) : Orderly (Pure.pure x : Act σ α) := fun w hw => ⟨.refl w, hw⟩

lemma bind (h : Orderly act) (hnext : ∀ x, Orderly (next x)) : Orderly (act >>= next) := by
  intro w hw
  obtain ⟨hc, hs⟩ := h w hw
  obtain ⟨hc', hs'⟩ := hnext _ _ hs
  exact ⟨hc.trans hc', hs'⟩

lemma returning (h : Orderly act) (f : α → β) : Orderly (act >>= fun x => Pure.pure (f x)) := h

lemma get : Orderly (MonadState.get : Act σ (World σ)) := fun w hw => ⟨.refl w, hw⟩

lemma environment (n : EnvironmentId) : Orderly (Act.environment n : Act σ Environment) :=
  fun w hw => ⟨.refl w, hw⟩

lemma updateEnvironment (n : EnvironmentId) (hengine : ∀ env, (f env).engine = env.engine)
    (hdepth : ∀ env, (f env).scopeDepth = env.scopeDepth) :
    Orderly (Act.updateEnvironment n f : Act σ Unit) := by
  intro w hw
  have ho := World.Opens.modifyEnvironment w n f 0 (hengine _) (hdepth _) (.inl rfl)
  simp only [ite_self] at ho
  exact ⟨ho, hw.modifyEnvironment n f (hengine _)⟩

lemma setException (n : EnvironmentId) (exception : Exception) :
    Orderly (Act.setException n exception : Act σ Unit) :=
  updateEnvironment n (fun _ => rfl) fun _ => rfl

lemma updateEngine (e : EngineId) {f : Engine → Engine}
    (hheap : ∀ engine, (f engine).heap = engine.heap)
    (hdispatcher : ∀ engine, (f engine).dispatcher = engine.dispatcher) :
    Orderly (Act.updateEngine e f : Act σ Unit) := by
  intro w hw
  refine ⟨.modifyHeap w e f ?_, hw.modifyEngine e f ?_ ?_ (hdispatcher _)⟩
  · rw [hheap]
    exact .refl _
  · rw [hheap]
    exact hw.heap e
  · rw [hheap]

lemma onHeap (e : EngineId) {f : Heap → α × Heap}
    (hf : ∀ h : Heap, h.Sound → Heap.Opens 0 h (f h).2 ∧ (f h).2.Sound) :
    Orderly (Act.onHeap e f : Act σ α) := by
  intro w hw
  obtain ⟨ho, hs⟩ := hf _ (hw.heap e)
  exact ⟨.modifyHeap w e _ ho, hw.modifyEngine e _ hs ho.global rfl⟩

end Orderly

namespace Meets

variable {v : View} {pre pre' : Heap → Prop} {post post' : α → Heap → Prop} {act : Act σ α}

lemma pure {x : α} (h : ∀ h : Heap, h.Sound → pre h → post x h) :
    Meets v pre (Pure.pure x : Act σ α) post :=
  fun w hw _ hpre => ⟨.refl w, hw, h _ (hw.heap _) hpre⟩

lemma idle {x : α} : Meets v pre (Pure.pure x : Act σ α) fun _ _ => True :=
  .pure fun _ _ _ => trivial

lemma bind {mid : α → Heap → Prop} {post : β → Heap → Prop} (h : Meets v pre act mid)
    (hnext : ∀ x, Meets v (mid x) (next x) post) : Meets v pre (act >>= next) post := by
  intro w hw hin hpre
  obtain ⟨hc, hs, hmid⟩ := h w hw hin hpre
  obtain ⟨hc', hs', hpost⟩ := hnext _ _ hs (hin.carried hc) hmid
  exact ⟨hc.trans hc', hs', hpost⟩

lemma conseq (h : Meets v pre act post) (hpre : ∀ h : Heap, h.Sound → pre' h → pre h)
    (hpost : ∀ x (h : Heap), h.Sound → post x h → post' x h) : Meets v pre' act post' := by
  intro w hw hin hp
  obtain ⟨hc, hs, hq⟩ := h w hw hin (hpre _ (hw.heap _) hp)
  exact ⟨hc, hs, hpost _ _ (hs.heap _) hq⟩

lemma assuming {φ : Prop} (h : φ → Meets v pre act post) : Meets v (fun h => φ ∧ pre h) act post :=
  fun w hw hin hpre => h hpre.1 w hw hin hpre.2

lemma weaken (h : Meets v pre act post) (hpost : ∀ x (h : Heap), h.Sound → post x h → post' x h) :
    Meets v pre act post' :=
  h.conseq (fun _ _ hp => hp) hpost

lemma strengthen (h : Meets v pre act post) (hpre : ∀ h : Heap, h.Sound → pre' h → pre h) :
    Meets v pre' act post :=
  h.conseq hpre fun _ _ _ hq => hq

lemma under (h : Meets v any act post) : Meets v pre act post :=
  h.strengthen fun _ _ _ => trivial

-- What an open scope keeps, it still keeps when the scopes are back as they were.
lemma frame (h : Meets v pre act post) {kept : Heap → Prop}
    (hkept : ∀ h h' : Heap, Heap.Opens 0 h h' → kept h → kept h') :
    Meets v (fun h => pre h ∧ kept h) act fun x h => post x h ∧ kept h := by
  intro w hw hin hpre
  obtain ⟨hc, hs, hpost⟩ := h w hw hin hpre.1
  exact ⟨hc, hs, hpost, hkept _ _ (hc.heap _ hin.hasEngine) hpre.2⟩

lemma returning {f : α → β} {post : β → Heap → Prop} (h : Meets v pre act fun x h => post (f x) h) :
    Meets v pre (act >>= fun x => Pure.pure (f x)) post := h

lemma ofOrderly (h : Orderly act) : Meets v pre act fun _ _ => True := by
  intro w hw _ _
  obtain ⟨hc, hs⟩ := h w hw
  exact ⟨hc, hs, trivial⟩

lemma ofEngine (h : Meets (.engine e) pre act post) : Meets (.environment n e) pre act post :=
  fun w hw hin hpre => h w hw hin.1 hpre

lemma onHeap {f : Heap → α × Heap}
    (hf : ∀ h : Heap, h.Sound → pre h → h.Safely (f h).2 ∧ post (f h).1 (f h).2) :
    Meets v pre (Act.onHeap v.target f : Act σ α) post := by
  intro w hw hin hpre
  obtain ⟨hl, hpost⟩ := hf _ (hw.heap _) hpre
  refine ⟨.modifyHeap w _ _ hl.opens, hw.modifyEngine _ _ (hl.sound (hw.heap _)) hl.opens.global rfl, ?_⟩
  have hengine := w.engine_modifyEngine v.target v.target
    ({ · with heap := (f (w.engine v.target).heap).2 })
  rw [if_pos ⟨rfl, hin.hasEngine⟩] at hengine
  simp only [Act.onHeap, hengine]
  exact hpost

lemma onHeap_safely {f : Heap → α × Heap} (hf : ∀ h : Heap, h.Sound → pre h → h.Safely (f h).2) :
    Meets v pre (Act.onHeap v.target f : Act σ α) fun _ _ => True :=
  onHeap fun h hs hpre => ⟨hf h hs hpre, trivial⟩

lemma heap : Meets v pre (Act.heap v.target : Act σ Heap) fun now h => now = h ∧ pre h :=
  fun w hw _ hpre => ⟨.refl w, hw, rfl, hpre⟩

lemma updateEnvironment (n : EnvironmentId) (hengine : ∀ env, (f env).engine = env.engine)
    (hdepth : ∀ env, (f env).scopeDepth = env.scopeDepth) :
    Meets v pre (Act.updateEnvironment n f : Act σ Unit) fun _ h => pre h := by
  intro w hw _ hpre
  obtain ⟨hc, hs⟩ := Orderly.updateEnvironment n hengine hdepth w hw
  exact ⟨hc, hs, hpre⟩

lemma setException (n : EnvironmentId) (exception : Exception) :
    Meets v pre (Act.setException n exception : Act σ Unit) fun _ h => pre h :=
  updateEnvironment n (fun _ => rfl) fun _ => rfl

lemma environment :
    Meets (.environment n e) pre (Act.environment n : Act σ Environment)
      fun env h => env.engine = e ∧ pre h :=
  fun w hw hin hpre => ⟨.refl w, hw, hin.2.2, hpre⟩

end Meets

end Act

end HostBoundary
