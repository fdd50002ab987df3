import HostBoundary.Proofs.PromiseLaws
import HostBoundary.Proofs.SoundActions

namespace HostBoundary

variable {n : EnvironmentId}

namespace Heap

-- So many pushes are open on a heap. They have a scope each up to the depth limit, and those
-- beyond it were refused.
structure Accounts (h : Heap) (total : Nat) : Prop where
  sum : h.pushed.length + h.overflow = total
  depth : h.pushed.length = min total h.limits.maxScopeDepth

namespace Accounts

variable {h h' : Heap} {total : Nat}

lemma level (ha : h.Accounts total) (hl : h.Level h') : h'.Accounts total where
  sum := by
    rw [hl.pushed, hl.overflow]
    exact ha.sum
  depth := by
    rw [hl.pushed, hl.limits]
    exact ha.depth

lemma push (ha : h.Accounts total) : h.pushScope.Accounts (total + 1) := by
  have hsum := ha.sum
  have hdepth := ha.depth
  unfold pushScope
  split
  · constructor <;> dsimp only <;> omega
  · constructor <;> simp only [List.length_cons] <;> omega

lemma closable (ha : h.Accounts (total + 1)) : 0 < h.overflow ∨ h.pushed ≠ [] := by
  have hsum := ha.sum
  by_cases hover : 0 < h.overflow
  · exact .inl hover
  · refine .inr (List.ne_nil_of_length_pos ?_)
    omega

lemma pop (ha : h.Accounts (total + 1)) : h.popScope.2.Accounts total := by
  have hsum := ha.sum
  have hdepth := ha.depth
  unfold popScope
  split
  · constructor <;> dsimp only <;> omega
  · split
    · rename_i hnil
      rw [hnil] at hsum
      simp only [List.length_nil] at hsum
      omega
    · rename_i hcons
      rw [hcons] at hsum hdepth
      simp only [List.length_cons] at hsum hdepth
      constructor <;> dsimp only <;> omega

end Accounts

lemma accounts_fresh (limits : HeapLimits) : (fresh limits).Accounts 0 := by
  have hempty : (initial limits).Accounts 0 := ⟨rfl, (Nat.zero_min _).symm⟩
  have hglobal : ((initial limits).allocate (.ofBody .plain)).2.Level (fresh limits) :=
    ⟨rfl, rfl, rfl⟩
  exact hempty.level ((level_allocate _ _).trans hglobal)

-- Every scope was pushed and not popped since, and every refused push that is open was not
-- matched since.
structure Matched (h : Heap) (events : List Event) : Prop where
  pushed : events.count (.opened false) = events.count (.closed false) + h.pushed.length
  refused : events.count (.opened true) = events.count (.closed true) + h.overflow

namespace Matched

variable {h h' : Heap} {events more : List Event} (hm : h.Matched events)

include hm

lemma level (hl : h.Level h')
    (hmore : ∀ refused, Event.opened refused ∉ more ∧ Event.closed refused ∉ more) :
    h'.Matched (events ++ more) := by
  have hopened := fun refused => List.count_eq_zero.mpr (hmore refused).1
  have hclosed := fun refused => List.count_eq_zero.mpr (hmore refused).2
  constructor
  · simp only [List.count_append, hopened, hclosed, hl.pushed, Nat.add_zero]
    exact hm.pushed
  · simp only [List.count_append, hopened, hclosed, hl.overflow, Nat.add_zero]
    exact hm.refused

lemma push :
    h.pushScope.Matched
      (events ++ [.opened (decide (h.limits.maxScopeDepth ≤ h.pushed.length))]) := by
  have hpushed := hm.pushed
  have hrefused := hm.refused
  unfold pushScope
  split
  · rename_i hlimit
    constructor <;> simp [List.count_append, hlimit] <;> omega
  · rename_i hlimit
    constructor <;> simp [List.count_append, hlimit] <;> omega

lemma pop (hopen : 0 < h.overflow ∨ h.pushed ≠ []) :
    h.popScope.2.Matched (events ++ [.closed (decide (0 < h.overflow))]) := by
  have hpushed := hm.pushed
  have hrefused := hm.refused
  unfold popScope
  split
  · rename_i hover
    constructor <;> simp [List.count_append, hover] <;> omega
  · rename_i hover
    split
    · rename_i hnil
      exact absurd hnil (hopen.resolve_left hover)
    · rename_i hcons
      rw [hcons] at hpushed
      simp only [List.length_cons] at hpushed
      constructor <;> simp [List.count_append, hover] <;> omega

end Matched

section Level

variable (h : Heap)

section

variable (r : ObjectRef)

lemma level_setPromise (p : Promise) : h.Level (h.setPromise r p) :=
  ⟨rfl, rfl, rfl⟩

lemma level_enqueue (jobs : List Job) : h.Level (h.enqueue jobs) := ⟨rfl, rfl, rfl⟩

lemma level_react (p : Promise) (reaction : Reaction) : h.Level (h.react r p reaction) :=
  (h.level_setPromise r _).trans (level_enqueue _ _)

lemma level_settle (state : PromiseState) (value : Value) : h.Level (h.settle r state value) := by
  unfold settle
  split
  · exact .refl h
  · exact (h.level_setPromise r _).trans (level_enqueue _ _)

lemma level_newResolver : h.Level h.newResolver.2 :=
  (h.level_allocate _).trans (level_allocate _ _)

lemma level_thenPromise (f g : Option ObjectRef) : h.Level (h.thenPromise r f g).2 := by
  unfold thenPromise
  split
  · exact .refl h
  · exact (h.level_allocate _).trans (level_react _ _ _ _)

end

lemma level_lockResolver (s : ObjectRef) : h.Level (h.lockResolver s).2 := by
  cases hl : (h.lockResolver s).1 with
  | none => exact (quietly_lockResolver_of_none hl).level
  | some d =>
    obtain ⟨-, p, -, -, -, heq⟩ := lockResolver_of_some hl
    rw [heq]
    exact (h.level_root d).trans (level_setPromise _ _ _)

end Level

variable {h h' : Heap} {pledged pledged' : List ObjectRef} {events more : List Event}

lemma Step.scopes (hs : Step h pledged more h' pledged') :
    more = [.opened (decide (h.limits.maxScopeDepth ≤ h.pushed.length))] ∧ h' = h.pushScope ∨
    (0 < h.overflow ∨ h.pushed ≠ []) ∧ more = [.closed (decide (0 < h.overflow))] ∧
      h' = h.popScope.2 ∨
    h.Level h' ∧ ∀ refused, Event.opened refused ∉ more ∧ Event.closed refused ∉ more := by
  cases hs with
  | openScope => exact .inl ⟨rfl, rfl⟩
  | closeScope hopen => exact .inr (.inl ⟨hopen, rfl, rfl⟩)
  | quiet op hq => exact .inr (.inr ⟨hq.level, by simp⟩)
  | newResolver => exact .inr (.inr ⟨h.level_newResolver, by simp⟩)
  | derive r p f g => exact .inr (.inr ⟨h.level_thenPromise r f g, by simp [Event.registration]⟩)
  | lock s | refuse s => exact .inr (.inr ⟨h.level_lockResolver s, by simp⟩)
  | settle d state value => exact .inr (.inr ⟨h.level_settle d state value, by simp [settlement]⟩)
  | adopt d inner p => exact .inr (.inr ⟨h.level_react inner p _, by simp [Event.registration]⟩)
  | start job hj => exact .inr (.inr ⟨(nextJob_of_some hj).2.2, by simp⟩)

lemma Step.matched (hs : Step h pledged more h' pledged') (hm : h.Matched events) :
    h'.Matched (events ++ more) := by
  rcases hs.scopes with ⟨rfl, rfl⟩ | ⟨hopen, rfl, rfl⟩ | ⟨hlevel, hmore⟩
  · exact hm.push
  · exact hm.pop hopen
  · exact hm.level hlevel hmore

lemma Chronicle.matched {limits : HeapLimits} {pages : List Heap}
    (hc : Chronicle limits pages events h pledged) : h.Matched events := by
  induction hc with
  | fresh =>
    have hsum := (accounts_fresh limits).sum
    constructor <;> simp only [List.count_nil] <;> omega
  | step _ hs ih => exact hs.matched ih
  | note _ ih => exact ih

end Heap

-- How many scopes an environment has to do with: those it has pushed, and one for each native
-- call under way.
def Environment.level (env : Environment) : Nat := env.scopeDepth + env.running

namespace World

variable {σ : Type}

-- How many scopes are open on an engine as far as its environments know.
def opened (w : World σ) (e : EngineId) : Nat :=
  ∑ i ∈ Finset.range w.environments.size,
    if (w.environment ⟨i⟩).engine = e then (w.environment ⟨i⟩).level else 0

section Opened

variable (w : World σ) (e : EngineId)

lemma opened_congr {w w' : World σ} (hsize : w'.environments.size = w.environments.size)
    (hsame : ∀ n, w.Has n → (w'.environment n).engine = (w.environment n).engine ∧
      (w'.environment n).level = (w.environment n).level) : w'.opened e = w.opened e := by
  unfold opened
  rw [hsize]
  refine Finset.sum_congr rfl fun i hi => ?_
  obtain ⟨hengine, hlevel⟩ := hsame ⟨i⟩ (Finset.mem_range.mp hi)
  rw [hengine, hlevel]

lemma opened_modifyEnvironment (hn : w.Has n) (f : Environment → Environment)
    (hf : (f (w.environment n)).engine = (w.environment n).engine) :
    (w.modifyEnvironment n f).opened e +
        (if (w.environment n).engine = e then (w.environment n).level else 0) =
      w.opened e + if (w.environment n).engine = e then (f (w.environment n)).level else 0 := by
  have hsize : (w.modifyEnvironment n f).environments.size = w.environments.size := by
    simp [modifyEnvironment]
  have hmem : n.index ∈ Finset.range w.environments.size := Finset.mem_range.mpr hn
  have hself : (w.modifyEnvironment n f).environment ⟨n.index⟩ = f (w.environment n) := by
    rw [environment_modifyEnvironment, if_pos ⟨rfl, hn⟩]
  have hrest : ∀ i ∈ (Finset.range w.environments.size).erase n.index,
      (w.modifyEnvironment n f).environment ⟨i⟩ = w.environment ⟨i⟩ := by
    intro i hi
    rw [environment_modifyEnvironment, if_neg]
    rintro ⟨rfl, -⟩
    exact (Finset.mem_erase.mp hi).1 rfl
  unfold opened
  rw [hsize, ← Finset.add_sum_erase _ _ hmem, ← Finset.add_sum_erase _ (fun i =>
    if (w.environment ⟨i⟩).engine = e then (w.environment ⟨i⟩).level else 0) hmem]
  have hcongr := Finset.sum_congr rfl fun i hi => congrArg
    (fun env : Environment => if env.engine = e then env.level else 0) (hrest i hi)
  have hindex : w.environment ⟨n.index⟩ = w.environment n := rfl
  rw [hcongr, hself, hf, hindex]
  omega

lemma opened_seated (d : EngineId) : (w.seated d).opened e = w.opened e := by
  have hsize : (w.seated d).environments.size = w.environments.size + 1 := Array.size_push _
  have hnew : ((w.seated d).environment ⟨w.environments.size⟩).level = 0 := by
    rw [environment_seated, if_pos rfl]
    rfl
  unfold opened
  rw [hsize, Finset.sum_range_succ, hnew, ite_self, Nat.add_zero]
  refine Finset.sum_congr rfl fun i hi => ?_
  rw [environment_seated_of_has w d (Finset.mem_range.mp hi)]

lemma level_le_opened (hn : w.Has n) :
    (w.environment n).level ≤ w.opened (w.environment n).engine := by
  have hsingle := Finset.single_le_sum (f := fun i =>
    if (w.environment ⟨i⟩).engine = (w.environment n).engine then (w.environment ⟨i⟩).level else 0)
    (fun _ _ => Nat.zero_le _) (Finset.mem_range.mpr hn)
  rwa [if_pos rfl] at hsingle

lemma opened_eq_level (hn : w.Has n)
    (honly : ∀ m, w.Has m → (w.environment m).engine = (w.environment n).engine → m = n) :
    w.opened (w.environment n).engine = (w.environment n).level := by
  unfold opened
  rw [Finset.sum_eq_single n.index]
  · exact if_pos rfl
  · intro i hi hne
    refine if_neg fun hsame => hne ?_
    exact congrArg EnvironmentId.index (honly ⟨i⟩ (Finset.mem_range.mp hi) hsame)
  · exact fun hout => absurd (Finset.mem_range.mpr hn) hout

end Opened

-- On each engine as many scopes are open as its environments know of.
structure Accounted (w : World σ) : Prop extends w.Wired where
  scopes : ∀ e, w.HasEngine e → (w.engine e).heap.Accounts (w.opened e)

namespace Accounted

variable {w : World σ} (ha : w.Accounted)

include ha

lemma of_eq {τ : Type} {w' : World τ} (hengines : w'.engines = w.engines)
    (henvironments : w'.environments = w.environments) : w'.Accounted where
  toWired := ha.toWired.of_eq hengines henvironments
  scopes e := by
    have henv : ∀ n, w'.environment n = w.environment n := fun n =>
      congrArg (·.getD n.index default) henvironments
    have hopened : w'.opened e = w.opened e := by simp only [opened, henv, henvironments]
    rw [HasEngine, World.engine, hengines, hopened]
    exact ha.scopes e

lemma modifyEngine (e : EngineId) (f : Engine → Engine)
    (hlevel : (w.engine e).heap.Level (f (w.engine e)).heap)
    (hd : (f (w.engine e)).dispatcher = (w.engine e).dispatcher) :
    (w.modifyEngine e f).Accounted where
  toWired := ha.toWired.modifyEngine e f hd
  scopes := forall_modifyEngine (P := fun d engine => engine.heap.Accounts (w.opened d)) ha.scopes
    fun hscopes => hscopes.level hlevel

lemma exchange (hn : w.Has n) (f : Environment → Environment)
    (hengine : (f (w.environment n)).engine = (w.environment n).engine) {heap : Heap}
    (hmove : ∀ rest, (w.engine (w.environment n).engine).heap.Accounts
        (rest + (w.environment n).level) → heap.Accounts (rest + (f (w.environment n)).level)) :
    ((w.setHeap (w.environment n).engine heap).modifyEnvironment n f).Accounted
    where
  toWired := (ha.toWired.modifyEngine _ _ rfl).modifyEnvironment n f hengine
  scopes d hd := by
    have hthere := ha.engine n hn
    have hd' : w.HasEngine d := (hasEngine_modifyEngine w _ d _).mp hd
    have hopened := opened_modifyEnvironment
      (w.setHeap (w.environment n).engine heap) d hn f hengine
    have hbefore : (w.setHeap (w.environment n).engine heap).opened d =
      w.opened d := rfl
    rw [hbefore, environment_modifyEngine] at hopened
    generalize ((w.setHeap (w.environment n).engine heap).modifyEnvironment n
      f).opened d = after at hopened ⊢
    rw [engine_modifyEnvironment, engine_modifyEngine]
    by_cases hde : (w.environment n).engine = d
    · rw [if_pos hde, if_pos hde] at hopened
      rw [if_pos ⟨hde.symm, hthere⟩]
      have hle : (w.environment n).level ≤ w.opened d := hde ▸ w.level_le_opened hn
      have htotal := ha.scopes d hd'
      obtain ⟨rest, hrest⟩ := Nat.exists_eq_add_of_le' hle
      rw [hrest, ← hde] at htotal
      have hafter := hmove rest htotal
      rwa [show rest + (f (w.environment n)).level = after by omega] at hafter
    · rw [if_neg hde, if_neg hde] at hopened
      rw [if_neg fun hand => hde hand.1.symm, Nat.add_right_cancel hopened]
      exact ha.scopes d hd'

lemma modifyEnvironment (n : EnvironmentId) (f : Environment → Environment)
    (hengine : (f (w.environment n)).engine = (w.environment n).engine)
    (hlevel : (f (w.environment n)).level = (w.environment n).level) :
    (w.modifyEnvironment n f).Accounted where
  toWired := ha.toWired.modifyEnvironment n f hengine
  scopes d hd := by
    have hsize : (w.modifyEnvironment n f).environments.size = w.environments.size := by
      simp [World.modifyEnvironment]
    rw [opened_congr (w := w) d hsize fun m _ =>
      ⟨environment_modifyEnvironment_congr (·.engine) hengine m,
        environment_modifyEnvironment_congr (·.level) hlevel m⟩]
    exact ha.scopes d hd

lemma addEngine (limits : HeapLimits) (held : Bool) :
    (w.addEngine { heap := .fresh limits, held }).2.Accounted where
  toWired := ha.toWired.addEngine _ rfl
  scopes := by
    refine forall_addEngine (P := fun d engine => engine.heap.Accounts (w.opened d)) ha.scopes ?_
    intro d hnot
    -- No environment has an engine that was not there.
    have hnone : w.opened d = 0 := by
      refine Finset.sum_eq_zero fun i hi => if_neg fun hsame => hnot ?_
      exact hsame ▸ ha.engine ⟨i⟩ (Finset.mem_range.mp hi)
    rw [hnone]
    exact Heap.accounts_fresh limits

lemma seated {e : EngineId} (he : w.HasEngine e) : (w.seated e).Accounted where
  toWired := ha.toWired.seated he
  scopes d hd := by
    rw [heap_seated, opened_seated]
    exact ha.scopes d ((hasEngine_seated w e d).mp hd)

end Accounted

lemma accounted_empty (s : σ) : ({ host := s } : World σ).Accounted where
  engine n hn := absurd hn (by simp [Has])
  dispatcher e n hd := (sound_empty s).dispatcher e n hd
  scopes e he := absurd he (by simp [HasEngine])

end World

end HostBoundary
