import HostBoundary.Proofs.Keeping
import HostBoundary.Proofs.Moments

namespace HostBoundary

namespace Heap

-- What happens to a heap in one go, whoever asks for it. A property is stored where no accessor
-- stands in the way, and not at a place that is barred.
inductive Stride (barred : Heap → ObjectRef → Key → Prop) (h : Heap) : Heap → Prop where
  | move {h' : Heap} (hm : h.Move h') : Stride barred h h'
  | settle {h' : Heap} (hs : h.Settling h') : Stride barred h h'
  | store (r : ObjectRef) (key : Key) (value : Value) {h' : Heap}
      (hkey : key.Canonical) (hplan : h.storePlan r key = .define)
      (hs : h.storeOwn r key value = some h') (hfree : h.Roomy → ¬ barred h r key) : Stride barred h h'
  | pushScope : Stride barred h h.pushScope
  | popScope : Stride barred h h.popScope.2
  | collect : Stride barred h h.collect.2
  | drain : Stride barred h h.drainReleases.2
  | wrap (memory : HostMemory) (release : Option ReleaseHook) :
      Stride barred h (h.newExternalBuffer memory release).2
  | weaken (slot : PersistentRef) (hook : Option ReclaimHook) : Stride barred h (h.weaken slot hook).2
  | dispose (slot : PersistentRef) : Stride barred h (h.dispose slot).2

def Strides (barred : Heap → ObjectRef → Key → Prop) : Heap → Heap → Prop :=
  Relation.ReflTransGen (Stride barred)

variable {barred : Heap → ObjectRef → Key → Prop} {h h' h'' : Heap}

lemma Stride.leads (hs : Stride barred h h') : h.Leads h' := by
  cases hs with
  | move hm => exact hm.discreetly.leads
  | settle hs => exact hs.plainly.leads
  | store r key value _ _ hs _ => exact (h.discreetly_storeOwn r key value h' hs).leads
  | pushScope => exact .op .pushScope trivial
  | popScope => exact .op .popScope trivial
  | collect => exact .op .collect trivial
  | drain => exact .op .drainReleases trivial
  | wrap memory release => exact h.leads_allocate _
  | weaken slot hook => exact .op (.weaken slot hook) trivial
  | dispose slot => exact .op (.dispose slot) trivial

namespace Strides

lemma refl (h : Heap) : h.Strides barred h := Relation.ReflTransGen.refl

lemma trans (hab : h.Strides barred h') (hbc : h'.Strides barred h'') : h.Strides barred h'' :=
  Relation.ReflTransGen.trans hab hbc

lemma single (hs : Stride barred h h') : h.Strides barred h' := Relation.ReflTransGen.single hs

lemma leads (hl : h.Strides barred h') : h.Leads h' := by
  induction hl with
  | refl => exact .refl h
  | tail _ hs ih => exact ih.trans hs.leads

end Strides

lemma Works.strides (hl : h.Works h') : h.Strides barred h' :=
  Relation.ReflTransGen.mono (fun _ _ hstep => hstep.elim .move .settle) _ _ hl

lemma strides_hold (r : ObjectRef) (hook : Option ReclaimHook) :
    h.Strides barred (h.hold r hook).2 := by
  have hpersist : h.Strides barred (h.persist r).2 := .single (.move (.persist r))
  unfold hold
  split <;> rename_i heq <;> rw [heq] at hpersist
  · exact hpersist.trans (.single (.weaken _ _))
  · exact hpersist

lemma strides_leave (c : Completion) : h.Strides barred (h.leave c) := by
  have hpop : h.Strides barred h.popScope.2 := .single .popScope
  unfold leave
  split
  · exact hpop.trans (.single (.move (.root _)))
  · exact hpop

-- A heap that came from nothing comes to another by strides.
def Steers (barred : Heap → ObjectRef → Key → Prop) (h h' : Heap) : Prop :=
  h.Grown → h.Strides barred h'

lemma Steers.trans (hab : h.Steers barred h') (hbc : h'.Steers barred h'') : h.Steers barred h'' :=
  fun hg => (hab hg).trans (hbc (hg.leads (hab hg).leads))

end Heap

variable {σ : Type} {host : Host σ} {diary : σ → List (World Unit)}
  {barred : EngineId → Heap → ObjectRef → Key → Prop}

namespace World

-- From one moment to a later one. Engines that are new start with a fresh heap.
structure Advances (barred : EngineId → Heap → ObjectRef → Key → Prop) (m m' : World Unit) : Prop where
  size : m.engines.size ≤ m'.engines.size
  kept : ∀ e, m.HasEngine e → (m.engine e).heap.Steers (barred e) (m'.engine e).heap
  added : ∀ e, ¬ m.HasEngine e → m'.HasEngine e →
    ∃ limits, (Heap.fresh limits).Strides (barred e) (m'.engine e).heap

namespace Advances

variable {m m' m'' : World Unit}

lemma of_eq (hsize : m'.engines.size = m.engines.size)
    (hheap : ∀ e, (m'.engine e).heap = (m.engine e).heap) : m.Advances barred m' where
  size := hsize.ge
  kept e _ _ := hheap e ▸ .refl _
  added e he he' := absurd (by rwa [HasEngine, hsize] at he') he

lemma refl (m : World Unit) : m.Advances barred m := .of_eq rfl fun _ => rfl

lemma trans (hab : m.Advances barred m') (hbc : m'.Advances barred m'') : m.Advances barred m'' where
  size := Nat.le_trans hab.size hbc.size
  kept e he := (hab.kept e he).trans (hbc.kept e (Nat.lt_of_lt_of_le he hab.size))
  added e he he'' := by
    by_cases he' : m'.HasEngine e
    · obtain ⟨limits, hl⟩ := hab.added e he he'
      exact ⟨limits, hl.trans (hbc.kept e he' ((Heap.grown_fresh limits).leads hl.leads))⟩
    · exact hbc.added e he' he''

lemma modifyEngine (m : World Unit) (e : EngineId) {h : Heap}
    (hs : (m.engine e).heap.Steers (barred e) h) :
    m.Advances barred (m.setHeap e h) where
  size := by simp [World.modifyEngine]
  kept d hd := by
    rw [engine_modifyEngine]
    split
    · rename_i hand
      exact hand.1 ▸ hs
    · exact fun _ => .refl _
  added d hd hd' := absurd ((hasEngine_modifyEngine ..).mp hd') hd

end Advances

-- The worlds that were noted down on the way from one world to another, and these two, come one
-- after the other.
def Follows (diary : σ → List (World Unit)) (barred : EngineId → Heap → ObjectRef → Key → Prop)
    (w w' : World σ) : Prop :=
  ∃ more, diary w'.host = diary w.host ++ more ∧
    (w.seen :: (more ++ [w'.seen])).Pairwise (Advances barred)

namespace Follows

variable {w w' w'' : World σ}

lemma of_advances (hdiary : diary w'.host = diary w.host) (ha : w.seen.Advances barred w'.seen) :
    Follows diary barred w w' :=
  ⟨[], by simp [hdiary], by simpa using ha⟩

lemma of_eq (hdiary : diary w'.host = diary w.host) (hsize : w'.engines.size = w.engines.size)
    (hheap : ∀ e, (w'.engine e).heap = (w.engine e).heap) : Follows diary barred w w' :=
  .of_advances hdiary (.of_eq hsize hheap)

lemma refl (w : World σ) : Follows diary barred w w := .of_eq rfl rfl fun _ => rfl

lemma trans (hab : Follows diary barred w w') (hbc : Follows diary barred w' w'') :
    Follows diary barred w w'' := by
  obtain ⟨first, hfirst, hp⟩ := hab
  obtain ⟨second, hsecond, hp'⟩ := hbc
  refine ⟨first ++ second, by rw [hsecond, hfirst, List.append_assoc], ?_⟩
  rw [← List.cons_append] at hp
  rw [List.append_assoc, ← List.cons_append]
  obtain ⟨hearly, -, hmiddle⟩ := List.pairwise_append.mp hp
  obtain ⟨hmiddle', hlate⟩ := List.pairwise_cons.mp hp'
  exact List.pairwise_append.mpr ⟨hearly, hlate, fun a ha b hb =>
    (hmiddle a ha w'.seen List.mem_cons_self).trans (hmiddle' b hb)⟩

lemma modifyEngine (w : World σ) (e : EngineId) {h : Heap}
    (hs : (w.engine e).heap.Steers (barred e) h) :
    Follows diary barred w (w.setHeap e h) :=
  .of_advances rfl (.modifyEngine w.seen e hs)

lemma think (w : World σ) {s : σ} (hs : w.Notes diary s) :
    Follows diary barred w { w with host := s } := by
  rcases hs with hs | hs
  · exact .of_eq hs rfl fun _ => rfl
  · refine ⟨[w.seen], hs, ?_⟩
    have hsame : ({ w with host := s } : World σ).seen = w.seen := rfl
    rw [hsame]
    simp [Advances.refl]

lemma entered (w : World σ) (e : EngineId) (n : EnvironmentId) :
    Follows diary barred w (w.entered e n) :=
  trans (.modifyEngine w e fun _ => .single .pushScope) (.of_eq rfl rfl fun _ => rfl)

lemma left (w : World σ) (e : EngineId) (n : EnvironmentId) (c : Completion) :
    Follows diary barred w (Engine.left e n (c, w)).2 := by
  have hdone : Follows diary barred w
      (w.modifyEnvironment n fun env => { env with running := env.running - 1 }) :=
    .of_eq rfl rfl fun _ => rfl
  rw [Engine.left_apply]
  exact hdone.trans (.modifyEngine _ e fun _ => Heap.strides_leave c)

lemma served {visits : List Host.Visit} (hs : Serves (fun _ => Follows diary barred) visits w w') :
    Follows diary barred w w' :=
  hs.kept refl trans

end Follows

lemma order_follows : Order (Follows diary barred) fun _ => Follows diary barred where
  refl := .refl
  trans := .trans
  heap w e _ hl := .modifyEngine w e fun _ => hl.strides
  aside hhost hsize hheap _ := .of_eq (congrArg diary hhost) hsize hheap
  addEngine w limits held := by
    refine .of_advances rfl ⟨?_, fun e he _ => ?_, fun e he he' => ⟨limits, ?_⟩⟩
    · simp [seen, addEngine]
    · have hsame : ((w.addEngine { heap := .fresh limits, held }).2.seen.engine e) = w.engine e := by
        refine (engine_addEngine w _ e).trans (if_neg ?_)
        exact Nat.ne_of_lt he
      rw [hsame]
      exact .refl _
    · have hnew : ((w.addEngine { heap := .fresh limits, held }).2.seen.engine e).heap =
          .fresh limits := by
        refine congrArg Engine.heap ((engine_addEngine w _ e).trans (if_pos ?_))
        exact ((hasEngine_addEngine _ e).mp he').resolve_left he
      rw [hnew]
      exact .refl _
  native w w' e n c h := (Follows.entered w e n).trans (h.trans (.left w' e n c))
  collect w w' e h := Follows.trans (.modifyEngine w e fun _ => .single .collect) (.served h)
  reap w w' e _ h := by
    have hdrained : Follows diary barred w
        (w.setHeap e (w.engine e).heap.drainReleases.2) :=
      .modifyEngine w e fun _ => .single .drain
    refine (hdrained.trans ?_).trans (.served h)
    exact .of_eq rfl (by simp [reaped, World.modifyEngine]) (w.heap_reaped e)
  external w e memory release := .modifyEngine w e fun _ => .single (.wrap memory release)
  newborn w e r h f _ hb := .modifyEngine w e fun _ => hb.works.strides.trans (h.strides_hold r _)
  construct w w' e n r h f c _ hb hinside := by
    have hmade : Follows diary barred w (w.setHeap e h) :=
      .modifyEngine w e fun _ => hb.works.strides
    have hattached : Follows diary barred w' _ :=
      .modifyEngine w' e fun _ => (w'.engine e).heap.strides_hold r (some f)
    exact ((hmade.trans (.entered _ e n)).trans (hinside.trans hattached)).trans (.left _ e n c)

end World

end HostBoundary
