import HostBoundary.Proofs.Keeping

namespace HostBoundary

variable {h : Heap} {r : ObjectRef} {i : Incident} {w w' : World σ}

namespace Arena

variable {store : Store} {α : Type}

def leaving (a : Arena store α) (dead : Nat → α → Bool) : List (SlotRef store × α) :=
  (List.range a.slots.size).filterMap fun p => a.slots[p]?.bind fun slot =>
    (slot.entry.filter (dead p)).map (slot.current, ·)

lemma map_snd_leaving (a : Arena store α) (dead : Nat → α → Bool) :
    (a.leaving dead).map Prod.snd = a.dying dead (List.range a.slots.size) := by
  rw [leaving, List.map_filterMap, dying]
  congr 1
  funext p
  cases a.slots[p]? with
  | none => rfl
  | some slot => cases h : slot.entry.filter (dead p) <;> simp [h]

end Arena

structure Farewell where
  engine : EngineId
  slot : PersistentRef
  target : ObjectRef
  hook : ReclaimHook
  fields : Fields

structure Parting where
  engine : EngineId
  object : ObjectRef
  hook : ReleaseHook
  memory : HostMemory

inductive Debt where
  | reclaim (x : Farewell)
  | release (x : Parting)

def Debt.visit : Debt → Host.Visit
  | .reclaim x => .reclaim x.hook x.fields
  | .release x => .release x.hook x.memory

namespace Heap

lemma hold_of_none {hook : Option ReclaimHook} (hnone : (h.hold r hook).1 = none) :
    (h.hold r hook).2 = h := by
  unfold hold persist at hnone ⊢
  split <;> rename_i heq
  · rw [heq] at hnone
    cases hnone
  · split at heq
    · cases heq
    · exact (Prod.mk.inj heq).2.symm

def farewells (h : Heap) (e : EngineId) : List Farewell :=
  (h.persistents.leaving fun _ => deadWeak h.marks).filterMap fun item =>
    (h.farewell item.2).map fun (hook, fields) => ⟨e, item.1, item.2.target, hook, fields⟩

-- The buffers among some objects, with what is to be given back for them.
def partings (e : EngineId) (objects : List (ObjectRef × HeapObject)) : List Parting :=
  objects.filterMap fun item =>
    (releaseOf item.2).map fun (hook, memory) => ⟨e, item.1, hook, memory⟩

lemma map_partings (e : EngineId) (objects : List (ObjectRef × HeapObject)) :
    (partings e objects).map (fun x => (x.hook, x.memory)) =
      (objects.map Prod.snd).filterMap releaseOf := by
  rw [partings, List.map_filterMap, List.filterMap_map]
  congr 1
  funext item
  rw [Function.comp_apply]
  cases releaseOf item.2 <;> rfl

-- What a collection leaves to be run, and what is run when the engine goes.
def debts (h : Heap) (e : EngineId) : List Debt :=
  (h.farewells e).map .reclaim ++ (partings e (h.objects.leaving (deadObject h.marks))).map .release

def drainDebts (h : Heap) (e : EngineId) : List Debt :=
  (partings e (h.objects.leaving fun _ _ => true)).map .release

lemma map_farewells (h : Heap) (e : EngineId) :
    (h.farewells e).map (fun x => (x.hook, x.fields)) = h.collect.1.hooks := by
  rw [collect_eq, dyingWeak, ← Arena.dying_eq_filter, ← Arena.map_snd_leaving, List.filterMap_map,
    farewells, List.map_filterMap]
  congr 1
  funext item
  rw [Function.comp_apply]
  cases h.farewell item.2 <;> rfl

lemma map_debts (h : Heap) (e : EngineId) : (h.debts e).map Debt.visit = h.collect.1.visits := by
  have hreleases : h.collect.1.releases = _ :=
    (congrArg (fun x => x.1.releases) h.collect_eq).trans
      ((congrArg (List.filterMap releaseOf) (Arena.map_snd_leaving h.objects _).symm).trans
        (map_partings e _).symm)
  rw [debts, Reclaimed.visits, ← map_farewells h e, hreleases, List.map_append, List.map_map,
    List.map_map, List.map_map, List.map_map]
  rfl

lemma map_drainDebts (h : Heap) (e : EngineId) :
    (h.drainDebts e).map Debt.visit = h.drainVisits := by
  have hall : h.drainReleases.1 =
      (partings e (h.objects.leaving fun _ _ => true)).map fun x => (x.hook, x.memory) := by
    rw [map_partings, Arena.map_snd_leaving, Arena.dying_eq_filter, List.filter_true]
    rfl
  rw [drainDebts, drainVisits, hall, List.map_map, List.map_map]
  rfl

def Deed.Modest (h : Heap) : Deed → Prop
  | .op .pushScope | .op .popScope => True
  | d => d.Plain h

lemma Deed.Plain.modest {d : Deed} (hp : d.Plain h) : d.Modest h := by
  cases d with
  | op op =>
    cases op with
    | pushScope | popScope => trivial
    | _ => exact hp
  | _ => exact hp

def Modestly : Heap → Heap → Prop :=
  Relation.ReflTransGen fun h h' => ∃ d : Deed, d.Modest h ∧ h.enact d = h'

lemma Plainly.modestly {h' : Heap} (hp : h.Plainly h') : h.Modestly h' :=
  Relation.ReflTransGen.mono (fun _ _ ⟨d, hd, heq⟩ => ⟨d, hd.modest, heq⟩) _ _ hp

lemma modestly_leave (h : Heap) (c : Completion) : h.Modestly (h.leave c) := by
  have hpop : h.Modestly h.popScope.2 := .single ⟨.op .popScope, trivial, rfl⟩
  unfold leave
  split
  · rename_i r _
    exact hpop.tail ⟨.op (.root r), trivial, rfl⟩
  · exact hpop

end Heap

structure Ward where
  engine : EngineId
  object : ObjectRef
  hook : ReclaimHook
  slot : PersistentRef

structure Loan where
  engine : EngineId
  object : ObjectRef
  hook : ReleaseHook
  memory : HostMemory

-- What an engine has taken on: to run a hook once, and not too early.
inductive Bond where
  | ward (g : Ward)
  | loan (x : Loan)

-- What a host takes down: the slots that are its own, the instances with a finalizer that it gets,
-- the buffers that it makes of its memory, and the hooks that are run.
inductive Entry where
  | given (e : EngineId) (slot : PersistentRef)
  | born (e : EngineId) (r : ObjectRef) (f : ReclaimHook)
  | lent (e : EngineId) (r : ObjectRef) (hook : ReleaseHook) (memory : HostMemory)
  | ran (visit : Host.Visit)

def Entry.ran? : Entry → Option Host.Visit
  | .ran visit => some visit
  | _ => none

-- What may happen in a run, as far as heaps and hooks go.
inductive Incident where
  | spawn (limits : HeapLimits)
  | deed (e : EngineId) (d : Heap.Deed)
  | bear (e : EngineId) (o : HeapObject)
  | attach (g : Ward)
  | wrap (e : EngineId) (memory : HostMemory) (release : Option ReleaseHook)
  | entrust (e : EngineId) (r : ObjectRef) (f : ReclaimHook) (slot : PersistentRef)
  | letGo (e : EngineId) (slot : PersistentRef) (op : Heap.Operation)
  | collect (e : EngineId) (debts : List Debt)
  | drop (e : EngineId) (debts : List Debt)
  | pay (debt : Debt)
  | note (entry : Entry)

structure Estate where
  heap : Heap
  dropped : Bool

instance : Inhabited Estate := ⟨(default : Engine).heap, (default : Engine).dropped⟩

-- All engines there are, the hooks that are still to be run, the objects that a finalizer is still
-- to be attached to, what engines have taken on, and what the host has taken down.
structure Scene where
  estates : Array Estate := #[]
  owed : List Debt := []
  begun : List (EngineId × ObjectRef) := []
  bonds : List Bond := []
  book : List Entry := []

namespace Scene

def estate (s : Scene) (e : EngineId) : Estate := s.estates.getD e.index default

def heap (s : Scene) (e : EngineId) : Heap := (s.estate e).heap

def enact (s : Scene) (e : EngineId) (d : Heap.Deed) : Scene :=
  { s with estates := s.estates.modify e.index fun x => { x with heap := x.heap.enact d } }

-- A loan to an engine that is gone binds nobody.
def loans (s : Scene) (e : EngineId) (memory : HostMemory) (release : Option ReleaseHook) :
    List Bond :=
  let o := HeapObject.ofBody (.arrayBuffer (.external memory release))
  match release with
  | some hook =>
    if (s.estate e).dropped then [] else [.loan ⟨e, ((s.heap e).allocate o).1, hook, memory⟩]
  | none => []

-- What the host may take down. A slot without a hook may be taken for its own.
inductive Notes (s : Scene) : Entry → Prop where
  | given (e : EngineId) (slot : PersistentRef) (entry : Persistent)
      (hentry : (s.heap e).persistents.get? slot = some entry) (hhook : entry.hook = none) :
      s.Notes (.given e slot)
  | born (g : Ward) (hg : .ward g ∈ s.bonds)
      (halive : (s.heap g.engine).isAlive g.object = true) :
      s.Notes (.born g.engine g.object g.hook)
  | lent (x : Loan) (hx : .loan x ∈ s.bonds) : s.Notes (.lent x.engine x.object x.hook x.memory)

-- A slot with a hook is made for nobody else than the host, who lets go of such slots only. Hooks
-- that a collection or the end of an engine owes are run before those that were owed before.
inductive Step : Scene → Incident → Scene → Prop where
  | spawn (s : Scene) (limits : HeapLimits) :
      Step s (.spawn limits) { s with estates := s.estates.push ⟨.fresh limits, false⟩ }
  | deed (s : Scene) (e : EngineId) (d : Heap.Deed) (hd : d.Modest (s.heap e)) :
      Step s (.deed e d) (s.enact e d)
  | bear (s : Scene) (e : EngineId) (o : HeapObject) (he : e.index < s.estates.size)
      (ho : o.charge = none) :
      Step s (.bear e o) { s.enact e (.op (.allocate o)) with
        begun := (e, ((s.heap e).allocate o).1) :: s.begun }
  | attach (s : Scene) (g : Ward) (rest : List (EngineId × ObjectRef))
      (hbegun : s.begun = (g.engine, g.object) :: rest)
      (hslot : ((s.heap g.engine).hold g.object (some g.hook)).1 = some g.slot) :
      Step s (.attach g) { s.enact g.engine (.hold g.object (some g.hook)) with
        begun := rest
        bonds := .ward g :: s.bonds }
  | wrap (s : Scene) (e : EngineId) (memory : HostMemory) (release : Option ReleaseHook)
      (he : e.index < s.estates.size) :
      Step s (.wrap e memory release)
        { s.enact e (.op (.allocate (.ofBody (.arrayBuffer (.external memory release))))) with
          bonds := s.loans e memory release ++ s.bonds }
  | entrust (s : Scene) (e : EngineId) (r : ObjectRef) (f : ReclaimHook) (slot : PersistentRef)
      (hslot : ((s.heap e).hold r (some f)).1 = some slot) :
      Step s (.entrust e r f slot) { s.enact e (.hold r (some f)) with
        book := s.book ++ [.given e slot] }
  | letGo (s : Scene) (e : EngineId) (slot : PersistentRef) (op : Heap.Operation)
      (hop : op = .dispose slot ∨ ∃ hook, op = .weaken slot hook)
      (hgiven : .given e slot ∈ s.book) :
      Step s (.letGo e slot op) (s.enact e (.op op))
  | collect (s : Scene) (e : EngineId) :
      Step s (.collect e ((s.heap e).debts e)) { s.enact e (.op .collect) with
        owed := (s.heap e).debts e ++ s.owed }
  | drop (s : Scene) (e : EngineId) (hdropped : (s.estate e).dropped = false) :
      Step s (.drop e ((s.heap e).drainDebts e)) { s with
        estates := s.estates.modify e.index fun x => ⟨x.heap.enact (.op .drainReleases), true⟩
        owed := (s.heap e).drainDebts e ++ s.owed }
  | pay (s : Scene) (debt : Debt) (rest : List Debt) (howed : s.owed = debt :: rest) :
      Step s (.pay debt) { s with owed := rest, book := s.book ++ [.ran debt.visit] }
  | note (s : Scene) (entry : Entry) (hentry : s.Notes entry) :
      Step s (.note entry) { s with book := s.book ++ [entry] }

lemma Step.unique {s a b : Scene} (ha : s.Step i a) (hb : s.Step i b) : a = b := by
  cases ha with
  | attach g rest hbegun =>
    cases hb with
    | attach _ other hother =>
      obtain ⟨-, rfl⟩ := List.cons.inj (hbegun.symm.trans hother)
      rfl
  | pay debt rest howed =>
    cases hb with
    | pay _ other hother =>
      obtain ⟨-, rfl⟩ := List.cons.inj (howed.symm.trans hother)
      rfl
  | _ =>
    cases hb
    rfl

end Scene

inductive Account : Scene → List Incident → Scene → Prop where
  | nil (s : Scene) : Account s [] s
  | cons {s s' s'' : Scene} {i : Incident} {rest : List Incident} (hstep : s.Step i s')
      (hrest : Account s' rest s'') : Account s (i :: rest) s''

namespace Account

variable {s s' s'' : Scene} {xs ys : List Incident}

lemma append (hab : Account s xs s') (hbc : Account s' ys s'') : Account s (xs ++ ys) s'' := by
  induction hab with
  | nil => exact hbc
  | cons hstep _ ih => exact .cons hstep (ih hbc)

lemma single (hstep : s.Step i s') : Account s [i] s' := .cons hstep (.nil s')

lemma split (h : Account s (xs ++ ys) s'') : ∃ s', Account s xs s' ∧ Account s' ys s'' := by
  induction xs generalizing s with
  | nil => exact ⟨s, .nil s, h⟩
  | cons i rest ih =>
    cases h with
    | cons hstep hrest =>
      obtain ⟨s', hfirst, hsecond⟩ := ih hrest
      exact ⟨s', .cons hstep hfirst, hsecond⟩

lemma unique (ha : Account s xs s') (hb : Account s xs s'') : s' = s'' := by
  induction ha with
  | nil =>
    cases hb
    rfl
  | cons hstep _ ih =>
    cases hb with
    | cons hother hrest =>
      obtain rfl := hstep.unique hother
      exact ih hrest

lemma rest (h : Account s (xs ++ ys) s'') (hfirst : Account s xs s') : Account s' ys s'' := by
  obtain ⟨middle, hmiddle, hsecond⟩ := h.split
  rwa [hfirst.unique hmiddle]

end Account

variable {σ : Type} {host : Host σ} {ledger : σ → List Entry} {e : EngineId}

namespace World

def estates (w : World σ) : Array Estate := w.engines.map fun engine => ⟨engine.heap, engine.dropped⟩

lemma getD_estates (w : World σ) (e : EngineId) :
    w.estates.getD e.index default = ⟨(w.engine e).heap, (w.engine e).dropped⟩ := by
  simp only [estates, engine, Array.getD_eq_getD_getElem?, Array.getElem?_map]
  cases w.engines[e.index]? <;> rfl

lemma estates_modify (w : World σ) (e : EngineId) (f : Estate → Estate) (g : Engine → Engine)
    (hfg : f ⟨(w.engine e).heap, (w.engine e).dropped⟩ =
      ⟨(g (w.engine e)).heap, (g (w.engine e)).dropped⟩) :
    w.estates.modify e.index f = (w.modifyEngine e g).estates := by
  refine Array.ext_getElem? fun i => ?_
  simp only [estates, modifyEngine, Array.getElem?_map, Array.getElem?_modify]
  split
  · rename_i hi
    cases hfound : w.engines[i]? with
    | none => rfl
    | some engine =>
      rw [engine_of_getElem? e engine (hi ▸ hfound)] at hfg
      simp [hfg]
  · rfl

lemma estates_of_eq (hsize : w'.engines.size = w.engines.size)
    (hheap : ∀ e, (w'.engine e).heap = (w.engine e).heap)
    (hdropped : ∀ e, (w'.engine e).dropped = (w.engine e).dropped) : w'.estates = w.estates := by
  refine Array.ext (by simp [estates, hsize]) fun i hi hi' => ?_
  have hsame : w'.estates.getD i default = w.estates.getD i default := by
    rw [w'.getD_estates ⟨i⟩, w.getD_estates ⟨i⟩, hheap, hdropped]
  rw [Array.getD_eq_getD_getElem?, Array.getD_eq_getD_getElem?, Array.getElem?_eq_getElem hi,
    Array.getElem?_eq_getElem hi'] at hsame
  exact hsame

lemma Replaces.estates (hr : w.Replaces e h w') :
    w'.estates = (w.setHeap e h).estates :=
  congrArg (·.map fun engine => (⟨engine.heap, engine.dropped⟩ : Estate)) hr.engines

def scene (ledger : σ → List Entry) (w : World σ) (owed : List Debt)
    (begun : List (EngineId × ObjectRef)) (bonds : List Bond) : Scene :=
  ⟨w.estates, owed, begun, bonds, ledger w.host⟩

section Scenes

variable {w w' : World σ} {owed : List Debt} {begun : List (EngineId × ObjectRef)}
  {bonds : List Bond}

lemma estate_scene (e : EngineId) :
    (w.scene ledger owed begun bonds).estate e = ⟨(w.engine e).heap, (w.engine e).dropped⟩ :=
  getD_estates w e

lemma heap_scene (e : EngineId) : (w.scene ledger owed begun bonds).heap e = (w.engine e).heap := by
  rw [Scene.heap, estate_scene]

lemma scene_enact (e : EngineId) (d : Heap.Deed) :
    (w.scene ledger owed begun bonds).enact e d =
      (w.setHeap e ((w.engine e).heap.enact d)).scene ledger owed begun bonds := by
  rw [scene, Scene.enact, w.estates_modify e _ ({ · with heap := (w.engine e).heap.enact d }) rfl]
  rfl

lemma scene_congr (hestates : w'.estates = w.estates) (hledger : ledger w'.host = ledger w.host) :
    w'.scene ledger owed begun bonds = w.scene ledger owed begun bonds := by
  rw [scene, scene, hestates, hledger]

lemma Replaces.scene (hr : w.Replaces e h w') :
    w'.scene ledger owed begun bonds =
      (w.setHeap e h).scene ledger owed begun bonds :=
  scene_congr hr.estates (congrArg ledger hr.host)

end Scenes

lemma index_lt_estates (he : w.HasEngine e) : e.index < w.estates.size := by
  simpa [estates, HasEngine] using he

-- One world comes from another, with an account of how that the ledger agrees with, and nothing new
-- is owed or left to be done in the end.
def Tells (ledger : σ → List Entry) (fresh : List Bond) (w w' : World σ) : Prop :=
  ∃ incidents, ∀ owed begun bonds,
    Account (w.scene ledger owed begun bonds) incidents (w'.scene ledger owed begun (fresh ++ bonds))

def Told (ledger : σ → List Entry) (w w' : World σ) : Prop := ∃ fresh, Tells ledger fresh w w'

def Noted (ledger : σ → List Entry) (visit : Host.Visit) (w w' : World σ) : Prop :=
  ∃ s, ledger s = ledger w.host ++ [.ran visit] ∧ Told ledger { w with host := s } w'

namespace Tells

variable {w w' w'' : World σ} {fresh : List Bond}

lemma of_eq (hestates : w'.estates = w.estates) (hledger : ledger w'.host = ledger w.host) :
    Tells ledger [] w w' := by
  refine ⟨[], fun owed begun bonds => ?_⟩
  rw [scene_congr hestates hledger]
  exact .nil _

lemma trans {later : List Bond} (hab : Tells ledger fresh w w') (hbc : Tells ledger later w' w'') :
    Tells ledger (later ++ fresh) w w'' := by
  obtain ⟨xs, hfirst⟩ := hab
  obtain ⟨ys, hsecond⟩ := hbc
  refine ⟨xs ++ ys, fun owed begun bonds => (hfirst owed begun bonds).append ?_⟩
  rw [List.append_assoc]
  exact hsecond owed begun (fresh ++ bonds)

lemma single
    (hstep : ∀ owed begun bonds, (w.scene ledger owed begun bonds).Step i
      (w'.scene ledger owed begun bonds)) : Tells ledger [] w w' :=
  ⟨[i], fun owed begun bonds => .single (hstep owed begun bonds)⟩

lemma deed (w : World σ) (e : EngineId) (d : Heap.Deed) (hd : d.Modest (w.engine e).heap) :
    Tells ledger [] w (w.setHeap e ((w.engine e).heap.enact d)) := by
  refine .single (i := .deed e d) fun owed begun bonds => ?_
  rw [← scene_enact]
  exact .deed _ e d (by rwa [heap_scene])

lemma modest (w : World σ) (e : EngineId) (h : Heap) (hl : (w.engine e).heap.Modestly h) :
    Tells ledger [] w (w.setHeap e h) := by
  by_cases he : w.HasEngine e
  · induction hl with
    | refl => exact .of_eq (Replaces.refl w).estates.symm rfl
    | tail _ hstep ih =>
      obtain ⟨d, hd, rfl⟩ := hstep
      rename_i h _
      have hheap := heap_modifyEngine he h
      have hdeed : Tells ledger [] (w.setHeap e h) _ :=
        .deed _ e d (by rwa [hheap])
      rw [hheap] at hdeed
      have hagain := (Replaces.modifyEngine w e h).again (h.enact d)
      obtain ⟨xs, haccount⟩ := ih.trans hdeed
      refine ⟨xs, fun owed begun bonds => ?_⟩
      rw [← hagain.scene]
      exact haccount owed begun bonds
  · rw [setHeap, modifyEngine_of_missing he]
    exact .of_eq rfl rfl

lemma birth {h₁ : Heap} {o : HeapObject} {f : ReclaimHook} {slot : PersistentRef}
    (he : w.HasEngine e) (hl : (w.engine e).heap.Works h₁) (hc : o.charge = none)
    (ho : h₁.allocate o = (r, h))
    (hinside : Tells ledger fresh (w.setHeap e h) w')
    (hslot : ((w'.engine e).heap.hold r (some f)).1 = some slot) :
    Tells ledger (.ward ⟨e, r, f, slot⟩ :: fresh) w
      (w'.setHeap e ((w'.engine e).heap.hold r (some f)).2) := by
  obtain ⟨xs, hbefore⟩ : Tells ledger [] w (w.setHeap e h₁) :=
    .modest w e h₁ hl.plainly.modestly
  obtain ⟨ys, hduring⟩ := hinside
  have hheap := heap_modifyEngine he h₁
  have hmade := (Replaces.modifyEngine w e h₁).again h
  have hthere : (w.setHeap e h₁).HasEngine e :=
    (hasEngine_modifyEngine w e e _).mpr he
  refine ⟨xs ++ .bear e o :: (ys ++ [.attach ⟨e, r, f, slot⟩]), fun owed begun bonds =>
    (hbefore owed begun bonds).append (.cons ?_
      ((hduring owed ((e, r) :: begun) bonds).append (.single ?_)))⟩
  · have hstep := Scene.Step.bear ((w.setHeap e h₁).scene ledger owed begun
      bonds) e o (index_lt_estates hthere) hc
    rw [heap_scene, hheap, ho, scene_enact, hheap] at hstep
    have hheap' : h₁.enact (.op (.allocate o)) = h := congrArg Prod.snd ho
    rw [hheap'] at hstep
    have hscene : _ = (w.setHeap e h).scene ledger owed ((e, r) :: begun)
      bonds := hmade.scene
    rw [← hscene]
    exact hstep
  · have hstep := Scene.Step.attach (w'.scene ledger owed ((e, r) :: begun) (fresh ++ bonds))
      ⟨e, r, f, slot⟩ begun rfl (by rwa [heap_scene])
    rw [scene_enact] at hstep
    exact hstep

lemma enter (w : World σ) (e : EngineId) (n : EnvironmentId) : Tells ledger [] w (w.entered e n) :=
  have hopened : Tells ledger [] w (w.setHeap e (w.engine e).heap.pushScope) :=
    .deed w e (.op .pushScope) trivial
  hopened.trans (.of_eq rfl rfl)

lemma leave (w : World σ) (e : EngineId) (n : EnvironmentId) (c : Completion) :
    Tells ledger [] w (Engine.left e n (c, w)).2 := by
  have hclosed : Tells ledger [] w
      (w.setHeap e ((w.engine e).heap.leave c)) :=
    .modest w e _ (Heap.modestly_leave _ c)
  refine hclosed.trans (.of_eq ?_ ?_)
  · rw [Engine.left_apply]
    rfl
  · rw [Engine.left_apply]
    rfl

lemma wrap (w : World σ) (he : w.HasEngine e) (memory : HostMemory) (release : Option ReleaseHook) :
    Tells ledger ((w.scene ledger [] [] []).loans e memory release) w (w.modifyEngine e ({ · with
      heap := ((w.engine e).heap.newExternalBuffer memory release).2 })) := by
  refine ⟨[.wrap e memory release], fun owed begun bonds => .single ?_⟩
  have hstep := Scene.Step.wrap (w.scene ledger owed begun bonds) e memory release
    (index_lt_estates he)
  rw [scene_enact] at hstep
  exact hstep

end Tells

namespace Told

variable {w w' w'' : World σ}

lemma trans (hab : Told ledger w w') (hbc : Told ledger w' w'') : Told ledger w w'' := by
  obtain ⟨_, hfirst⟩ := hab
  obtain ⟨_, hsecond⟩ := hbc
  exact ⟨_, hfirst.trans hsecond⟩

lemma birth (he : w.HasEngine e) (hb : (w.engine e).heap.Bears r h)
    (hinside : Told ledger (w.setHeap e h) w') (f : ReclaimHook) :
    Told ledger w
      (w'.setHeap e ((w'.engine e).heap.hold r (some f)).2) := by
  obtain ⟨fresh, hinside⟩ := hinside
  cases hslot : ((w'.engine e).heap.hold r (some f)).1 with
  | some slot =>
    obtain ⟨h₁, o, hl, hc, ho, -⟩ := hb
    exact ⟨_, hinside.birth he hl hc ho hslot⟩
  | none =>
    have hidle : ((w'.engine e).heap.hold r (some f)).2 = (w'.engine e).heap :=
      Heap.hold_of_none hslot
    have hmade : Tells ledger [] w (w.setHeap e h) :=
      .modest w e h hb.works.plainly.modestly
    have hsame : Tells ledger [] w' (w'.setHeap e (w'.engine e).heap) :=
      .of_eq (Replaces.refl w').estates.symm rfl
    rw [hidle]
    exact ⟨_, (hmade.trans hinside).trans hsame⟩

lemma serves {debts : List Debt} (h : Serves (Noted ledger) (debts.map Debt.visit) w w') :
    ∃ incidents fresh, ∀ owed begun bonds,
      Account (w.scene ledger (debts ++ owed) begun bonds) incidents
        (w'.scene ledger owed begun (fresh ++ bonds)) := by
  induction debts generalizing w with
  | nil =>
    cases h with
    | nil => exact ⟨[], [], fun owed begun bonds => .nil _⟩
  | cons debt rest ih =>
    cases h with
    | cons hfirst hrest =>
      obtain ⟨s, hs, fresh, xs, haccount⟩ := hfirst
      obtain ⟨ys, later, haccount'⟩ := ih hrest
      refine ⟨.pay debt :: (xs ++ ys), later ++ fresh, fun owed begun bonds => ?_⟩
      rw [List.append_assoc]
      refine .cons ?_ ((haccount (rest ++ owed) begun bonds).append (haccount' owed begun _))
      rw [scene, scene, hs]
      exact .pay _ debt (rest ++ owed) rfl

lemma collect (h : Serves (Noted ledger) (w.engine e).heap.collect.1.visits
    (w.setHeap e (w.engine e).heap.collect.2) w') : Told ledger w w' := by
  rw [← Heap.map_debts _ e] at h
  obtain ⟨incidents, fresh, haccount⟩ := serves h
  refine ⟨fresh, .collect e ((w.engine e).heap.debts e) :: incidents, fun owed begun bonds =>
    .cons ?_ (haccount owed begun bonds)⟩
  have hstep := Scene.Step.collect (w.scene ledger owed begun bonds) e
  rw [scene_enact, heap_scene] at hstep
  exact hstep

lemma reap (hdropped : (w.engine e).dropped = false)
    (h : Serves (Noted ledger) (w.engine e).heap.drainVisits (w.reaped e) w') : Told ledger w w' := by
  rw [← Heap.map_drainDebts _ e] at h
  obtain ⟨incidents, fresh, haccount⟩ := serves h
  refine ⟨fresh, .drop e ((w.engine e).heap.drainDebts e) :: incidents, fun owed begun bonds =>
    .cons ?_ (haccount owed begun bonds)⟩
  have hestates : w.estates.modify e.index
      (fun x => ⟨x.heap.enact (.op .drainReleases), true⟩) = (w.reaped e).estates :=
    w.estates_modify e _ _ rfl
  have hstep := Scene.Step.drop (w.scene ledger owed begun bonds) e (by rw [estate_scene, hdropped])
  rw [heap_scene] at hstep
  have hafter : (w.reaped e).scene ledger ((w.engine e).heap.drainDebts e ++ owed) begun bonds =
      { w.scene ledger owed begun bonds with
        estates := w.estates.modify e.index fun x => ⟨x.heap.enact (.op .drainReleases), true⟩
        owed := (w.engine e).heap.drainDebts e ++ owed } := by
    rw [scene, ← hestates]
    rfl
  rw [hafter]
  exact hstep

end Told

lemma order_told (ledger : σ → List Entry) : Order (Told ledger) (Noted ledger) where
  refl _ := ⟨[], .of_eq rfl rfl⟩
  trans hab hbc := hab.trans hbc
  heap w e h hp := ⟨[], .modest w e h hp.plainly.modestly⟩
  aside hhost hsize hheap hdropped :=
    ⟨[], .of_eq (estates_of_eq hsize hheap hdropped) (congrArg ledger hhost)⟩
  addEngine w limits held := by
    refine ⟨[], .single (i := .spawn limits) fun owed begun bonds => ?_⟩
    have hestates : (w.addEngine { heap := .fresh limits, held }).2.estates =
        w.estates.push ⟨.fresh limits, false⟩ := by
      simp [estates, addEngine]
    rw [scene, scene, hestates]
    exact .spawn _ limits
  native w w' e n c h :=
    have hinside : Told ledger w w' := Told.trans ⟨_, .enter w e n⟩ h
    hinside.trans ⟨_, .leave w' e n c⟩
  collect _ _ _ h := .collect h
  reap _ _ _ hdropped h := .reap hdropped h
  external w e memory release := by
    by_cases he : w.HasEngine e
    · exact ⟨_, .wrap w he memory release⟩
    · rw [modifyEngine_of_missing he]
      exact ⟨[], .of_eq rfl rfl⟩
  newborn w e r h f he hb := by
    have hidle : Told ledger (w.setHeap e h)
        (w.setHeap e h) := ⟨[], .of_eq rfl rfl⟩
    obtain ⟨fresh, xs, haccount⟩ := Told.birth he hb hidle f
    rw [heap_modifyEngine he] at haccount
    refine ⟨fresh, xs, fun owed begun bonds => ?_⟩
    rw [← ((Replaces.modifyEngine w e h).again _).scene]
    exact haccount owed begun bonds
  construct w w' e n r h f c he hb hinside := by
    have hcalled : Told ledger (w.setHeap e h) w' :=
      Told.trans ⟨_, .enter _ e n⟩ hinside
    exact (Told.birth he hb hcalled f).trans ⟨_, .leave _ e n c⟩

end World

end HostBoundary
