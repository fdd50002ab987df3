import HostBoundary.Proofs.LawfulRuns

namespace HostBoundary

open Engine

variable {σ α β : Type} {host : Host σ} {n : EnvironmentId} {e : EngineId}
  {given : List EnvironmentId} {R : World σ → World σ → Prop}
  {V : Host.Visit → World σ → World σ → Prop} {act : Act σ α} {w w' w₁ : World σ}
  {f r target : ObjectRef} {data : CallbackData} {h h' : Heap} {action : Action}
  {op : Environment.Operation.Known}

namespace Heap

def Bears (h : Heap) (r : ObjectRef) (h' : Heap) : Prop :=
  ∃ h₁ o, h.Works h₁ ∧ o.charge = none ∧ h₁.allocate o = (r, h') ∧ h₁.Move h'

lemma Bears.works (hb : h.Bears r h') : h.Works h' := by
  obtain ⟨h₁, o, hl, -, -, hm⟩ := hb
  exact hl.trans (Moves.of_move hm).works

lemma bears_newInstance {t : TemplateRef} (hn : h.newInstance t = (some r, h')) : h.Bears r h' := by
  obtain ⟨h₁, template, p, hl, ht, hp, ho⟩ := newInstance_of_some hn
  have hmove : h₁.Move (h₁.allocate (template.instanceOf p)).2 := .newInstance t template p ht hp
  rw [ho] at hmove
  exact ⟨h₁, _, hl.works, rfl, ho, hmove⟩

def Reclaimed.visits (reclaimed : Reclaimed) : List Host.Visit :=
  reclaimed.hooks.map (fun (hook, fields) => .reclaim hook fields) ++
    reclaimed.releases.map fun (hook, memory) => .release hook memory

def drainVisits (h : Heap) : List Host.Visit :=
  h.drainReleases.1.map fun (hook, memory) => .release hook memory

end Heap

namespace Engine

lemma constructTarget_of_ok (hc : constructTarget e f w = (.ok (data, target), w₁)) :
    ∃ h, w₁ = w.setHeap e h ∧
      ((w.engine e).heap.body? f = some (.function (.native data)) ∧
          (w.engine e).heap.newObject = (target, h) ∨
        ∃ t, (w.engine e).heap.body? f = some (.function (.template t)) ∧
          (w.engine e).heap.constructor? t = some data ∧
          (w.engine e).heap.newInstance t = (some target, h)) := by
  have hraise : ∀ name message (w' : World σ),
      (raise e name message : Act σ (Except Throw (CallbackData × ObjectRef))) w' ≠
        (.ok (data, target), w₁) := by
    intro name message w' hc
    have herror : (Except.error _ : Except Throw (CallbackData × ObjectRef)) = .ok (data, target) :=
      congrArg Prod.fst hc
    cases herror
  rcases functionBody_cases w e f with ⟨body, hbody, hstep⟩ | ⟨thrown, w₂, hstep⟩
  · cases body with
    | native found =>
      simp only [constructTarget, bind_apply, hstep] at hc
      obtain ⟨hok, rfl⟩ := Prod.mk.inj hc
      obtain ⟨rfl, htarget⟩ := Prod.mk.inj (Except.ok.inj hok)
      exact ⟨_, rfl, .inl ⟨hbody, Prod.ext htarget rfl⟩⟩
    | template t =>
      cases hdata : (w.engine e).heap.constructor? t with
      | none =>
        simp only [constructTarget, bind_apply, hstep, Act.heap, hdata] at hc
        exact absurd hc (hraise _ _ _)
      | some found =>
        cases hn : ((Act.onHeap e (·.newInstance t) : Act σ (Option ObjectRef)) w).1 with
        | none =>
          simp only [constructTarget, bind_apply, hstep, Act.heap, hdata, hn] at hc
          exact absurd hc (hraise _ _ _)
        | some made =>
          simp only [constructTarget, bind_apply, hstep, Act.heap, hdata, hn] at hc
          obtain ⟨hok, rfl⟩ := Prod.mk.inj hc
          obtain ⟨rfl, rfl⟩ := Prod.mk.inj (Except.ok.inj hok)
          exact ⟨_, rfl, .inr ⟨t, hbody, hdata, Prod.ext hn rfl⟩⟩
  · simp only [constructTarget, bind_apply, hstep] at hc
    exact absurd (Prod.mk.inj hc).1 (by simp)

end Engine

namespace World

lemma modifyEngine_of_missing (he : ¬ w.HasEngine e) (f : Engine → Engine) :
    w.modifyEngine e f = w := by
  have hsame : w.engines.modify e.index f = w.engines := by
    refine Array.ext_getElem? fun i => ?_
    rw [Array.getElem?_modify]
    split
    · rename_i hi
      rw [← hi, Array.getElem?_eq_none (Nat.le_of_not_lt he)]
      rfl
    · rfl
  rw [World.modifyEngine, hsame]

lemma engine_of_missing (he : ¬ w.HasEngine e) : w.engine e = default := by
  rw [World.engine, Array.getD_eq_getD_getElem?, Array.getElem?_eq_none (Nat.le_of_not_lt he)]
  rfl

lemma hasEngine_of_body {body : Body} (hbody : (w.engine e).heap.body? r = some body) :
    w.HasEngine e := by
  by_contra hmissing
  have hnone : (default : Engine).heap.body? r = none := rfl
  rw [engine_of_missing hmissing, hnone] at hbody
  cases hbody

def reaped (w : World σ) (e : EngineId) : World σ :=
  w.modifyEngine e ({ · with heap := (w.engine e).heap.drainReleases.2, dropped := true })

lemma heap_reaped (w : World σ) (e d : EngineId) :
    ((w.reaped e).engine d).heap =
      ((w.setHeap e (w.engine e).heap.drainReleases.2).engine d).heap := by
  rw [reaped, engine_modifyEngine, engine_modifyEngine]
  split <;> rfl

-- Routines run one after the other, each of them from one world to the next.
inductive Serves (V : Host.Visit → World σ → World σ → Prop) :
    List Host.Visit → World σ → World σ → Prop where
  | nil (w : World σ) : Serves V [] w w
  | cons {visit : Host.Visit} {rest : List Host.Visit} {w w₁ w' : World σ}
      (hfirst : V visit w w₁) (hrest : Serves V rest w₁ w') : Serves V (visit :: rest) w w'

-- A relation that every move on a heap keeps, and whatever leaves heaps alone. Hooks that a
-- collection or the end of an engine leaves to be run have a relation of their own.
structure Order (R : World σ → World σ → Prop) (V : Host.Visit → World σ → World σ → Prop) : Prop where
  refl : ∀ w, R w w
  trans : ∀ {a b c}, R a b → R b c → R a c
  heap : ∀ (w : World σ) (e : EngineId) (h : Heap), (w.engine e).heap.Works h →
    R w (w.modifyEngine e ({ · with heap := h }))
  aside : ∀ {w w' : World σ}, w'.host = w.host → w'.engines.size = w.engines.size →
    (∀ e, (w'.engine e).heap = (w.engine e).heap) →
    (∀ e, (w'.engine e).dropped = (w.engine e).dropped) → R w w'
  addEngine : ∀ (w : World σ) (limits : HeapLimits) (held : Bool),
    R w (w.addEngine { heap := .fresh limits, held }).2
  native : ∀ (w w' : World σ) (e : EngineId) (n : EnvironmentId) (c : Completion),
    R (w.entered e n) w' → R w (Engine.left e n (c, w')).2
  collect : ∀ (w w' : World σ) (e : EngineId),
    Serves V (w.engine e).heap.collect.1.visits
      (w.modifyEngine e ({ · with heap := (w.engine e).heap.collect.2 })) w' → R w w'
  reap : ∀ (w w' : World σ) (e : EngineId), (w.engine e).dropped = false →
    Serves V (w.engine e).heap.drainVisits (w.reaped e) w' → R w w'
  external : ∀ (w : World σ) (e : EngineId) (memory : HostMemory) (release : Option ReleaseHook),
    R w (w.modifyEngine e ({ · with
      heap := ((w.engine e).heap.newExternalBuffer memory release).2 }))
  newborn : ∀ (w : World σ) (e : EngineId) (r : ObjectRef) (h : Heap) (f : ReclaimHook),
    w.HasEngine e → (w.engine e).heap.Bears r h →
      R w (w.modifyEngine e ({ · with heap := (h.hold r (some f)).2 }))
  construct : ∀ (w w' : World σ) (e : EngineId) (n : EnvironmentId) (r : ObjectRef) (h : Heap)
    (f : ReclaimHook) (c : Completion), w.HasEngine e → (w.engine e).heap.Bears r h →
      R ((w.modifyEngine e ({ · with heap := h })).entered e n) w' →
        R w (Engine.left e n (c, w'.modifyEngine e
          ({ · with heap := ((w'.engine e).heap.hold r (some f)).2 }))).2

lemma Serves.append {xs ys : List Host.Visit} {w'' : World σ} (hab : Serves V xs w w')
    (hbc : Serves V ys w' w'') : Serves V (xs ++ ys) w w'' := by
  induction hab with
  | nil => exact hbc
  | cons hfirst _ ih => exact .cons hfirst (ih hbc)

-- From one world to another with such a relation kept, and good ids.
structure Goes (R : World σ → World σ → Prop) (w w' : World σ) : Prop where
  staffed : w.Staffed → w'.Staffed
  retains : w.Retains w'
  kept : R w w'

-- Only the heap of one engine is another, and how many scopes environments know of.
structure Replaces (w : World σ) (e : EngineId) (h : Heap) (w' : World σ) : Prop where
  host : w'.host = w.host
  engines : w'.engines = (w.modifyEngine e ({ · with heap := h })).engines
  size : w'.environments.size = w.environments.size
  engine : ∀ n, (w'.environment n).engine = (w.environment n).engine
  running : ∀ n, (w'.environment n).running = (w.environment n).running

namespace Replaces

variable {w w' : World σ} {h : Heap}

lemma modifyEngine (w : World σ) (e : EngineId) (h : Heap) : w.Replaces e h (w.setHeap e h) :=
  ⟨rfl, rfl, rfl, fun _ => rfl, fun _ => rfl⟩

section

variable (hr : w.Replaces e h w')

include hr

lemma modifyEnvironment (n : EnvironmentId) {f : Environment → Environment}
    (hengine : ∀ env, (f env).engine = env.engine)
    (hrunning : ∀ env, (f env).running = env.running) :
    w.Replaces e h (w'.modifyEnvironment n f) where
  host := hr.host
  engines := hr.engines
  size := by
    rw [← hr.size]
    simp [World.modifyEnvironment]
  engine m := (environment_modifyEnvironment_congr (·.engine) (hengine _) m).trans (hr.engine m)
  running m := (environment_modifyEnvironment_congr (·.running) (hrunning _) m).trans (hr.running m)

omit hr in
lemma refl (w : World σ) : w.Replaces e (w.engine e).heap w where
  host := rfl
  engines := by
    refine Array.ext_getElem? fun i => ?_
    simp only [World.modifyEngine, Array.getElem?_modify]
    split
    · rename_i hi
      cases hfound : w.engines[i]? with
      | none => rfl
      | some engine =>
        rw [engine_of_getElem? e engine (hi ▸ hfound)]
        rfl
    · rfl
  size := rfl
  engine _ := rfl
  running _ := rfl

lemma again (h' : Heap) : w.Replaces e h' (w'.setHeap e h') where
  host := hr.host
  engines := by
    refine Array.ext_getElem? fun i => ?_
    simp only [World.modifyEngine, hr.engines, Array.getElem?_modify]
    split
    · cases w.engines[i]? <;> rfl
    · rfl
  size := hr.size
  engine := hr.engine
  running := hr.running

lemma heap (d : EngineId) : (w'.engine d).heap = ((w.setHeap e h).engine d).heap :=
  congrArg (fun engines : Array Engine => (engines.getD d.index default).heap) hr.engines

lemma dropped (d : EngineId) : (w'.engine d).dropped = ((w.setHeap e h).engine d).dropped :=
  congrArg (fun engines : Array Engine => (engines.getD d.index default).dropped) hr.engines

lemma hasEngine (d : EngineId) : w'.HasEngine d ↔ w.HasEngine d := by
  rw [HasEngine, hr.engines]
  exact hasEngine_modifyEngine w e d _

lemma staffed (hw : w.Staffed) : w'.Staffed := by
  intro d m hd
  have hsame : (w'.engine d).dispatcher =
      ((w.setHeap e h).engine d).dispatcher :=
    congrArg (fun engines : Array Engine => (engines.getD d.index default).dispatcher) hr.engines
  rw [hsame] at hd
  rw [Has, hr.size, hr.engine]
  exact hw.modifyEngine e ({ · with heap := h }) rfl d m hd

lemma retains : w.Retains w' := by
  refine ⟨?_, hr.size.ge, fun m _ => hr.engine m, fun m _ => hr.running m⟩
  rw [hr.engines]
  exact (Retains.modifyEngine w e _).engines

end

lemma goes (hR : Order R V) (hr : w.Replaces e h w')
    (hk : R w (w.setHeap e h)) : w.Goes R w' where
  staffed := hr.staffed
  retains := hr.retains
  kept := hR.trans hk (hR.aside hr.host (congrArg Array.size hr.engines) hr.heap hr.dropped)

end Replaces

namespace Goes

variable {w w' w'' : World σ} (hR : Order R V)

include hR

lemma refl (w : World σ) : w.Goes R w := ⟨id, .refl w, hR.refl w⟩

lemma trans (hab : w.Goes R w') (hbc : w'.Goes R w'') : w.Goes R w'' :=
  ⟨fun hw => hbc.staffed (hab.staffed hw), hab.retains.trans hbc.retains,
    hR.trans hab.kept hbc.kept⟩

lemma heap (w : World σ) (e : EngineId) (h : Heap) (hp : (w.engine e).heap.Works h) :
    w.Goes R (w.setHeap e h) :=
  (Replaces.modifyEngine w e h).goes hR (hR.heap w e h hp)

lemma of_eq (hengines : w'.engines = w.engines) (henvironments : w'.environments = w.environments)
    (hhost : w'.host = w.host) : w.Goes R w' where
  staffed hw := hw.of_eq hengines henvironments
  retains := .of_eq (congrArg Array.size hengines) henvironments
  kept := hR.aside hhost (congrArg Array.size hengines)
    (fun e => congrArg (fun engines : Array Engine => (engines.getD e.index default).heap) hengines)
    fun e => congrArg (fun engines : Array Engine => (engines.getD e.index default).dropped) hengines

omit hR in
lemma think (w : World σ) (s : σ) (hk : R w { w with host := s }) : w.Goes R { w with host := s } :=
  ⟨fun hw => hw.of_eq rfl rfl, .of_eq rfl rfl, hk⟩

lemma modifyEnvironment (w : World σ) (n : EnvironmentId) (f : Environment → Environment)
    (hengine : (f (w.environment n)).engine = (w.environment n).engine)
    (hrunning : (f (w.environment n)).running = (w.environment n).running) :
    w.Goes R (w.modifyEnvironment n f) where
  staffed hw := hw.modifyEnvironment n f hengine
  retains := .modifyEnvironment w n f hengine hrunning
  kept := hR.aside rfl rfl (fun _ => rfl) fun _ => rfl

lemma modifyEngine (w : World σ) (e : EngineId) (f : Engine → Engine)
    (hf : (w.engine e).Kept (f (w.engine e))) : w.Goes R (w.modifyEngine e f) where
  staffed hw := hw.modifyEngine e f hf.dispatcher
  retains := .modifyEngine w e f
  kept := hR.aside rfl (by simp [World.modifyEngine]) (engine_modifyEngine_congr (·.heap) hf.heap)
    (engine_modifyEngine_congr (·.dropped) hf.dropped)

lemma addEngine (w : World σ) (limits : HeapLimits) (held : Bool) :
    w.Goes R (w.addEngine { heap := .fresh limits, held }).2 where
  staffed hw := hw.addEngine _ rfl
  retains := .addEngine w _
  kept := hR.addEngine w limits held

lemma seated (w : World σ) (e : EngineId) : w.Goes R (w.seated e) where
  staffed hw := hw.seated e
  retains := .seated w e
  kept := hR.aside rfl (by simp [World.seated, World.modifyEngine, World.addEnvironment])
    (w.heap_seated e) (engine_modifyEngine_congr (·.dropped) rfl)

lemma native (hn : w.Has n) (hg : (w.entered e n).Goes R w') (c : Completion) :
    w.Goes R (left e n (c, w')).2 where
  staffed hw := by
    have hentered : (w.entered e n).Staffed := (hw.modifyEngine e _ rfl).modifyEnvironment n _ rfl
    rw [left_apply]
    exact ((hg.staffed hentered).modifyEnvironment n _ rfl).modifyEngine e _ rfl
  retains := left_retains hn hg.retains c
  kept := hR.native w w' e n c hg.kept

-- A native call that constructs an object and attaches a finalizer to it in the end.
lemma construct (he : w.HasEngine e) (hn : w.Has n) (hb : (w.engine e).heap.Bears r h)
    (hg : ((w.setHeap e h).entered e n).Goes R w') (f : ReclaimHook)
    (c : Completion) :
    w.Goes R (left e n (c, w'.setHeap e
      ((w'.engine e).heap.hold r (some f)).2)).2 where
  staffed hw := by
    have hentered : ((w.setHeap e h).entered e n).Staffed :=
      ((hw.modifyEngine e _ rfl).modifyEngine e _ rfl).modifyEnvironment n _ rfl
    rw [left_apply]
    exact (((hg.staffed hentered).modifyEngine e _ rfl).modifyEnvironment n _ rfl).modifyEngine e _ rfl
  retains := by
    have hthere : (w.setHeap e h).Has n := hn
    exact (Replaces.modifyEngine w e h).retains.trans (left_retains hthere
      (hg.retains.trans (Replaces.modifyEngine w' e _).retains) c)
  kept := hR.construct w w' e n r h f c he hb hg.kept

end Goes

end World

-- Something that may be done at any time, given environments that are there.
def Act.Keeps (R : World σ → World σ → Prop) (given : List EnvironmentId) (act : Act σ α) : Prop :=
  ∀ w : World σ, w.Staffed → (∀ n ∈ given, w.Has n) → w.Goes R (act w).2

-- What is asked of a routine. Hooks have a relation of their own.
def Host.Visit.relation (R : World σ → World σ → Prop) (V : Visit → World σ → World σ → Prop) :
    Visit → World σ → World σ → Prop
  | .reclaim hook fields => V (.reclaim hook fields)
  | .release hook memory => V (.release hook memory)
  | _ => R

def Host.Keeps (R : World σ → World σ → Prop) (V : Visit → World σ → World σ → Prop)
    (host : Host σ) : Prop :=
  ∀ (visit : Visit) (w : World σ), visit.Valid w → w.Staffed →
    w.Goes (visit.relation R V) (host.visit visit w).2

lemma Act.Keeps.bind (hR : World.Order R V) {next : α → Act σ β} (h : Keeps R given act)
    (hnext : ∀ x, Keeps R given (next x)) : Keeps R given (act >>= next) := by
  intro w hw hgiven
  have hfirst := h w hw hgiven
  exact hfirst.trans hR (hnext (act w).1 (act w).2 (hfirst.staffed hw) fun n hn =>
    hfirst.retains.has (hgiven n hn))

lemma Engine.constructTarget_bears (hc : constructTarget e f w = (.ok (data, target), w₁)) :
    w.HasEngine e ∧ ∃ h, w₁ = w.setHeap e h ∧
      (w.engine e).heap.Bears target h := by
  have he : w.HasEngine e := by
    rcases functionBody_cases w e f with ⟨body, hbody, -⟩ | ⟨thrown, w₂, hstep⟩
    · exact World.hasEngine_of_body hbody
    · simp only [constructTarget, bind_apply, hstep] at hc
      exact absurd (Prod.mk.inj hc).1 (by simp)
  obtain ⟨h, rfl, ⟨-, hnew⟩ | ⟨t, -, -, hnew⟩⟩ := constructTarget_of_ok hc
  · have hmove : (w.engine e).heap.Move ((w.engine e).heap.newObject).2 := .create _ .ofPlain
    rw [hnew] at hmove
    exact ⟨he, h, rfl, _, _, .refl _, rfl, hnew, hmove⟩
  · exact ⟨he, h, rfl, Heap.bears_newInstance hnew⟩

lemma Environment.run_construct (function : NativeFunction) (flags : Flags)
    (finalizer : ReclaimHook) (r : ObjectRef) (args : List Value) (w : World σ) :
    run host n (.member (.construct function flags (some finalizer))) ⟨.construct, .object r, args⟩ w =
      match invoke host n function flags (some (.transient r)) args w with
      | (.error thrown, w') => (.error thrown, w')
      | (.ok _, w') => (.ok (.object r), w'.modifyEngine (w'.environment n).engine ({ · with
          heap := ((w'.engine (w'.environment n).engine).heap.hold r (some finalizer)).2 })) := by
  change (invoke host n function flags (some (.transient r)) args >>= _) w = _
  rw [Engine.bind_apply]
  cases invoke host n function flags (some (.transient r)) args w with
  | mk c w' =>
    cases c with
    | error thrown => rfl
    | ok value =>
      dsimp only
      rw [← attachFinalizer_eq]
      rfl

lemma Environment.reap_apply (e : EngineId) (w : World σ) :
    (reap host e w).2 =
      if (w.engine e).dropped = false ∧ w.isHeld e = false then
        (((w.engine e).heap.drainReleases.1.forM fun (hook, memory) => host.release hook memory :
          Act σ Unit) (w.reaped e)).2
      else w := by
  have hheap : ((w.modifyEngine e ({ · with dropped := true })).engine e).heap = (w.engine e).heap :=
    World.engine_modifyEngine_congr (·.heap) rfl e
  have hreaped : (w.modifyEngine e ({ · with dropped := true })).setHeap e
      (w.engine e).heap.drainReleases.2 = w.reaped e := by
    rw [World.reaped, World.setHeap, World.modifyEngine, World.modifyEngine, World.modifyEngine,
      modify_modify]
    rfl
  by_cases hidle : (w.engine e).dropped = false ∧ w.isHeld e = false
  · rw [if_pos hidle, ← hreaped, ← hheap]
    have hguard : (!(w.engine e).dropped && !w.isHeld e) = true := by simp [hidle]
    have hget : (MonadState.get : Act σ (World σ)) w = (w, w) := rfl
    simp only [reap, Engine.bind_apply, hget, hguard, if_true]
    rfl
  · rw [if_neg hidle]
    have hguard : (!(w.engine e).dropped && !w.isHeld e) = false := by
      by_contra hne
      simp at hne
      exact hidle hne
    have hget : (MonadState.get : Act σ (World σ)) w = (w, w) := rfl
    simp only [reap, Engine.bind_apply, hget, hguard]
    rfl

namespace Host.Keeps

variable (hR : World.Order R V) (hh : host.Keeps R V)

include hR hh

omit hR in
lemma serves (items : List α) (visit : α → Visit) (hv : ∀ x, (visit x).relation R V = V (visit x))
    (he : ∀ x, (visit x).environment? = none) {act : α → Act σ Unit}
    (hact : ∀ x w, (act x w).2 = (host.visit (visit x) w).2) (w : World σ) (hw : w.Staffed) :
    w.Goes (World.Serves V (items.map visit)) (items.forM act w).2 := by
  induction items generalizing w with
  | nil => exact ⟨id, .refl w, .nil w⟩
  | cons x rest ih =>
    have hfirst : w.Goes (V (visit x)) (act x w).2 := by
      rw [hact, ← hv x]
      exact hh (visit x) w (fun _ hn => absurd ((he x).symm.trans hn) (by simp)) hw
    have hrest := ih _ (hfirst.staffed hw)
    exact ⟨fun _ => hrest.staffed (hfirst.staffed hw), hfirst.retains.trans hrest.retains,
      .cons hfirst.kept hrest.kept⟩

omit hR in
lemma reclaims (hooks : List (ReclaimHook × Fields)) (w : World σ) (hw : w.Staffed) :
    w.Goes (World.Serves V (hooks.map fun (hook, fields) => .reclaim hook fields))
      ((hooks.forM fun (hook, fields) => host.reclaim hook fields : Act σ Unit) w).2 :=
  hh.serves hooks _ (fun _ => rfl) (fun _ => rfl) (fun _ _ => rfl) w hw

omit hR in
lemma releases (items : List (ReleaseHook × HostMemory)) (w : World σ) (hw : w.Staffed) :
    w.Goes (World.Serves V (items.map fun (hook, memory) => .release hook memory))
      ((items.forM fun (hook, memory) => host.release hook memory : Act σ Unit) w).2 :=
  hh.serves items _ (fun _ => rfl) (fun _ => rfl) (fun _ _ => rfl) w hw

lemma collectGarbage (e : EngineId) : Act.Keeps R given (Engine.collectGarbage host e) := by
  intro w hw _
  have hcollected := World.Replaces.modifyEngine w e (w.engine e).heap.collect.2
  have hreclaims := hh.reclaims (w.engine e).heap.collect.1.hooks _ (hcollected.staffed hw)
  have hstaffed := hreclaims.staffed (hcollected.staffed hw)
  have hreleases := hh.releases (w.engine e).heap.collect.1.releases _ hstaffed
  exact ⟨fun _ => hreleases.staffed hstaffed,
    hcollected.retains.trans (hreclaims.retains.trans hreleases.retains),
    hR.collect w _ e (hreclaims.kept.append hreleases.kept)⟩

lemma reap (e : EngineId) : Act.Keeps R given (Environment.reap host e) := by
  intro w hw _
  rw [Environment.reap_apply]
  split
  · rename_i hidle
    have hstaffed : (w.reaped e).Staffed := hw.modifyEngine e _ rfl
    have hreleases := hh.releases (w.engine e).heap.drainReleases.1 _ hstaffed
    exact ⟨fun _ => hreleases.staffed hstaffed,
      (World.Retains.modifyEngine w e _).trans hreleases.retains,
      hR.reap w _ e hidle.1 hreleases.kept⟩
  · exact .refl hR w

lemma frame (given : List EnvironmentId) : Act.Frame host fun act => Act.Keeps R given act where
  pure _ w _ _ := .refl hR w
  bind h hnext := .bind hR h hnext
  read _ w _ _ := .refl hR w
  moves e _ hf w _ _ := .heap hR w e _ (hf _).works
  update n _ hf w _ _ := .modifyEnvironment hR w n _ (hf _).engine (hf _).running
  detach e _ hf w _ _ := .modifyEngine hR w e _ (hf _)
  collectGarbage := hh.collectGarbage hR
  reap := hh.reap hR

omit hR in
lemma visiting (hn : n ∈ given) (visit : Visit) (hv : visit.environment? = some n) :
    Act.Keeps R given (host.visit visit) := by
  intro w hw hgiven
  have hgoes := hh visit w (fun _ hm => Option.some.inj (hv.symm.trans hm) ▸ hgiven n hn) hw
  cases visit with
  | reclaim | release => exact absurd hv (by simp [Visit.environment?])
  | _ => exact hgoes

lemma visits (hn : n ∈ given) : Act.Visits host n fun act => Act.Keeps R given act :=
  (hh.frame hR given).toGround.visits id (hh.visiting hn)

omit hR hh in
lemma entered (hw : w.Staffed) (hn : w.Has n) (e : EngineId) (hact : Act.Keeps R [n] act) :
    (w.entered e n).Goes R (act (w.entered e n)).2 := by
  refine hact _ ((hw.modifyEngine e _ rfl).modifyEnvironment n _ rfl) fun m hm => ?_
  rw [List.mem_singleton.mp hm]
  exact (has_entered w e n n).mpr hn

lemma dispatch_entered (hw : w.Staffed) (hn : w.Has n) (e : EngineId)
    (data : CallbackData) (i : Invocation)
    (hattach : i.kind = .construct → ∀ e target finalizer,
      Act.Keeps R [n] (Act.updateHeap e (Environment.attachFinalizer target finalizer))) :
    (w.entered e n).Goes R (Environment.dispatch host n data i (w.entered e n)).2 :=
  entered hw hn e ((hh.visits hR List.mem_cons_self).dispatch data i hattach)

lemma dispatch_construct (hw : w.Staffed) (hn : w.Has n) (e : EngineId) (data : CallbackData)
    (r : ObjectRef) (args : List Value) :
    let done := Environment.dispatch host n data ⟨.construct, .object r, args⟩ (w.entered e n)
    (w.entered e n).Goes R done.2 ∨
      ∃ w' finalizer, (w.entered e n).Goes R w' ∧
        done.2 = w'.modifyEngine (w'.environment n).engine ({ · with
          heap := ((w'.engine (w'.environment n).engine).heap.hold r (some finalizer)).2 }) := by
  intro done
  have hvisits : Act.Visits host n fun act => Act.Keeps R [n] act := hh.visits hR List.mem_cons_self
  have hmember : ∀ {member : MemberEntry}, (∀ function flags finalizer,
      member ≠ .construct function flags (some finalizer)) → Act.Keeps R [n]
        (Environment.invokeMember host n member ⟨.construct, .object r, args⟩) := fun hne =>
    hvisits.invokeMember _ _ fun function flags finalizer heq =>
      absurd heq (hne function flags finalizer)
  cases hl : ((w.entered e n).environment n).tables.lookup? data with
  | none =>
    have hdone : done = (do
        return .error (← Act.onHeap ((w.entered e n).environment n).engine
          (·.newError .error "native callback not found")) : Act σ Completion) (w.entered e n) := by
      simp only [done, Environment.dispatch, Act.environment, bind, StateT.bind, hl]
    rw [hdone]
    exact .inl (entered hw hn e (hvisits.returning
      (hvisits.moves _ fun h => h.moves_newError _ _) _))
  | some callback =>
    have hdone : done = _ := Environment.dispatch_of_lookup host _ n data _ callback hl
    rw [hdone]
    cases callback with
    | domain entry | function entry => exact .inl (entered hw hn e (hvisits.invoke _ _ _ _))
    | member member =>
      cases member with
      | method | property => exact .inl (entered hw hn e (hmember (by simp)))
      | construct function flags finalizer =>
        cases finalizer with
        | none => exact .inl (entered hw hn e (hmember (by simp)))
        | some finalizer =>
          have hinvoke := entered hw hn e
            (hvisits.invoke function flags (some (.transient r)) args)
          rw [Environment.run_construct]
          generalize Environment.invoke host n function flags (some (.transient r)) args
            (w.entered e n) = ran at hinvoke ⊢
          obtain ⟨c, w'⟩ := ran
          cases c with
          | error thrown => exact .inl hinvoke
          | ok value => exact .inr ⟨w', finalizer, hinvoke, rfl⟩

lemma dispatch (given : List EnvironmentId) (e : EngineId) (data : CallbackData) (i : Invocation)
    (hkind : i.kind ≠ .construct) : Act.Keeps R given (Engine.dispatch host e data i) := by
  intro w hw hgiven
  cases hd : w.dispatcher? e with
  | none =>
    rw [dispatch_of_none host w e data i hd]
    exact (hh.frame hR given).returning
      ((hh.frame hR given).moves e fun h => h.moves_newError _ _) _ w hw hgiven
  | some n =>
    obtain ⟨hn, -⟩ := hw e n (Option.filter_eq_some_iff.mp hd).1
    rw [dispatch_of_some host w e n data i hd, inScope_apply]
    exact .native hR hn (hh.dispatch_entered hR hw hn e data i fun h => absurd h hkind) _

lemma construct (given : List EnvironmentId) (e : EngineId) (f : ObjectRef) (args : List Value) :
    Act.Keeps R given (Engine.construct host e f args) := by
  intro w hw hgiven
  have hframe := hh.frame hR given
  have htarget := hframe.constructTarget e f w hw hgiven
  simp only [Engine.construct, Engine.bind_apply]
  cases hc : Engine.constructTarget e f w with
  | mk found w₁ =>
    rw [hc] at htarget
    change w.Goes R w₁ at htarget
    cases found with
    | error thrown => exact htarget
    | ok pair =>
      obtain ⟨data, target⟩ := pair
      have houtcome : ∀ c : Completion, Act.Keeps R given (do
          let result ← outcome e c
          return result.map fun value => value.object?.getD target :
            Act σ (Except Throw ObjectRef)) := fun c =>
        hframe.returning (hframe.outcome e c) _
      have hdispatch : w.Goes R
          (Engine.dispatch host e data ⟨.construct, .object target, args⟩ w₁).2 := by
        cases hd : w₁.dispatcher? e with
        | none =>
          rw [dispatch_of_none host w₁ e data _ hd]
          exact htarget.trans hR (hframe.returning
            (hframe.moves e fun h => h.moves_newError _ _) _ w₁
            (htarget.staffed hw) fun n hn => htarget.retains.has (hgiven n hn))
        | some n =>
          obtain ⟨he, h, rfl, hbears⟩ := constructTarget_bears hc
          obtain ⟨hn, hengine⟩ := htarget.staffed hw e n (Option.filter_eq_some_iff.mp hd).1
          rw [dispatch_of_some host _ e n data _ hd, inScope_apply]
          rcases hh.dispatch_construct hR (htarget.staffed hw) hn e data target args with
            hgoes | ⟨w', finalizer, hgoes, hdone⟩
          · exact htarget.trans hR (.native hR hn hgoes _)
          · have hsame : (w'.environment n).engine = e := by
              have hthere := (has_entered _ e n n).mpr hn
              rw [hgoes.retains.engine n hthere, environment_entered hn, if_pos rfl]
              exact hengine
            rw [hsame] at hdone
            have hthere : w.Has n := hn
            have hleft := World.Goes.construct hR he hthere hbears hgoes finalizer
            generalize Environment.dispatch host n data ⟨.construct, .object target, args⟩ _ = done
              at hdone ⊢
            obtain ⟨c, w''⟩ := done
            rw [show w'' = _ from hdone]
            exact hleft c
      exact hdispatch.trans hR (houtcome _ _ (hdispatch.staffed hw) fun n hn =>
        hdispatch.retains.has (hgiven n hn))

lemma plain (given : List EnvironmentId) : Act.Plain host fun act => Act.Keeps R given act where
  toFrame := hh.frame hR given
  dispatch := hh.dispatch hR given
  construct := hh.construct hR given
  works e _ hf w _ _ := .heap hR w e _ (hf _)

lemma setting (hstore : ∀ (w : World σ) (e : EngineId) (h : Heap), (w.engine e).heap.Stores h →
      R w (w.setHeap e h)) (given : List EnvironmentId) :
    Act.Setting host fun act => Act.Keeps R given act :=
  (hh.plain hR given).setting fun e _ hf w _ _ =>
    (World.Replaces.modifyEngine w e _).goes hR (hstore w e _ (hf _))

end Host.Keeps

namespace Environment

lemma makeWeak_apply (n : EnvironmentId) (slot : PersistentRef) (hook : Option ReclaimHook)
    (w : World σ) :
    (makeWeak n (.persistent slot) hook w).2 = w.setHeap (w.environment n).engine
      ((w.engine (w.environment n).engine).heap.weaken slot hook).2 := by
  simp only [makeWeak, Engine.bind_apply]
  split <;> rfl

lemma onHeap_apply (hengine : (w.environment n).engine = e) (hheap : (w.engine e).heap = h)
    (f : Heap → α × Heap) :
    (onHeap n f : Act σ α) w = ((f h).1, w.setHeap e (f h).2) := by
  subst hengine hheap
  rfl

-- A slot is made and made weak in one go, or only little happens.
lemma newWeakReference_cases (n : EnvironmentId) (object : Handle) (hook : Option ReclaimHook)
    (w : World σ) : let e := (w.environment n).engine
    let done : Option Handle × World σ := newWeakReference n object hook w
    ∃ h, (w.engine e).heap.Works h ∧
      (done.1 = none ∧ w.Replaces e h done.2 ∨
        w.HasEngine e ∧ ∃ r slot, (h.hold r hook).1 = some slot ∧ done.1 = some (.persistent slot) ∧
          w.Replaces e (h.hold r hook).2 done.2) := by
  intro e done
  have hresolve : (w.engine e).heap.Works ((w.engine e).heap.resolveHandle object).2 :=
    ((w.engine e).heap.moves_resolveHandle object).works
  have hresolved : (resolve n object : Act σ (Option ObjectRef)) w =
      (((w.engine e).heap.resolveHandle object).1,
        w.setHeap e ((w.engine e).heap.resolveHandle object).2) := rfl
  cases hfound : ((w.engine e).heap.resolveHandle object).1 with
  | none =>
    have hdone : done = (none, w.modifyEngine e ({ · with
        heap := ((w.engine e).heap.resolveHandle object).2 })) := by
      simp only [done, newWeakReference, newReference, Engine.bind_apply, hresolved, hfound]
      rfl
    rw [hdone]
    exact ⟨_, hresolve, .inl ⟨rfl, .modifyEngine w e _⟩⟩
  | some r =>
    have he : w.HasEngine e := by
      by_contra hmissing
      have hnone : ((default : Engine).heap.resolveHandle object).1 = none := by
        cases object <;> rfl
      rw [World.engine_of_missing hmissing, hnone] at hfound
      cases hfound
    generalize ((w.engine e).heap.resolveHandle object).2 = h at hresolve hresolved
    have hheap := World.heap_modifyEngine he h
    have hr := World.Replaces.modifyEngine w e h
    generalize hw₁ : w.setHeap e h = w₁ at hresolved hheap hr
    have hsame : (w₁.environment n).engine = e := hr.engine n
    have hpersist : (onHeap n (·.persist r) : Act σ (Option PersistentRef)) w₁ =
        ((h.persist r).1, w₁.setHeap e (h.persist r).2) :=
      onHeap_apply hsame hheap _
    have hkept : h.Works (h.persist r).2 := (Heap.Moves.of_move (.persist r)).works
    have hagain := hr.again (h.persist r).2
    cases hp : h.persist r with
    | mk made h₂ =>
      rw [hp] at hpersist hkept hagain
      cases made with
      | none =>
        have hdone : done = (none, w₁.setHeap e h₂) := by
          simp only [done, newWeakReference, newReference, Engine.bind_apply, hresolved,
            hfound, hpersist]
          rfl
        rw [hdone]
        exact ⟨h₂, hresolve.trans hkept, .inl ⟨rfl, hagain⟩⟩
      | some slot =>
        have hheap₂ := World.heap_modifyEngine ((hr.hasEngine e).mpr he) h₂
        have hhold : h.hold r hook = (some slot, (h₂.weaken slot hook).2) := by
          rw [Heap.hold, hp]
        have hlast := hagain.again (h₂.weaken slot hook).2
        have hweak : done = ((if (h₂.weaken slot hook).1 then some (.persistent slot) else none),
            (w₁.setHeap e h₂).setHeap e
              (h₂.weaken slot hook).2) := by
          have hstep : (onHeap n (·.weaken slot hook) : Act σ Bool)
              (w₁.setHeap e h₂) = ((h₂.weaken slot hook).1,
                (w₁.setHeap e h₂).setHeap e
                  (h₂.weaken slot hook).2) :=
            onHeap_apply (hagain.engine n) hheap₂ _
          have hdone : done = makeWeak n (.persistent slot) hook
              (w₁.setHeap e h₂) := by
            simp only [done, newWeakReference, newReference, Engine.bind_apply, hresolved,
              hfound, hpersist]
            rfl
          rw [hdone]
          simp only [makeWeak, Engine.bind_apply, hstep]
          split <;> rfl
        cases hb : (h₂.weaken slot hook).1 with
        | true =>
          refine ⟨h, hresolve, .inr ⟨he, r, slot, ?_, ?_, ?_⟩⟩
          · rw [hhold]
          · rw [hweak, hb]
            rfl
          · rw [hweak, hhold]
            exact hlast
        | false =>
          refine ⟨(h₂.weaken slot hook).2, ?_, .inl ⟨?_, ?_⟩⟩
          · have hidle : (h₂.weaken slot hook).2 = h₂ := by
              unfold Heap.weaken at hb ⊢
              split at hb
              · cases hb
              · rename_i hnot
                rw [if_neg hnot]
            rw [hidle]
            exact hresolve.trans hkept
          · rw [hweak, hb]
            rfl
          · rw [hweak]
            exact hlast

lemma newInstance_cases (n : EnvironmentId) (c : ClassId) (w : World σ) :
    let e := (w.environment n).engine
    let done : Option Handle × World σ := newInstance n c w
    (∃ h, (w.engine e).heap.Works h ∧ w.Replaces e h done.2 ∧
      ∀ compiled f, w.class? c = some compiled → compiled.finalizer = some f → done.1 = none) ∨
    w.HasEngine e ∧ ∃ compiled f r h, w.class? c = some compiled ∧ compiled.finalizer = some f ∧
      (w.engine e).heap.newInstance compiled.template = (some r, h) ∧
      done.1 = some (.transient r) ∧ w.Replaces e (h.hold r (some f)).2 done.2 := by
  intro e done
  have hget : (MonadState.get : Act σ (World σ)) w = (w, w) := rfl
  cases hclass : w.class? c with
  | none =>
    have hdone : done = (none, w) := by
      simp only [done, newInstance, Engine.bind_apply, hget, hclass]
      rfl
    rw [hdone]
    exact .inl ⟨_, .refl _, .refl w, fun _ _ hnone => absurd hnone (by simp)⟩
  | some compiled =>
    have hnew : (w.engine e).heap.Works _ :=
      ((w.engine e).heap.moves_newInstance compiled.template).works
    have hstep : (onHeap n (·.newInstance compiled.template) : Act σ (Option ObjectRef)) w = _ :=
      onHeap_apply rfl rfl _
    cases hmade : (w.engine e).heap.newInstance compiled.template with
    | mk made h =>
      rw [hmade] at hstep hnew
      have hreplaced := World.Replaces.modifyEngine w e h
      cases made with
      | none =>
        have hdone : done = (none, w.setHeap e h) := by
          simp only [done, newInstance, Engine.bind_apply, hget, hclass, hstep]
          rfl
        rw [hdone]
        exact .inl ⟨h, hnew, hreplaced, fun _ _ _ _ => rfl⟩
      | some r =>
        cases hf : compiled.finalizer with
        | none =>
          have hdone : done = (some (.transient r), w.setHeap e h) := by
            simp only [done, newInstance, Engine.bind_apply, hget, hclass, hstep, hf]
            rfl
          rw [hdone]
          refine .inl ⟨h, hnew, hreplaced, fun other f hother hsome => ?_⟩
          rw [← Option.some.inj hother, hf] at hsome
          cases hsome
        | some f =>
          have he : w.HasEngine e := by
            by_contra hmissing
            rw [World.engine_of_missing hmissing] at hmade
            exact nomatch (show none = some r from congrArg Prod.fst hmade)
          have hheap := World.heap_modifyEngine he h
          have hattach : (onHeap n (fun h => ((), attachFinalizer r f h)) : Act σ Unit)
              (w.setHeap e h) = _ := onHeap_apply rfl hheap _
          have hdone : done = (some (.transient r),
              (w.setHeap e h).setHeap e
                (attachFinalizer r f h)) := by
            simp only [done, newInstance, Engine.bind_apply, hget, hclass, hstep, hf]
            exact congrArg (fun x : Unit × World σ => (some (Handle.transient r), x.2)) hattach
          rw [hdone, attachFinalizer_eq]
          exact .inr ⟨he, compiled, f, r, h, rfl, hf, hmade, rfl, hreplaced.again _⟩

variable (hR : World.Order R V)

include hR

lemma newInstance_keeps (n : EnvironmentId) (c : ClassId) :
    Act.Keeps R given (newInstance n c) := by
  intro w _ _
  rcases newInstance_cases n c w with ⟨h, hnew, hr, -⟩ | ⟨he, _, f, r, h, -, -, hmade, -, hr⟩
  · exact hr.goes hR (hR.heap w _ h hnew)
  · exact hr.goes hR (hR.newborn w _ r h f he (Heap.bears_newInstance hmade))

lemma closed_keeps (hh : host.Keeps R V) (given : List EnvironmentId) (n : EnvironmentId) :
    Act.Closed host n fun act => Act.Keeps R given act :=
  (hh.plain hR given).closed n (fun _ w _ _ => .modifyEnvironment hR w n _ rfl rfl)
    (fun _ _ _ _ => .of_eq hR rfl rfl rfl) (newInstance_keeps hR n) fun e memory release w _ _ =>
      (World.Replaces.modifyEngine w e _).goes hR (hR.external w e memory release)

lemma attach_keeps (hh : host.Keeps R V) (e : EngineId) : Act.Keeps R given (attach e) := by
  intro w hw hgiven
  have hacquire : ∀ n, Act.Keeps R [] (acquire n) := (hh.frame hR []).acquire
  cases ha : (w.engine e).attached with
  | some n =>
    rw [attach_of_some w e n ha]
    exact hacquire n w hw (by simp)
  | none =>
    rw [attach_of_none w e ha]
    exact (World.Goes.seated hR w e).trans hR
      (hacquire ⟨w.environments.size⟩ _ (hw.seated e) (by simp))

lemma negotiate_keeps (hh : host.Keeps R V) (e : EngineId) (version : Int32) :
    Act.Keeps R given (negotiate e version) := by
  unfold negotiate
  split
  · exact (hh.frame hR given).returning (attach_keeps hR hh e) _
  · exact (hh.frame hR given).pure none

end Environment

namespace Foreign

lemma endContext_keeps (hR : World.Order R V) (hh : host.Keeps R V) (context : UInt64) :
    Act.Keeps R given (endContext host context) := by
  have hframe := hh.frame hR given
  refine hframe.bind hframe.get fun w => ?_
  split
  · exact hframe.bind (fun _ _ _ => .of_eq hR rfl rfl rfl) fun _ =>
      hframe.bind (hframe.teardown _) fun _ => hframe.bind (hframe.reap _) fun _ => hframe.pure _
  · exact hframe.pure _

lemma getEnvironment_keeps (hR : World.Order R V) (hh : host.Keeps R V) (context : UInt64)
    (version : Int32) :
    Act.Keeps R given (getEnvironment context version) := by
  have hframe := hh.frame hR given
  refine hframe.bind hframe.get fun w => ?_
  split
  · exact Environment.negotiate_keeps hR hh _ version
  · exact hframe.pure none

end Foreign

def Handle.slot? : Handle → Option PersistentRef
  | .transient _ => none
  | .persistent slot => some slot

namespace Action

def opens (w : World σ) : Action → Option EngineId
  | .operate n .pushScope => some (w.environment n).engine
  | .request e .pushScope => some e
  | .foreign env .pushScope => (Foreign.fullEnvironment env).map fun n => (w.environment n).engine
  | _ => none

-- The engine on which an action pops one. An environment that knows of none pops none.
def closes (w : World σ) : Action → Option EngineId
  | .operate n .popScope =>
    if (w.environment n).scopeDepth = 0 then none else some (w.environment n).engine
  | .request e .popScope => some e
  | .foreign env .popScope => (Foreign.fullEnvironment env).bind fun n =>
    if (w.environment n).scopeDepth = 0 then none else some (w.environment n).engine
  | _ => none

def releases (w : World σ) : Action → Option (EngineId × PersistentRef)
  | .operate n (.makeWeak handle _) | .operate n (.deleteReference handle) =>
    handle.slot?.map ((w.environment n).engine, ·)
  | .request e (.setWeak slot _) | .request e (.disposePersistent slot) => some (e, slot)
  | .releaseHandle e handle => handle.slot?.map (e, ·)
  | .foreign env (.deleteReference object) => (Foreign.fullEnvironment env).bind fun n =>
    (Handle.ofRaw? object).bind fun handle => handle.slot?.map ((w.environment n).engine, ·)
  | _ => none

def entrusts (w : World σ) : Action → Option (EngineId × PersistentRef)
  | .operate n (.newWeakReference object (some hook)) =>
    ((Environment.newWeakReference n object (some hook) w).1.bind Handle.slot?).map
      ((w.environment n).engine, ·)
  | .foreign env (.newWeakReference object (some hook)) =>
    (Foreign.fullEnvironment env).bind fun n => (Handle.ofRaw? object).bind fun handle =>
      ((Environment.newWeakReference n handle (some hook) w).1.bind Handle.slot?).map
        ((w.environment n).engine, ·)
  | _ => none

section Effects

variable {w : World σ} {action : Action} {slot : PersistentRef}

section Foreign

variable (env : Option ForeignEnvironment) (call : Foreign.Call.Known)

open Foreign in
lemma opens_foreign : (foreign env call).opens w =
    (call.operation? env).bind fun x => (operate x.1 x.2).opens w := by
  cases call with
  | pushScope => cases hn : fullEnvironment env <;> simp [opens, Call.operation?, fully, hn]
  | _ => simp [opens, Call.operation?, fully, anyway, Option.bind_assoc, Option.bind_map]

open Foreign in
lemma closes_foreign : (foreign env call).closes w =
    (call.operation? env).bind fun x => (operate x.1 x.2).closes w := by
  cases call <;> simp [closes, Call.operation?, fully, anyway, Option.bind_assoc, Option.bind_map]

open Foreign in
lemma releases_foreign : (foreign env call).releases w =
    (call.operation? env).bind fun x => (operate x.1 x.2).releases w := by
  cases call <;> simp [releases, Call.operation?, fully, anyway, Option.bind_assoc, Option.bind_map]

open Foreign in
lemma entrusts_foreign : (foreign env call).entrusts w =
    (call.operation? env).bind fun x => (operate x.1 x.2).entrusts w := by
  cases call with
  | newWeakReference o hook =>
    cases hook <;> simp [entrusts, Call.operation?, fully, Option.bind_assoc]
  | _ => simp [entrusts, Call.operation?, fully, anyway, Option.bind_assoc, Option.bind_map]

end Foreign

section Foreign

variable {env : Option ForeignEnvironment} {call : Foreign.Call.Known}

-- An entry point and the operation behind it come to the same, unless a class is refused.
lemma perform_foreign (hop : call.operation? env = some (n, op))
    (hclass : ∀ parent d, op ≠ .createClass parent d) :
    ((foreign env call).perform host w).2 = ((operate n op).perform host w).2 := by
  have hcarry : (foreign env call).perform host w = Foreign.carry host (some (n, op)) w := by
    rw [← hop]
    exact congrFun (Foreign.discard_perform env call) w
  rw [hcarry]
  cases op with
  | createClass parent d => exact absurd rfl (hclass parent d)
  | _ => rfl

lemma foreign_of_operate {f : Action → Option α} {x : α} (Q : World σ → Prop)
    (hf : f (foreign env call) = (call.operation? env).bind fun x => f (operate x.1 x.2))
    (hclass : ∀ n parent d, f (operate n (.createClass parent d)) = none)
    (hoperate : ∀ {n op}, f (operate n op) = some x → Q ((operate n op).perform host w).2)
    (hx : f (foreign env call) = some x) : Q ((foreign env call).perform host w).2 := by
  obtain ⟨⟨n, op⟩, hop, ho⟩ := Option.bind_eq_some_iff.mp (hf.symm.trans hx)
  rw [perform_foreign hop]
  · exact hoperate ho
  · rintro parent d rfl
    exact absurd ((hclass n parent d).symm.trans ho) (by simp)

end Foreign

lemma perform_of_opens (ho : action.opens w = some e) :
    w.Replaces e (w.engine e).heap.pushScope (action.perform host w).2 := by
  have hoperate : ∀ {n op}, (operate n op).opens w = some e →
      w.Replaces e (w.engine e).heap.pushScope ((operate n op).perform host w).2 := by
    intro n op ho
    cases op with
    | pushScope =>
      obtain rfl := Option.some.inj ho
      rw [show ((operate n .pushScope).perform host w).2 = (Environment.pushScope n w).2 from rfl,
        Environment.pushScope_apply]
      exact (World.Replaces.modifyEngine w _ _).modifyEnvironment n (fun _ => rfl) fun _ => rfl
    | _ => exact absurd ho (by simp [opens])
  cases action with
  | operate n op => exact hoperate ho
  | request d r =>
    cases r with
    | pushScope =>
      obtain rfl := Option.some.inj ho
      exact .modifyEngine w d _
    | _ => exact absurd ho (by simp [opens])
  | foreign env call =>
    exact foreign_of_operate (w.Replaces e _) (opens_foreign env call) (fun _ _ _ => rfl) hoperate ho
  | _ => exact absurd ho (by simp [opens])

def Closing (host : Host σ) (w : World σ) (e : EngineId) (w' : World σ) : Prop :=
  ∃ w₁, w.Replaces e (w.engine e).heap.popScope.2 w₁ ∧
    (w' = w₁ ∨ w' = (Engine.collectGarbage host e w₁).2)

lemma popScope_closing (hc : (if (w.environment n).scopeDepth = 0 then none
    else some (w.environment n).engine) = some e) :
    Closing host w e (Environment.popScope host n w).2 := by
  split at hc
  · cases hc
  · rename_i hd
    obtain rfl := Option.some.inj hc
    refine ⟨Environment.popped n w, ?_, ?_⟩
    · have hdepth : w.Replaces (w.environment n).engine (w.engine (w.environment n).engine).heap
          (w.modifyEnvironment n ({ · with scopeDepth := (w.environment n).scopeDepth - 1 })) :=
        (World.Replaces.refl w).modifyEnvironment n (fun _ => rfl) fun _ => rfl
      exact hdepth.again _
    · rw [Environment.popScope_of_pos w hd]
      split
      · exact .inr rfl
      · exact .inl rfl

lemma perform_of_closes (hc : action.closes w = some e) :
    Closing host w e (action.perform host w).2 := by
  have hoperate : ∀ {n op}, (operate n op).closes w = some e →
      Closing host w e ((operate n op).perform host w).2 := by
    intro n op hc
    cases op with
    | popScope => exact popScope_closing hc
    | _ => exact absurd hc (by simp [closes])
  cases action with
  | operate n op => exact hoperate hc
  | request d r =>
    cases r with
    | popScope =>
      obtain rfl := Option.some.inj hc
      refine ⟨_, .modifyEngine w d _, ?_⟩
      have hperform : ((Action.request d .popScope).perform host w).2 =
          ((if (w.engine d).heap.popScope.1 = true then Engine.collectGarbage host d
            else pure () : Act σ Unit)
            (w.setHeap d (w.engine d).heap.popScope.2)).2 := rfl
      rw [hperform]
      split
      · exact .inr rfl
      · exact .inl rfl
    | _ => exact absurd hc (by simp [closes])
  | foreign env call =>
    exact foreign_of_operate _ (closes_foreign env call) (fun _ _ _ => rfl) hoperate hc
  | _ => exact absurd hc (by simp [closes])

def Entrusting (w : World σ) (e : EngineId) (slot : PersistentRef) (w' : World σ) : Prop :=
  w.HasEngine e ∧ ∃ h r f, (w.engine e).heap.Works h ∧ (h.hold r (some f)).1 = some slot ∧
    w.Replaces e (h.hold r (some f)).2 w'

lemma perform_of_entrusts (he : action.entrusts w = some (e, slot)) :
    Entrusting w e slot (action.perform host w).2 := by
  have hoperate : ∀ {n op}, (operate n op).entrusts w = some (e, slot) →
      Entrusting w e slot ((operate n op).perform host w).2 := by
    intro n op he
    cases op with
    | newWeakReference object hook =>
      cases hook with
      | none => exact absurd he (by simp [entrusts])
      | some hook =>
        simp only [entrusts] at he
        obtain ⟨h, hl, ⟨hnone, -⟩ | ⟨hengine, r, made, hmade, hsome, hr⟩⟩ :=
          Environment.newWeakReference_cases n object (some hook) w
        · rw [hnone] at he
          cases he
        · rw [hsome] at he
          obtain ⟨rfl, rfl⟩ := Prod.mk.inj (Option.some.inj he)
          exact ⟨hengine, h, r, hook, hl, hmade, hr⟩
    | _ => exact absurd he (by simp [entrusts])
  cases action with
  | operate n op => exact hoperate he
  | foreign env call =>
    exact foreign_of_operate _ (entrusts_foreign env call) (fun _ _ _ => rfl) hoperate he
  | _ => exact absurd he (by simp [entrusts])

end Effects

def stores : Action → Bool
  | .operate _ op => op.stores
  | .request _ r => r.stores
  | .foreign env call => (call.operation? env).any (·.2.stores)
  | _ => false

lemma perform_of_stores (hR : World.Order R V) (hh : host.Keeps R V)
    (hstore : ∀ (w : World σ) (e : EngineId) (h : Heap), (w.engine e).heap.Stores h →
      R w (w.setHeap e h)) (hw : w.Staffed)
    (hs : action.stores = true) : w.Goes R (action.perform host w).2 := by
  have hset := hh.setting hR hstore []
  have hframe := hh.frame hR []
  have hperform : ∀ n op, op.stores = true → Act.Keeps R [] (Environment.perform host n op) :=
    fun n op => (Environment.closed_keeps hR hh [] n).perform_of_stores hset op
  have hof : ∀ {α : Type} {act : Act σ α}, Act.Keeps R [] act → w.Goes R (act w).2 :=
    fun h => h w hw (by simp)
  cases action with
  | operate n op => exact hof (hframe.map (hperform n op hs) _)
  | request e r => exact hof (hframe.map (hframe.serve_of_stores hset e r hs) _)
  | foreign env call =>
    refine hof (hframe.foreign env call fun n op hop => hperform n op ?_)
    rwa [stores, hop] at hs
  | _ => exact absurd hs (by simp [stores])

-- What an action stores and what it does to scopes and slots keeps the relation.
structure Kept (R : World σ → World σ → Prop) (host : Host σ) (w : World σ) (action : Action) : Prop where
  stores : action.stores = true → w.Goes R (action.perform host w).2
  opens : ∀ d, action.opens w = some d →
    R w (w.setHeap d (w.engine d).heap.pushScope)
  closes : ∀ d, action.closes w = some d →
    R w (w.setHeap d (w.engine d).heap.popScope.2)
  releases : ∀ d slot, action.releases w = some (d, slot) → ∀ op : Heap.Operation,
    (op = .dispose slot ∨ ∃ hook, op = .weaken slot hook) →
      R w (w.setHeap d ((w.engine d).heap.apply op).2)
  entrusts : ∀ d slot, action.entrusts w = some (d, slot) → ∀ h r f,
    (w.engine d).heap.Works h → (h.hold r (some f)).1 = some slot →
      R w (w.setHeap d (h.hold r (some f)).2)

section Kept

variable (hR : World.Order R V) (hh : host.Keeps R V) {w : World σ} (hw : w.Staffed)

lemma Kept.behind {env : Option ForeignEnvironment} {call : Foreign.Call.Known}
    (hk : (foreign env call).Kept R host w) (hop : call.operation? env = some (n, op)) :
    (operate n op).Kept R host w where
  stores hs := by
    rw [← perform_foreign hop (by rintro _ _ rfl; cases hs)]
    exact hk.stores (by rwa [Action.stores, hop])
  opens d hd := hk.opens d (by rwa [opens_foreign, hop])
  closes d hd := hk.closes d (by rwa [closes_foreign, hop])
  releases d slot hd := hk.releases d slot (by rwa [releases_foreign, hop])
  entrusts d slot hd := hk.entrusts d slot (by rwa [entrusts_foreign, hop])

include hR

lemma releaseHandle_goes (e : EngineId) (handle : Handle)
    (hreleases : ∀ slot, handle.slot? = some slot →
      R w (w.modifyEngine e ({ · with heap := ((w.engine e).heap.apply (.dispose slot)).2 }))) :
    w.Goes R (w.modifyEngine e ({ · with heap := ((w.engine e).heap.releaseHandle handle).2 })) := by
  cases handle with
  | transient target => exact .heap hR w e _ (.refl _)
  | persistent slot => exact (World.Replaces.modifyEngine w e _).goes hR (hreleases slot rfl)

include hh hw

lemma closing_goes (hc : Closing host w e w')
    (hpop : R w (w.setHeap e (w.engine e).heap.popScope.2)) :
    w.Goes R w' := by
  obtain ⟨w₁, hr, hdone⟩ := hc
  have hpopped := hr.goes hR hpop
  rcases hdone with rfl | rfl
  · exact hpopped
  · exact hpopped.trans hR ((hh.frame hR []).collectGarbage e w₁ (hpopped.staffed hw) (by simp))

lemma operate_goes (hk : (operate n op).Kept R host w) :
    w.Goes R ((operate n op).perform host w).2 := by
  by_cases hs : op.stores = true
  · exact hk.stores hs
  cases op with
  | pushScope => exact (perform_of_opens rfl).goes hR (hk.opens _ rfl)
  | popScope =>
    by_cases hd : (w.environment n).scopeDepth = 0
    · rw [show ((operate n .popScope).perform host w).2 = w from Environment.popScope_of_zero w hd]
      exact .refl hR w
    · have hc : (operate n .popScope).closes w = some (w.environment n).engine := if_neg hd
      exact closing_goes hR hh hw (perform_of_closes hc) (hk.closes _ hc)
  | newWeakReference object hook =>
    obtain ⟨h, hl, ⟨-, hr⟩ | ⟨-, r, slot, hmade, hsome, hr⟩⟩ :=
      Environment.newWeakReference_cases n object hook w
    · exact hr.goes hR (hR.heap w _ h hl)
    · refine hr.goes hR ?_
      cases hook with
      | none => exact hR.heap w _ _ (hl.trans (Heap.Moves.of_move (.hold r)).works)
      | some f => exact hk.entrusts _ slot (by simp [entrusts, hsome, Handle.slot?]) h r f hl hmade
  | makeWeak handle hook =>
    cases handle with
    | transient target => exact .refl hR w
    | persistent slot =>
      rw [show ((operate n (.makeWeak (.persistent slot) hook)).perform host w).2 =
        (Environment.makeWeak n (.persistent slot) hook w).2 from rfl, Environment.makeWeak_apply]
      exact (World.Replaces.modifyEngine w _ _).goes hR
        (hk.releases _ slot rfl (.weaken slot hook) (.inr ⟨hook, rfl⟩))
  | deleteReference handle =>
    exact releaseHandle_goes hR _ handle fun slot hslot =>
      hk.releases _ slot (by simp [releases, hslot]) _ (.inl rfl)
  | _ =>
    exact ((hh.frame hR []).map ((Environment.closed_keeps hR hh [] n).perform _
      (fun h => absurd h (by simp [Environment.Operation.plain])) (absurd · hs)) _) w hw (by simp)

lemma request_goes {r : Engine.Request.Known} (hk : (request e r).Kept R host w) :
    w.Goes R ((request e r).perform host w).2 := by
  by_cases hs : r.stores = true
  · exact hk.stores hs
  cases r with
  | pushScope => exact (perform_of_opens rfl).goes hR (hk.opens e rfl)
  | popScope => exact closing_goes hR hh hw (perform_of_closes rfl) (hk.closes e rfl)
  | setWeak slot hook =>
    exact (World.Replaces.modifyEngine w e _).goes hR
      (hk.releases e slot rfl (.weaken slot hook) (.inr ⟨hook, rfl⟩))
  | disposePersistent slot =>
    exact (World.Replaces.modifyEngine w e _).goes hR
      (hk.releases e slot rfl (.dispose slot) (.inl rfl))
  | _ =>
    exact ((hh.frame hR []).map ((hh.plain hR []).serve e _
      (fun h => absurd h (by simp [Engine.Request.plain])) (absurd · hs)) _) w hw (by simp)

lemma perform_goes (hk : action.Kept R host w) : w.Goes R (action.perform host w).2 := by
  have hframe := hh.frame hR []
  have hof : ∀ {α : Type} {act : Act σ α}, Act.Keeps R [] act → w.Goes R (act w).2 :=
    fun h => h w hw (by simp)
  cases action with
  | newEngine limits => exact .addEngine hR w limits true
  | dropEngine e =>
    exact hof (hframe.bind (hframe.detach e fun _ => ⟨rfl, rfl, rfl⟩) fun _ => hframe.reap e)
  | convert e value => exact hof (hframe.map (hframe.moves e fun h => h.moves_ofTagged value) _)
  | resolveHandle e handle =>
    exact hof (hframe.map (hframe.moves e fun h => h.moves_resolveHandle handle) _)
  | releaseHandle e handle =>
    exact releaseHandle_goes hR e handle fun slot hslot =>
      hk.releases e slot (by simp [releases, hslot]) _ (.inl rfl)
  | attach e => exact hof (hframe.map (Environment.attach_keeps hR hh e) _)
  | negotiate e version => exact hof (hframe.map (Environment.negotiate_keeps hR hh e version) _)
  | acquire n => exact hof (hframe.acquire n)
  | drop n => exact hof (hframe.drop n hframe.reap)
  | teardown e => exact hof (hframe.teardown e)
  | operate n op => exact operate_goes hR hh hw hk
  | request e r => exact request_goes hR hh hw hk
  | foreign env call =>
    rw [show (foreign env call).perform host = _ from Foreign.discard_perform env call]
    cases hop : call.operation? env with
    | none => exact .refl hR w
    | some pair =>
      have hfirst := operate_goes hR hh hw (hk.behind hop)
      exact hfirst.trans hR (hframe.refuse _ _ _ (hfirst.staffed hw) (by simp))
  | registerContext e => exact .of_eq hR rfl rfl rfl
  | newContext limits =>
    exact (World.Goes.addEngine hR w limits false).trans hR (.of_eq hR rfl rfl rfl)
  | endContext context => exact hof (hframe.map (Foreign.endContext_keeps hR hh context) _)
  | getEnvironment context version =>
    exact hof (hframe.map (Foreign.getEnvironment_keeps hR hh context version) _)

end Kept

end Action

-- A host of routines each of which goes its way from one world to another. Routines that they call
-- are of the same kind, down to routines that keep still.
inductive Host.Built (still : Visit → World σ → σ → Prop)
    (way : Host σ → Visit → World σ → World σ → Prop) : Host σ → Prop where
  | idle (host : Host σ)
      (hvisit : ∀ visit w, ∃ s, still visit w s ∧ (host.visit visit w).2 = { w with host := s }) :
      host.Built still way
  | nested (host : Host σ) (inner : Visit → World σ → Host σ)
      (hinner : ∀ visit w, (inner visit w).Built still way)
      (hvisit : ∀ visit w, visit.Valid w → w.Staffed →
        way (inner visit w) visit w (host.visit visit w).2) :
      host.Built still way

lemma Host.Built.keeps {still : Visit → World σ → σ → Prop}
    {way : Host σ → Visit → World σ → World σ → Prop}
    (hstill : ∀ visit w s, still visit w s → visit.relation R V w { w with host := s })
    (hway : ∀ host : Host σ, host.Keeps R V → ∀ visit w w', w.Staffed → way host visit w w' →
      w.Goes (visit.relation R V) w')
    (hb : host.Built still way) : host.Keeps R V := by
  induction hb with
  | idle host hvisit =>
    intro visit w _ hw
    obtain ⟨s, hs, hdone⟩ := hvisit visit w
    rw [hdone]
    exact .think w s (hstill visit w s hs)
  | nested host inner _ hvisit ih =>
    intro visit w hvalid hw
    exact hway (inner visit w) (ih visit w) visit w _ hw (hvisit visit w hvalid hw)

lemma Host.inert_built {still : Visit → World σ → σ → Prop}
    {way : Host σ → Visit → World σ → World σ → Prop} (hstill : ∀ visit w, still visit w w.host) :
    (Host.inert : Host σ).Built still way := by
  refine .idle _ fun visit w => ⟨w.host, hstill visit w, ?_⟩
  cases visit <;> rfl

-- All that native code may do, from one world to another: whatever there is to do, in any order.
inductive Conduct (host : Host σ) (w : World σ) : World σ → Prop where
  | start : Conduct host w w
  | think (w' : World σ) (s : σ) (hw : Conduct host w w') : Conduct host w { w' with host := s }
  | act (w' : World σ) (action : Action) (hw : Conduct host w w') :
      Conduct host w (action.perform host w').2

def Host.Free (host : Host σ) : Prop :=
  host.Built (fun _ _ _ => True) fun inner _ w w' => Conduct inner w w'

lemma Heap.leads_leave (h : Heap) (c : Completion) : h.Leads (h.leave c) := by
  have hpop : h.Leads h.popScope.2 := .op .popScope trivial
  unfold Heap.leave
  split
  · exact hpop.trans (.op (.root _) trivial)
  · exact hpop

namespace World

def AllGrown (w : World σ) : Prop := ∀ e, w.HasEngine e → (w.engine e).heap.Grown

-- What holds in every run: native calls go to the engine's own environment, and heaps came from
-- nothing by mild operations.
structure Regular (w : World σ) : Prop where
  staffed : w.Staffed
  grown : w.AllGrown

namespace AllGrown

variable {w w' : World σ} (hw : w.AllGrown)

include hw

lemma of_eq (hsize : w'.engines.size = w.engines.size)
    (hheap : ∀ e, (w'.engine e).heap = (w.engine e).heap) : w'.AllGrown := by
  intro e he
  rw [hheap]
  exact hw e (by rwa [HasEngine, hsize] at he)

lemma modifyEngine (hl : (w.engine e).heap.Leads h) :
    (w.modifyEngine e ({ · with heap := h })).AllGrown := by
  refine forall_modifyEngine (P := fun _ engine => engine.heap.Grown) hw ?_
  rintro ⟨limits, hgrown⟩
  exact ⟨limits, hgrown.trans hl⟩

lemma addEngine (limits : HeapLimits) (held : Bool) :
    (w.addEngine { heap := .fresh limits, held }).2.AllGrown :=
  forall_addEngine (P := fun _ engine => engine.heap.Grown) hw fun _ _ => Heap.grown_fresh limits

end AllGrown

lemma Serves.kept {visits : List Host.Visit} (hrefl : ∀ w, R w w)
    (htrans : ∀ {a b c}, R a b → R b c → R a c) (hs : Serves (fun _ => R) visits w w') :
    R w w' := by
  induction hs with
  | nil w => exact hrefl w
  | cons hfirst _ ih => exact htrans hfirst ih

def Grows (w w' : World σ) : Prop := w.AllGrown → w'.AllGrown

lemma order_grows : Order (Grows : World σ → World σ → Prop) fun _ => Grows where
  refl _ := id
  trans hab hbc hw := hbc (hab hw)
  heap _ _ _ hp hw := hw.modifyEngine hp.leads
  aside _ hsize hheap _ hw := hw.of_eq hsize hheap
  addEngine _ limits held hw := hw.addEngine limits held
  native w w' e n c h hw := by
    have hentered : (w.entered e n).AllGrown :=
      (hw.modifyEngine (.op .pushScope trivial)).of_eq rfl fun _ => rfl
    have hafter : (w'.modifyEnvironment n fun env => { env with running := env.running - 1 }).AllGrown :=
      (h hentered).of_eq rfl fun _ => rfl
    rw [left_apply]
    exact hafter.modifyEngine (Heap.leads_leave _ c)
  collect w w' e h hw := by
    have hhooks : Grows _ w' := h.kept (fun _ => id) fun hab hbc hw => hbc (hab hw)
    exact hhooks (hw.modifyEngine (.op .collect trivial))
  reap w w' e _ h hw := by
    have hhooks : Grows _ w' := h.kept (fun _ => id) fun hab hbc hw => hbc (hab hw)
    have hdrained : (w.setHeap e (w.engine e).heap.drainReleases.2).AllGrown :=
      hw.modifyEngine (.op .drainReleases trivial)
    exact hhooks (hdrained.of_eq (by simp [reaped, World.modifyEngine]) (w.heap_reaped e))
  external w e _ _ hw := hw.modifyEngine ((w.engine e).heap.leads_allocate _)
  newborn _ _ r h f _ hb hw :=
    hw.modifyEngine (hb.works.leads.trans (h.quietly_hold r (some f)).leads)
  construct w w' e n r h f c _ hb hinside hw := by
    have hmade : (w.setHeap e h).AllGrown := hw.modifyEngine hb.works.leads
    have hentered : ((w.setHeap e h).entered e n).AllGrown :=
      (hmade.modifyEngine (.op .pushScope trivial)).of_eq rfl fun _ => rfl
    have hattached := (hinside hentered).modifyEngine
      (((w'.engine e).heap.quietly_hold r (some f)).leads)
    have hafter : ((w'.modifyEngine e ({ · with
        heap := ((w'.engine e).heap.hold r (some f)).2 })).modifyEnvironment n
          fun env => { env with running := env.running - 1 }).AllGrown :=
      hattached.of_eq rfl fun _ => rfl
    rw [left_apply]
    exact hafter.modifyEngine (Heap.leads_leave _ c)

lemma Regular.goes (hw : w.Regular) (hg : w.Goes Grows w') : w'.Regular :=
  ⟨hg.staffed hw.staffed, hg.kept hw.grown⟩

lemma regular_empty (s : σ) : ({ host := s } : World σ).Regular where
  staffed e n hd := (sound_empty s).dispatcher e n hd
  grown e he := absurd he (by simp [HasEngine])

end World

lemma Host.Visit.relation_same (visit : Visit) : visit.relation R (fun _ => R) = R := by
  cases visit <;> rfl

lemma Conduct.goes (hc : Conduct host w w') (hw : w.Staffed)
    (hh : host.Keeps World.Grows fun _ => World.Grows) : w.Goes World.Grows w' := by
  have hR : World.Order (World.Grows : World σ → World σ → Prop) fun _ => World.Grows :=
    World.order_grows
  induction hc with
  | start => exact .refl hR w
  | think w' s _ ih => exact ih.trans hR (.think w' s id)
  | act w' action _ ih =>
    have hstaffed := ih.staffed hw
    refine ih.trans hR (action.perform_goes hR hh hstaffed
      ⟨Action.perform_of_stores hR hh ?_ hstaffed, ?_, ?_, ?_, ?_⟩)
    · exact fun _ _ _ hs hgrown => hgrown.modifyEngine hs.discreetly.leads
    · exact fun d _ hgrown => hgrown.modifyEngine (.op .pushScope trivial)
    · exact fun d _ hgrown => hgrown.modifyEngine (.op .popScope trivial)
    · rintro d slot - op (rfl | ⟨hook, rfl⟩) hgrown
      · exact hgrown.modifyEngine (.op (.dispose slot) trivial)
      · exact hgrown.modifyEngine (.op (.weaken slot hook) trivial)
    · intro d slot _ h r f hl _ hgrown
      exact hgrown.modifyEngine (hl.leads.trans (h.quietly_hold r (some f)).leads)

lemma Host.Free.keeps (hh : host.Free) : host.Keeps World.Grows fun _ => World.Grows := by
  refine Host.Built.keeps (fun visit w s _ => ?_) (fun host hk visit w w' hw hc => ?_) hh
  · rw [visit.relation_same]
    exact id
  · rw [visit.relation_same]
    exact hc.goes hw hk

lemma Conduct.regular (hh : host.Free) (hw : w.Regular) (hc : Conduct host w w') : w'.Regular :=
  hw.goes (hc.goes hw.staffed hh.keeps)

lemma Conduct.after (hc : Conduct host w w') (actions : List Action) :
    Conduct host w (w'.after host actions) := by
  induction actions generalizing w' with
  | nil => exact hc
  | cons action rest ih => exact ih (.act w' action hc)

end HostBoundary
