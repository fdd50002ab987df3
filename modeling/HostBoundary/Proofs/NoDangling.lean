import HostBoundary.Proofs.SoundActions

namespace HostBoundary

open Environment

variable {σ : Type} {host : Host σ} {n : EnvironmentId} {w w' : World σ}
  {opened : List EnvironmentId} {p p' : EngineId → Nat} {d d' : EnvironmentId → Nat}

namespace World

def pushes (w : World σ) (opened : List EnvironmentId) (e : EngineId) : Nat :=
  opened.countP fun n => (w.environment n).engine = e

lemma pushes_congr (h : ∀ n ∈ opened, (w'.environment n).engine = (w.environment n).engine) :
    w'.pushes opened = w.pushes opened := by
  funext e
  exact List.countP_congr fun n hn => by rw [h n hn]

lemma pushes_cons (w : World σ) (opened : List EnvironmentId) (n : EnvironmentId) (e : EngineId) :
    w.pushes (n :: opened) e =
      w.pushes opened e + if (w.environment n).engine = e then 1 else 0 := by
  simp [pushes, List.countP_cons]

lemma pushes_erase (w : World σ) (opened : List EnvironmentId) (hn : n ∈ opened) (e : EngineId) :
    w.pushes opened e =
      w.pushes (opened.erase n) e + if (w.environment n).engine = e then 1 else 0 := by
  rw [← pushes_cons]
  exact (List.perm_cons_erase hn).countP_eq _

lemma Opens.congr (ho : Opens p d w w') (hp : ∀ e, p e = p' e) (hd : ∀ n, d n = d' n) :
    Opens p' d' w w' := by
  obtain rfl : p = p' := funext hp
  obtain rfl : d = d' := funext hd
  exact ho

lemma has_popped (n : EnvironmentId) (w : World σ) (m : EnvironmentId) :
    (popped n w).Has m ↔ w.Has m := by
  simp [popped]

lemma engine_popped (n : EnvironmentId) (w : World σ) (m : EnvironmentId) :
    ((popped n w).environment m).engine = (w.environment m).engine := by
  simp only [popped, environment_modifyEngine, environment_modifyEnvironment]
  split
  · rename_i hand
    rw [hand.1]
  · rfl

lemma Opens.popped (ho : Opens p d w w') (hn : w'.Has n)
    (hp : ∀ e, p e = p' e + if (w'.environment n).engine = e then 1 else 0)
    (hd : ∀ m, d m = d' m + if n = m then 1 else 0) : Opens p' d' w (Environment.popped n w') := by
  have hdepth : Opens p d' w
      (w'.modifyEnvironment n ({ · with scopeDepth := (w'.environment n).scopeDepth - 1 })) :=
    { engines := ho.engines
      environments := by
        simp only [World.modifyEnvironment, Array.size_modify]
        exact ho.environments
      engine := by
        intro m hm
        rw [environment_modifyEnvironment]
        split
        · rename_i hand
          rw [hand.1] at hm ⊢
          exact ho.engine n hm
        · exact ho.engine m hm
      depth := by
        intro m
        have hbefore := ho.depth m
        rw [hd m] at hbefore
        rw [environment_modifyEnvironment]
        by_cases hm : m = n
        · subst hm
          rw [if_pos rfl] at hbefore
          rw [if_pos ⟨rfl, hn⟩]
          dsimp only
          omega
        · rw [if_neg (Ne.symm hm)] at hbefore
          rw [if_neg fun hand => hm hand.1]
          exact hbefore
      heap := ho.heap }
  refine hdepth.popScope _ _ (fun x => ?_) (.refl _)
  rw [hp x]
  simp only [eq_comm]

end World

-- A stretch of native code, from one world to another, with the environments whose pushes are
-- still open. It may do anything but close a scope that it has not opened.
inductive Course (host : Host σ) (w : World σ) : List EnvironmentId → World σ → Prop where
  | start : Course host w [] w
  | think (opened : List EnvironmentId) (w' : World σ) (s : σ) (hw : Course host w opened w') :
      Course host w opened { w' with host := s }
  | act (opened : List EnvironmentId) (w' : World σ) (action : Action)
      (hw : Course host w opened w') (hp : action.possible w' = true) (hs : action.scopes = false) :
      Course host w opened (action.perform host w').2
  | push (opened : List EnvironmentId) (w' : World σ) (n : EnvironmentId)
      (hw : Course host w opened w') (hn : w'.Has n) :
      Course host w (n :: opened) ((Action.operate n .pushScope).perform host w').2
  | pop (opened : List EnvironmentId) (w' : World σ) (n : EnvironmentId)
      (hw : Course host w opened w') (hn : n ∈ opened) :
      Course host w (opened.erase n) ((Action.operate n .popScope).perform host w').2

lemma Course.opens (hs : host.Steady) (hw : w.Sound) (hc : Course host w opened w') :
    World.Opens (w'.pushes opened) (fun n => opened.count n) w w' ∧ w'.Sound ∧
    ∀ n ∈ opened, w'.Has n := by
  induction hc with
  | start => exact ⟨.refl w, hw, by simp⟩
  | think opened w' s _ ih =>
    obtain ⟨ho, hsound, hhas⟩ := ih
    have hsame : w'.Carries { w' with host := s } := .of_eq rfl rfl
    exact ⟨ho.trans hsame, hsound.of_eq rfl rfl, hhas⟩
  | act opened w' action _ hp hlevel ih =>
    obtain ⟨ho, hsound, hhas⟩ := ih
    obtain ⟨hc, hsound'⟩ := action.perform_carries hs w' hsound hp hlevel
    have hsame := World.pushes_congr fun n hn => hc.engine n (hhas n hn)
    exact ⟨(ho.trans hc).congr (fun e => by rw [hsame]; rfl) fun _ => rfl, hsound',
      fun n hn => hc.has (hhas n hn)⟩
  | push opened w' n _ hn ih =>
    obtain ⟨ho, hsound, hhas⟩ := ih
    have hpush := pushScope_opens hsound hn
    have hall : ∀ m ∈ n :: opened, w'.Has m := by
      intro m hm
      rcases List.mem_cons.mp hm with rfl | hm
      · exact hn
      · exact hhas m hm
    have hsame := World.pushes_congr fun m hm => hpush.engine m (hall m hm)
    refine ⟨(ho.trans hpush).congr (fun e => ?_) fun m => ?_, pushScope_sound hsound,
      fun m hm => hpush.has (hall m hm)⟩
    · exact ((congrFun hsame e).trans (w'.pushes_cons opened n e)).symm
    · simp [List.count_cons]
  | pop opened w' n _ hn ih =>
    obtain ⟨ho, hsound, hhas⟩ := ih
    have hpos : (w'.environment n).scopeDepth ≠ 0 := by
      have hdepth := ho.depth n
      have hcount := List.count_pos_iff.mpr hn
      omega
    have hpopped : World.Opens (w'.pushes (opened.erase n)) (fun m => (opened.erase n).count m) w
        (popped n w') := by
      refine ho.popped (hhas n hn) (w'.pushes_erase opened hn) fun m => ?_
      rw [(List.perm_cons_erase hn).count_eq m, List.count_cons]
      simp only [beq_iff_eq]
    have hclosed : (popped n w').Carries
        ((Action.operate n .popScope).perform host w').2 :=
      popScope_carries hs hsound hpos
    have hkept : ∀ m ∈ opened.erase n, (popped n w').Has m := fun m hm =>
      (World.has_popped n w' m).mpr (hhas m (List.mem_of_mem_erase hm))
    have hsame : ((Action.operate n .popScope).perform host w').2.pushes (opened.erase n) =
        w'.pushes (opened.erase n) := by
      refine World.pushes_congr fun m hm => ?_
      rw [hclosed.engine m (hkept m hm), World.engine_popped]
    refine ⟨(hpopped.trans hclosed).congr (fun e => by rw [hsame]; rfl) fun _ => rfl,
      popScope_sound hs hsound, fun m hm => hclosed.has (hkept m hm)⟩

-- Whatever reference a heap holds, the object is there, unless positions have run out.
def World.NoDangling (w : World σ) : Prop :=
  ∀ e, (w.engine e).heap.Roomy → ∀ r, (w.engine e).heap.Held r → (w.engine e).heap.isAlive r = true

lemma World.Sound.noDangling (hw : w.Sound) : w.NoDangling :=
  fun e hroom r hr => ((hw.heap e).intact hroom).alive r hr

-- A host whose routines close the scopes that they open, and no others. Routines that they call are
-- of the same kind.
inductive Host.Disciplined : Host σ → Prop where
  | quiet (host : Host σ)
      (hvisit : ∀ visit w, (host.visit visit w).2 = { w with host := (host.visit visit w).2.host }) :
      host.Disciplined
  | nested (host : Host σ) (inner : Visit → World σ → Host σ)
      (hinner : ∀ visit w, (inner visit w).Disciplined)
      (hvisit : ∀ visit w, visit.Valid w → w.NoDangling →
        Course (inner visit w) w [] (host.visit visit w).2) :
      host.Disciplined

lemma Host.Disciplined.steady (hd : host.Disciplined) : host.Steady := by
  induction hd with
  | quiet host hvisit =>
    intro visit w _ hw
    rw [hvisit]
    exact ⟨.of_eq rfl rfl, hw.of_eq rfl rfl⟩
  | nested host inner _ hvisit ih =>
    intro visit w hvalid hw
    obtain ⟨ho, hsound, -⟩ := (hvisit visit w hvalid hw.noDangling).opens (ih visit w) hw
    exact ⟨ho, hsound⟩

def World.allows (host : Host σ) : World σ → List Action → Bool
  | _, [] => true
  | w, action :: rest => action.possible w && World.allows host (action.perform host w).2 rest

-- The worlds that a host gets to: its own state may change at any time, and otherwise one
-- action follows another.
inductive World.Reachable (host : Host σ) : World σ → Prop where
  | start (s : σ) : Reachable host { host := s }
  | think (w : World σ) (s : σ) (hw : Reachable host w) : Reachable host { w with host := s }
  | act (w : World σ) (action : Action) (hw : Reachable host w) (hp : action.possible w = true) :
      Reachable host (action.perform host w).2

lemma Action.perform_sound (hs : host.Steady) (action : Action) (w : World σ) (hw : w.Sound)
    (hp : action.possible w = true) : (action.perform host w).2.Sound := by
  by_cases hscopes : action.scopes = false
  · exact (action.perform_carries hs w hw hp hscopes).2
  · cases action with
    | operate n op =>
      cases op with
      | pushScope => exact pushScope_sound hw
      | popScope => exact popScope_sound hs hw
      | _ => exact absurd rfl hscopes
    | _ => exact absurd rfl hscopes

lemma World.Reachable.sound (hs : host.Steady) (hw : w.Reachable host) : w.Sound := by
  induction hw with
  | start s => exact World.sound_empty s
  | think w s _ ih => exact ih.of_eq rfl rfl
  | act w action _ hp ih => exact action.perform_sound hs w ih hp

lemma World.Reachable.after (hw : w.Reachable host) (actions : List Action)
    (hp : w.allows host actions = true) : (w.after host actions).Reachable host := by
  induction actions generalizing w with
  | nil => exact hw
  | cons action rest ih =>
    obtain ⟨hfirst, hrest⟩ := (Bool.and_eq_true _ _).mp hp
    exact ih (.act w action hw hfirst) hrest

def scopedActions (n : EnvironmentId) (ops : List Environment.Operation.Known) : List Action :=
  .operate n .pushScope :: ops.map (.operate n) ++ [.operate n .popScope]

def Host.scripted (script : Code → List Environment.Operation.Known) : Nat → Host σ
  | 0 => .inert
  | depth + 1 =>
    { Host.inert with
      function := fun code n _ _ w =>
        (none, w.after (Host.scripted script depth) (scopedActions n (script code))) }

section Scripted

variable {script : Code → List Environment.Operation.Known}

lemma Host.scripted_conforming (depth : Nat) : (Host.scripted script depth : Host σ).Conforming := by
  induction depth with
  | zero => exact inert_conforming
  | succ depth ih =>
    exact { Host.inert_conforming with function := fun _ _ _ _ w => w.after_evolves ih _ }

lemma Course.operations (hc : host.Conforming) (hw : Course host w opened w') (hn : w'.Has n)
    (ops : List Environment.Operation.Known) (hops : ∀ op ∈ ops, op.scopes = false) :
    Course host w opened (w'.after host (ops.map (.operate n))) := by
  induction ops generalizing w' with
  | nil => exact hw
  | cons op rest ih =>
    have hfirst := Course.act opened w' (.operate n op) hw (decide_eq_true hn)
      (hops op List.mem_cons_self)
    refine ih hfirst (World.Evolves.has (Action.perform_evolving hc (.operate n op) w') hn) ?_
    exact fun other hother => hops other (List.mem_cons_of_mem _ hother)

lemma Course.scoped (hc : host.Conforming) (w : World σ) (hn : w.Has n)
    (ops : List Environment.Operation.Known) (hops : ∀ op ∈ ops, op.scopes = false) :
    Course host w [] (w.after host (scopedActions n ops)) := by
  have hpush : Course host w [n] _ := .push [] w n .start hn
  have hthere := World.Evolves.has (Action.perform_evolving hc (.operate n .pushScope) w) hn
  have hpop := Course.pop [n] _ n (hpush.operations hc hthere ops hops) List.mem_cons_self
  rw [List.erase_cons_head] at hpop
  simpa only [scopedActions, World.after, List.foldl_append, List.foldl_cons, List.foldl_nil,
    List.cons_append] using hpop

lemma Host.scripted_disciplined (hscript : ∀ code, ∀ op ∈ script code, op.scopes = false)
    (depth : Nat) : (Host.scripted script depth : Host σ).Disciplined := by
  induction depth with
  | zero =>
    refine .quiet _ fun visit w => ?_
    cases visit <;> rfl
  | succ depth ih =>
    refine .nested _ (fun _ _ => .scripted script depth) (fun _ _ => ih) fun visit w hv _ => ?_
    cases visit with
    | function code n this args =>
      exact Course.scoped (scripted_conforming depth) w (hv n rfl) _ (hscript code)
    | _ => exact .start

end Scripted

-- Whatever is done, by a host that closes the scopes it opens, nothing is left that refers to an
-- object that is gone.
theorem no_dangling_references (hd : host.Disciplined) (w : World σ) (hw : w.Reachable host) :
    w.NoDangling :=
  (hw.sound hd.steady).noDangling

def weaklyHeld : List Action :=
  [.newEngine { gcThreshold := 1 }, .attach ⟨0⟩, .operate ⟨0⟩ (.newFunction 0 ⟨⟨0⟩, none⟩),
    .operate ⟨0⟩ .pushScope, .operate ⟨0⟩ .newObject,
    .operate ⟨0⟩ (.newWeakReference (.transient (.first 2)) none),
    .operate ⟨0⟩ (.call none [] (.transient (.first 1)) 0)]

def oneObject : Host Unit := .scripted (fun _ => [.newObject]) 1

def afterCall : World Unit := World.after oneObject { host := () } weaklyHeld

theorem no_dangling_references_after_call :
    oneObject.Disciplined ∧ afterCall.Reachable oneObject ∧ afterCall.NoDangling ∧
    (afterCall.engine ⟨0⟩).heap.isAlive (.first 3) = false ∧
    (afterCall.engine ⟨0⟩).heap.Held (.first 2) ∧
    (afterCall.engine ⟨0⟩).heap.isAlive (.first 2) = true := by
  have hd : oneObject.Disciplined := Host.scripted_disciplined (by simp [Environment.Operation.scopes]) 1
  have hw : afterCall.Reachable oneObject :=
    World.Reachable.after (.start ()) weaklyHeld (by decide +kernel)
  have hslots : (afterCall.engine ⟨0⟩).heap.objects.slots.size = 4 := by cbv
  have hweak : (afterCall.engine ⟨0⟩).heap.persistents.entries = [⟨.first 2, true, none⟩] := by cbv
  have hheld : (afterCall.engine ⟨0⟩).heap.Held (.first 2) :=
    .persistent ⟨.first 2, true, none⟩ (by rw [hweak]; exact List.mem_cons_self)
  have hsafe := no_dangling_references hd afterCall hw
  refine ⟨hd, hw, hsafe, by cbv, hheld, hsafe ⟨0⟩ ?_ (.first 2) hheld⟩
  rw [Heap.Roomy, hslots]
  omega

end HostBoundary
