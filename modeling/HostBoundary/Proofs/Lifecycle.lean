import HostBoundary.Proofs.Boundary
import HostBoundary.Proofs.Steady

namespace HostBoundary

open Environment

variable {σ : Type} {host : Host σ} {n m : EnvironmentId} {e : EngineId} {k : Nat} {w : World σ}
  {context : UInt64}

namespace Environment

-- How an environment stands: whose it is, how often it is counted, whether it knows that its
-- context goes, and whether it is gone itself.
structure Standing where
  engine : EngineId
  count : Nat
  tornDown : Bool
  destroyed : Bool
  deriving DecidableEq

def standing (env : Environment) : Standing :=
  ⟨env.engine, env.refCount, env.tornDown, env.destroyed⟩

def Standing.acquired (s : Standing) : Standing := { s with count := s.count + 1 }

def Standing.released (s : Standing) : Standing :=
  if s.count = 0 then s
  else { s with count := s.count - 1, destroyed := s.destroyed || s.count = 1 }

section Standing

variable (w : World σ)

lemma standing_modify (f : Environment → Environment) (hn : w.Has n) (m : EnvironmentId) :
    ((w.modifyEnvironment n f).environment m).standing =
      if m = n then (f (w.environment n)).standing else (w.environment m).standing := by
  rw [World.environment_modifyEnvironment]
  by_cases hm : m = n
  · rw [if_pos ⟨hm, hn⟩, if_pos hm]
  · rw [if_neg fun hand => hm hand.1, if_neg hm]

lemma standing_acquire (hn : w.Has n) (m : EnvironmentId) :
    ((acquire n w).2.environment m).standing =
      if m = n then (w.environment n).standing.acquired else (w.environment m).standing :=
  standing_modify w _ hn m

lemma standing_destroy (hn : w.Has n) (m : EnvironmentId) :
    ((destroy n w).2.environment m).standing =
      if m = n then { (w.environment n).standing with destroyed := true }
      else (w.environment m).standing :=
  standing_modify w _ hn m

lemma attached_destroy (he : w.HasEngine e) (hn : (w.environment n).engine = e) :
    ((destroy n w).2.engine e).attached =
      if (w.engine e).attached = some n then none else (w.engine e).attached := by
  have hpair : (destroy n w).2.engine e =
      if (w.engine e).attached = some n then { w.engine e with attached := none }
      else w.engine e := by
    refine (World.engine_modifyEngine _ _ e _).trans ?_
    rw [World.engine_modifyEnvironment, if_pos ⟨hn.symm, hn.symm ▸ he⟩, hn]
  rw [hpair]
  split <;> rfl

lemma release_of_zero (h : (w.environment n).refCount = 0) : (release n w).2 = w := by
  simp only [release, bind, StateT.bind, Act.environment, pure, h]
  rfl

lemma release_of_one (h : (w.environment n).refCount = 1) :
    (release n w).2 = (destroy n (w.modifyEnvironment n ({ · with refCount := 0 }))).2 := by
  simp only [release, bind, StateT.bind, Act.environment, pure, h]
  rfl

lemma release_of_more (h : (w.environment n).refCount = k + 2) :
    (release n w).2 = w.modifyEnvironment n ({ · with refCount := k + 1 }) := by
  simp only [release, bind, StateT.bind, Act.environment, pure, h]
  rfl

lemma standing_release (hn : w.Has n) (m : EnvironmentId) :
    ((release n w).2.environment m).standing =
      if m = n then (w.environment n).standing.released else (w.environment m).standing := by
  match h : (w.environment n).refCount with
  | 0 =>
    have hsame : (w.environment n).standing.released = (w.environment n).standing := if_pos h
    rw [release_of_zero w h, hsame]
    split
    · rename_i hm
      rw [hm]
    · rfl
  | 1 =>
    rw [release_of_one w h, standing_destroy _ ((World.has_modifyEnvironment w n n _).mpr hn),
      standing_modify w _ hn, standing_modify w _ hn, if_pos rfl]
    by_cases hm : m = n
    · simp [hm, Standing.released, standing, h]
    · simp [hm]
  | k + 2 =>
    rw [release_of_more w h, standing_modify w _ hn]
    simp [Standing.released, standing, h]

lemma attached_release (he : w.HasEngine e) (hn : (w.environment n).engine = e) :
    ((release n w).2.engine e).attached =
      if (w.environment n).refCount = 1 ∧ (w.engine e).attached = some n then none
      else (w.engine e).attached := by
  match h : (w.environment n).refCount with
  | 0 =>
    rw [release_of_zero w h]
    rfl
  | 1 =>
    have hengine :
        ((w.modifyEnvironment n ({ · with refCount := 0 })).environment n).engine = e := by
      rw [World.environment_modifyEnvironment]
      split <;> exact hn
    rw [release_of_one w h, attached_destroy (w.modifyEnvironment n _) he hengine]
    by_cases ha : (w.engine e).attached = some n <;> simp [ha]
  | k + 2 =>
    rw [release_of_more w h]
    rfl

lemma teardown_of_none (ha : (w.engine e).attached = none) : (teardown e w).2 = w := by
  simp only [teardown, bind, StateT.bind, MonadState.get, getThe, MonadStateOf.get, StateT.get,
    pure, ha]
  rfl

lemma teardown_of_some (ha : (w.engine e).attached = some n) :
    (teardown e w).2 = if (w.environment n).tornDown then w
      else (release n (w.modifyEnvironment n ({ · with tornDown := true }))).2 := by
  simp only [teardown, bind, StateT.bind, MonadState.get, getThe, MonadStateOf.get, StateT.get,
    pure, ha, Act.environment]
  cases (w.environment n).tornDown <;> rfl

end Standing

end Environment

namespace World

variable (w : World σ) (e : EngineId)

lemma attached_seated (he : w.HasEngine e) :
    ((w.seated e).engine e).attached = some ⟨w.environments.size⟩ := by
  rw [seated, engine_modifyEngine, if_pos ⟨rfl, he⟩]

end World

-- The environments of an engine stand as they did.
structure World.Undisturbed (e : EngineId) (w w' : World σ) : Prop where
  engine : w.HasEngine e → w'.HasEngine e
  has : ∀ n, w.Has n → w'.Has n
  standing : ∀ n, w.Has n → (w.environment n).engine = e →
    (w'.environment n).standing = (w.environment n).standing
  attached : (w'.engine e).attached = (w.engine e).attached

namespace World.Undisturbed

lemma refl (w : World σ) : w.Undisturbed e w := ⟨id, fun _ => id, fun _ _ _ => rfl, rfl⟩

lemma trans {a b c : World σ} (hab : a.Undisturbed e b) (hbc : b.Undisturbed e c) :
    a.Undisturbed e c where
  engine he := hbc.engine (hab.engine he)
  has n hn := hbc.has n (hab.has n hn)
  standing n hn he := by
    have hsame := hab.standing n hn he
    have hengine : (b.environment n).engine = e :=
      (congrArg Environment.Standing.engine hsame).trans he
    rw [hbc.standing n (hab.has n hn) hengine, hsame]
  attached := hbc.attached.trans hab.attached

lemma modifyEngine (w : World σ) (d : EngineId) (f : Engine → Engine)
    (hf : ∀ engine, (f engine).attached = engine.attached) :
    w.Undisturbed e (w.modifyEngine d f) where
  engine he := (hasEngine_modifyEngine w d e f).mpr he
  has _ hn := hn
  standing _ _ _ := rfl
  attached := by
    rw [engine_modifyEngine]
    split
    · rename_i hand
      rw [hf, hand.1]
    · rfl

lemma modifyEnvironment (w : World σ) (n : EnvironmentId) (f : Environment → Environment)
    (hf : ∀ env, (f env).standing = env.standing) : w.Undisturbed e (w.modifyEnvironment n f) where
  engine := id
  has m hm := (has_modifyEnvironment w n m f).mpr hm
  standing m _ _ := by
    rw [environment_modifyEnvironment]
    split
    · rename_i hand
      rw [hf, hand.1]
    · rfl
  attached := rfl

lemma forM {α : Type} (items : List α) {act : α → Act σ Unit}
    (h : ∀ x (w : World σ), w.Undisturbed e (act x w).2) (w : World σ) :
    w.Undisturbed e (items.forM act w).2 := by
  induction items generalizing w with
  | nil => exact .refl w
  | cons x rest ih => exact (h x w).trans (ih (act x w).2)

end World.Undisturbed

-- The routines that take back the memory of buffers have no part in who holds the environments
-- of an engine.
def Host.LeavesStanding (host : Host σ) (e : EngineId) : Prop :=
  ∀ hook bytes (w : World σ), w.Undisturbed e (host.release hook bytes w).2

lemma Environment.reap_undisturbed (hr : host.LeavesStanding e) (d : EngineId) (w : World σ) :
    w.Undisturbed e (reap host d w).2 := by
  simp only [reap, bind, StateT.bind, MonadState.get, getThe, MonadStateOf.get, StateT.get, pure]
  split
  · have hdropped : w.Undisturbed e (w.modifyEngine d ({ · with dropped := true })) :=
      .modifyEngine w d _ fun _ => rfl
    refine (hdropped.trans (.modifyEngine _ d _ ?_)).trans (.forM _ ?_ _)
    · exact fun _ => rfl
    · exact fun released w => hr released.1 released.2 w
  · exact .refl w

namespace Foreign

lemma getEnvironment_of_lookup {version : Int32} (hc : w.contexts.lookup context = some e) :
    getEnvironment context version w = Environment.negotiate e version w := by
  simp only [getEnvironment, bind, StateT.bind, MonadState.get, getThe, MonadStateOf.get,
    StateT.get, pure, hc]

lemma endContext_of_lookup (hc : w.contexts.lookup context = some e) :
    (endContext host context w).2 =
      (Environment.reap host e (Environment.teardown e
        { w with contexts := w.contexts.filter (·.1 ≠ context) }).2).2 := by
  simp only [endContext, bind, StateT.bind, MonadState.get, getThe, MonadStateOf.get, StateT.get,
    pure, hc]
  rfl

end Foreign

-- An engine together with the books of those who use it: the references they hold, every
-- environment they have been given, and those they had been given when a teardown was last
-- signalled.
structure Ledger (σ : Type) where
  world : World σ
  references : List EnvironmentId := []
  given : List EnvironmentId := []
  told : List EnvironmentId := []

namespace Ledger

-- What the users of an engine do about its environment. References are acquired and dropped
-- through one that is held, by its place in the books.
inductive Event where
  | attach
  | negotiate (version : Int32)
  | getEnvironment (context : UInt64) (version : Int32)
  | acquire (i : Nat)
  | drop (i : Nat)
  | teardown
  | endContext (context : UInt64)

def receive (t : Ledger σ) (n : EnvironmentId) (world : World σ) : Ledger σ :=
  { t with world, references := n :: t.references, given := t.given.insert n }

-- A version that is not served gives nothing.
def receive? (t : Ledger σ) (answer : Option ForeignEnvironment × World σ) : Ledger σ :=
  match answer with
  | (some env, world) => t.receive env.environment world
  | (none, world) => { t with world }

def signal (t : Ledger σ) (world : World σ) : Ledger σ := { t with world, told := t.given }

def step (host : Host σ) (e : EngineId) (t : Ledger σ) : Event → Ledger σ
  | .attach =>
    let (n, world) := Environment.attach e t.world
    t.receive n world
  | .negotiate version => t.receive? (Environment.negotiate e version t.world)
  | .getEnvironment context version =>
    if t.world.contexts.lookup context = some e then
      t.receive? (Foreign.getEnvironment context version t.world)
    else t
  | .acquire i =>
    match t.references[i]? with
    | some n => t.receive n (Environment.acquire n t.world).2
    | none => t
  | .drop i =>
    match t.references[i]? with
    | some n =>
      { t with world := (Environment.drop host n t.world).2, references := t.references.eraseIdx i }
    | none => t
  | .teardown => t.signal (Environment.teardown e t.world).2
  | .endContext context =>
    if t.world.contexts.lookup context = some e then
      t.signal (Foreign.endContext host context t.world).2
    else t

def run (host : Host σ) (e : EngineId) (t : Ledger σ) (events : List Event) : Ledger σ :=
  events.foldl (step host e) t

abbrev Gone (t : Ledger σ) (n : EnvironmentId) : Prop := n ∈ t.told ∧ n ∉ t.references

-- How an environment should stand by the books.
def standing (t : Ledger σ) (e : EngineId) (n : EnvironmentId) : Environment.Standing :=
  ⟨e, t.references.count n + (if n ∈ t.told then 0 else 1), n ∈ t.told, t.Gone n⟩

-- The books are right: each environment stands as they say, and the one that is not gone is in
-- the place of the context, and no other is referred to.
structure Balanced (e : EngineId) (t : Ledger σ) : Prop where
  engine : t.world.HasEngine e
  has : ∀ n ∈ t.given, t.world.Has n
  told : ∀ n ∈ t.told, n ∈ t.given
  standing : ∀ n ∈ t.given, (t.world.environment n).standing = t.standing e n
  attached : ∀ n, (t.world.engine e).attached = some n ↔ n ∈ t.given ∧ ¬ t.Gone n
  references : ∀ n ∈ t.references, (t.world.engine e).attached = some n

namespace Balanced

variable {t : Ledger σ}

section

variable (hb : t.Balanced e)

include hb

lemma undisturbed (hu : t.world.Undisturbed e w) :
    ({ t with world := w } : Ledger σ).Balanced e where
  engine := hu.engine hb.engine
  has n hn := hu.has n (hb.has n hn)
  told := hb.told
  standing n hn := by
    have hstanding := hb.standing n hn
    exact (hu.standing n (hb.has n hn) (congrArg (·.engine) hstanding)).trans hstanding
  attached n := by
    rw [show (w.engine e).attached = _ from hu.attached]
    exact hb.attached n
  references n hn := hu.attached.trans (hb.references n hn)

lemma gone (hn : n ∈ t.given) (ha : (t.world.engine e).attached ≠ some n) : t.Gone n := by
  by_contra hstays
  exact ha ((hb.attached n).mpr ⟨hn, hstays⟩)

section

variable (ha : (t.world.engine e).attached = some n)

include ha

lemma eq_of_attached (hm : m ∈ t.references) : m = n :=
  Option.some.inj ((hb.references m hm).symm.trans ha)

lemma gone_of_ne (hm : m ∈ t.given) (hne : m ≠ n) : t.Gone m :=
  hb.gone hm fun hsame => hne (Option.some.inj (hsame.symm.trans ha))

lemma acquired : (t.receive n (Environment.acquire n t.world).2).Balanced e := by
  obtain ⟨hn, hstays⟩ := (hb.attached n).mp ha
  rw [receive, List.insert_of_mem hn]
  have hgone : ∀ m, (m ∈ t.told ∧ m ∉ n :: t.references) ↔ t.Gone m := by
    intro m
    by_cases hm : m = n
    · subst hm
      exact ⟨fun h => absurd List.mem_cons_self h.2, fun h => absurd h hstays⟩
    · simp [Gone, hm]
  refine ⟨hb.engine, ?_, hb.told, ?_, ?_, ?_⟩
  · exact fun m hm => (World.has_modifyEnvironment _ _ _ _).mpr (hb.has m hm)
  · intro m hm
    have hafter := Environment.standing_acquire t.world (hb.has n hn) m
    rw [hb.standing n hn, hb.standing m hm] at hafter
    refine hafter.trans ?_
    simp only [Ledger.standing, Environment.Standing.acquired]
    by_cases hmn : m = n
    · subst hmn
      simp only [if_pos, Gone, hgone, List.count_cons_self, Nat.add_right_comm]
    · simp only [if_neg hmn, Gone, hgone, List.count_cons_of_ne (Ne.symm hmn)]
  · intro m
    rw [Gone, hgone]
    exact hb.attached m
  · intro m hm
    rcases List.mem_cons.mp hm with rfl | hm
    · exact ha
    · exact hb.references m hm

end

lemma seated (ha : (t.world.engine e).attached = none) :
    ({ t with
      world := t.world.seated e
      given := t.given.insert ⟨t.world.environments.size⟩ } : Ledger σ).Balanced e := by
  have hnew : ∀ m ∈ t.given, m ≠ ⟨t.world.environments.size⟩ := by
    rintro m hm rfl
    exact Nat.lt_irrefl _ (hb.has _ hm)
  have hgone : ∀ m ∈ t.given, t.Gone m := fun m hm => hb.gone hm (by simp [ha])
  have hrefs : t.references = [] := by
    refine List.eq_nil_iff_forall_not_mem.mpr fun m hm => ?_
    simpa [ha] using hb.references m hm
  have hnottold : (⟨t.world.environments.size⟩ : EnvironmentId) ∉ t.told := fun htold =>
    hnew _ (hb.told _ htold) rfl
  refine ⟨(World.hasEngine_modifyEngine _ _ _ _).mpr hb.engine, ?_, ?_, ?_, ?_, ?_⟩
  · intro m hm
    rw [World.has_seated]
    rcases List.mem_insert_iff.mp hm with rfl | hm
    · exact .inr rfl
    · exact .inl (hb.has m hm)
  · exact fun m hm => List.mem_insert_of_mem (hb.told m hm)
  · intro m hm
    rw [World.environment_seated]
    rcases List.mem_insert_iff.mp hm with rfl | hm
    · rw [if_pos rfl]
      simp [Environment.standing, Ledger.standing, hrefs, hnottold]
    · have hindex : m.index ≠ t.world.environments.size := Nat.ne_of_lt (hb.has m hm)
      rw [if_neg hindex]
      exact hb.standing m hm
  · intro m
    rw [World.attached_seated _ _ hb.engine]
    constructor
    · rintro ⟨rfl⟩
      exact ⟨List.mem_insert_self, fun hg => hnottold hg.1⟩
    · rintro ⟨hm, hstays⟩
      rcases List.mem_insert_iff.mp hm with rfl | hm
      · rfl
      · exact absurd (hgone m hm) hstays
  · intro m hm
    rw [hrefs] at hm
    exact absurd hm List.not_mem_nil

omit hb in
-- One reference less to the environment that is there, whoever gives it up: what is left of
-- the count decides whether it is gone.
lemma of_release {b : Bool} (he : w.HasEngine e) (ha : (w.engine e).attached = some n)
    (hn : n ∈ t.given) (hhas : ∀ m ∈ t.given, w.Has m) (htold : ∀ m ∈ t.told, m ∈ t.given)
    (hbefore : (w.environment n).standing = ⟨e, k + 1, b, false⟩)
    (hafter : t.standing e n = ⟨e, k, b, k = 0⟩)
    (hothers : ∀ m ∈ t.given, m ≠ n → (w.environment m).standing = t.standing e m ∧ t.Gone m)
    (hrefs : ∀ m ∈ t.references, m = n) (hworld : t.world = (Environment.release n w).2) :
    t.Balanced e := by
  have hcount : (w.environment n).refCount = k + 1 := congrArg (·.count) hbefore
  have hengine : (w.environment n).engine = e := congrArg (·.engine) hbefore
  have hgone : t.Gone n ↔ k = 0 := by
    have hdestroyed : decide (t.Gone n) = decide (k = 0) := congrArg (·.destroyed) hafter
    exact decide_eq_decide.mp hdestroyed
  have hattached : (t.world.engine e).attached = if k = 0 then none else some n := by
    rw [hworld, Environment.attached_release w he hengine, ha, hcount]
    simp
  have hev : w.Evolves t.world := hworld ▸ Act.Evolving.minor.releaseReference n w
  refine ⟨hev.hasEngine he, fun m hm => hev.has (hhas m hm), htold, ?_, ?_, ?_⟩
  · intro m hm
    rw [hworld, Environment.standing_release w (hhas n hn), hbefore]
    by_cases hmn : m = n
    · subst hmn
      rw [if_pos rfl, hafter]
      simp [Environment.Standing.released]
    · rw [if_neg hmn]
      exact (hothers m hm hmn).1
  · intro m
    rw [hattached]
    by_cases hmn : m = n
    · subst hmn
      by_cases hk : k = 0 <;> simp [hgone, hk, hn]
    · have hgone' : m ∈ t.given → t.Gone m := fun hm => (hothers m hm hmn).2
      by_cases hk : k = 0 <;> simpa [hk, Ne.symm hmn] using hgone'
  · intro m hm
    obtain rfl := hrefs m hm
    have hk : k ≠ 0 := fun hk => (hgone.mpr hk).2 hm
    rw [hattached, if_neg hk]

lemma attach :
    (t.receive (Environment.attach e t.world).1 (Environment.attach e t.world).2).Balanced e := by
  cases ha : (t.world.engine e).attached with
  | some n =>
    rw [attach_of_some t.world e n ha]
    exact hb.acquired ha
  | none =>
    rw [attach_of_none t.world e ha]
    have hseated := hb.seated ha
    have hattached := ((hseated.attached ⟨t.world.environments.size⟩).mpr ⟨List.mem_insert_self,
      fun hg => Nat.lt_irrefl _ (hb.has _ (hb.told _ hg.1))⟩)
    have hacquired := hseated.acquired hattached
    simpa [receive] using hacquired

lemma negotiate (version : Int32) :
    (t.receive? (Environment.negotiate e version t.world)).Balanced e := by
  unfold Environment.negotiate
  split
  · exact hb.attach
  · exact hb

omit hb in
lemma drop (hr : host.LeavesStanding e) (hb : t.Balanced e) {i : Nat}
    (hi : t.references[i]? = some n) :
    ({ t with
      world := (Environment.drop host n t.world).2
      references := t.references.eraseIdx i } : Ledger σ).Balanced e := by
  have ha := hb.references n (List.mem_of_getElem? hi)
  obtain ⟨hn, hstays⟩ := (hb.attached n).mp ha
  have hperm : (n :: t.references.eraseIdx i).Perm t.references := by
    obtain ⟨hlt, rfl⟩ := List.getElem?_eq_some_iff.mp hi
    exact List.getElem_cons_eraseIdx_perm hlt
  have hcount : ∀ m, t.references.count m = (n :: t.references.eraseIdx i).count m :=
    fun m => (hperm.count_eq m).symm
  have hreleased : ({ t with
      world := (Environment.release n t.world).2
      references := t.references.eraseIdx i } : Ledger σ).Balanced e := by
    refine of_release (k := (t.references.eraseIdx i).count n + if n ∈ t.told then 0 else 1)
      (b := n ∈ t.told) hb.engine ha hn hb.has hb.told ?_ ?_ ?_ ?_ rfl
    · rw [hb.standing n hn, Ledger.standing, hcount, List.count_cons_self, Nat.add_right_comm,
        decide_eq_false hstays]
    · by_cases htold : n ∈ t.told <;> simp [Ledger.standing, htold, List.count_eq_zero]
    · intro m hm hmn
      have hmem : m ∉ t.references := fun hmem => hmn (hb.eq_of_attached ha hmem)
      have hmem' : m ∉ t.references.eraseIdx i := fun h => hmem (List.eraseIdx_subset h)
      have hgone := hb.gone_of_ne ha hm hmn
      refine ⟨?_, hgone.1, hmem'⟩
      rw [hb.standing m hm]
      simp [Ledger.standing, List.count_eq_zero_of_not_mem, hmem, hmem']
    · exact fun m hm => hb.eq_of_attached ha (List.eraseIdx_subset hm)
  have howner := hreleased.undisturbed (.modifyEnvironment _ n
    (fun env => { env with owners := env.owners - 1 }) fun _ => rfl)
  exact howner.undisturbed (reap_undisturbed hr _ _)

lemma signal_of_told (hall : ∀ m ∈ t.given, m ∈ t.told) : (t.signal t.world).Balanced e := by
  refine ⟨hb.engine, hb.has, fun m hm => hm, ?_, ?_, hb.references⟩
  · intro m hm
    have hm : m ∈ t.given := hm
    refine (hb.standing m hm).trans ?_
    simp only [Ledger.standing, signal, Gone, hm, hall m hm]
  · intro m
    refine (hb.attached m).trans (and_congr_right fun hm => ?_)
    simp only [signal, Gone, hm, hall m hm]

lemma teardown : (t.signal (Environment.teardown e t.world).2).Balanced e := by
  cases ha : (t.world.engine e).attached with
  | none =>
    rw [Environment.teardown_of_none t.world ha]
    exact hb.signal_of_told fun m hm => (hb.gone hm (by simp [ha])).1
  | some n =>
    obtain ⟨hn, hstays⟩ := (hb.attached n).mp ha
    have htold : (t.world.environment n).tornDown = decide (n ∈ t.told) :=
      congrArg (·.tornDown) (hb.standing n hn)
    have hteardown := Environment.teardown_of_some t.world ha
    rw [htold] at hteardown
    by_cases hknows : n ∈ t.told
    · rw [if_pos (decide_eq_true hknows)] at hteardown
      rw [hteardown]
      refine hb.signal_of_told fun m hm => ?_
      by_cases hmn : m = n
      · exact hmn ▸ hknows
      · exact (hb.gone_of_ne ha hm hmn).1
    · rw [if_neg fun h => hknows (of_decide_eq_true h)] at hteardown
      refine of_release (w := t.world.modifyEnvironment n ({ · with tornDown := true }))
        (k := t.references.count n) (b := true) hb.engine ha hn ?_ (fun m hm => hm) ?_ ?_ ?_ ?_
        hteardown
      · exact fun m hm => (World.has_modifyEnvironment _ _ _ _).mpr (hb.has m hm)
      · have hbefore := hb.standing n hn
        simp only [Ledger.standing, hknows, decide_false, Gone, false_and] at hbefore
        rw [Environment.standing_modify _ _ (hb.has n hn), if_pos rfl]
        exact congrArg ({ · with tornDown := true }) hbefore
      · simp [Ledger.standing, signal, Gone, hn, List.count_eq_zero]
      · intro m hm hmn
        have hm : m ∈ t.given := hm
        have hgone := hb.gone_of_ne ha hm hmn
        refine ⟨?_, hm, hgone.2⟩
        rw [Environment.standing_modify _ _ (hb.has n hn), if_neg hmn, hb.standing m hm]
        simp only [Ledger.standing, signal, Gone, hm, hgone.1]
      · exact fun m hm => hb.eq_of_attached ha hm

omit hb in
lemma step (hr : host.LeavesStanding e) (hb : t.Balanced e) (event : Event) :
    (t.step host e event).Balanced e := by
  cases event with
  | attach => exact hb.attach
  | negotiate version => exact hb.negotiate version
  | getEnvironment context version =>
    simp only [Ledger.step]
    split
    · rename_i hc
      rw [Foreign.getEnvironment_of_lookup hc]
      exact hb.negotiate version
    · exact hb
  | acquire i =>
    simp only [Ledger.step]
    split
    · rename_i n hn
      exact hb.acquired (hb.references n (List.mem_of_getElem? hn))
    · exact hb
  | drop i =>
    simp only [Ledger.step]
    split
    · rename_i n hn
      exact hb.drop hr hn
    · exact hb
  | teardown => exact hb.teardown
  | endContext context =>
    simp only [Ledger.step]
    split
    · rename_i hc
      have hclosed : ({ t with world :=
          { t.world with contexts := t.world.contexts.filter (·.1 ≠ context) } } :
            Ledger σ).Balanced e :=
        hb.undisturbed ⟨id, fun _ => id, fun _ _ _ => rfl, rfl⟩
      rw [Foreign.endContext_of_lookup hc]
      exact hclosed.teardown.undisturbed (reap_undisturbed hr e _)
    · exact hb

omit hb in
lemma run (hr : host.LeavesStanding e) (hb : t.Balanced e) (events : List Event) :
    (t.run host e events).Balanced e := by
  induction events generalizing t with
  | nil => exact hb
  | cons event rest ih => exact ih (hb.step hr event)

variable (hg : t.Gone n)

include hg

lemma attach_ne : (Environment.attach e t.world).1 ≠ n := by
  rintro rfl
  cases ha : (t.world.engine e).attached with
  | some m =>
    rw [attach_of_some t.world e m ha] at hg
    exact ((hb.attached m).mp ha).2 hg
  | none =>
    have hmem := hb.has _ (hb.told _ hg.1)
    rw [attach_of_none t.world e ha] at hmem
    exact Nat.lt_irrefl _ hmem

lemma gone_receive :
    (t.receive (Environment.attach e t.world).1 (Environment.attach e t.world).2).Gone n :=
  ⟨hg.1, fun hmem => (List.mem_cons.mp hmem).elim (fun heq => hb.attach_ne hg heq.symm) hg.2⟩

lemma gone_negotiate (version : Int32) :
    (t.receive? (Environment.negotiate e version t.world)).Gone n := by
  unfold Environment.negotiate
  split
  · exact hb.gone_receive hg
  · exact hg

lemma gone_step (event : Event) : (t.step host e event).Gone n := by
  cases event with
  | attach => exact hb.gone_receive hg
  | negotiate version => exact hb.gone_negotiate hg version
  | getEnvironment context version =>
    simp only [Ledger.step]
    split
    · rename_i hc
      rw [Foreign.getEnvironment_of_lookup hc]
      exact hb.gone_negotiate hg version
    · exact hg
  | acquire i =>
    simp only [Ledger.step]
    split
    · rename_i m hm
      have hne : n ≠ m := fun heq => hg.2 (heq ▸ List.mem_of_getElem? hm)
      exact ⟨hg.1, fun hmem => (List.mem_cons.mp hmem).elim hne hg.2⟩
    · exact hg
  | drop i =>
    simp only [Ledger.step]
    split
    · exact ⟨hg.1, fun hmem => hg.2 (List.eraseIdx_subset hmem)⟩
    · exact hg
  | teardown => exact ⟨hb.told n hg.1, hg.2⟩
  | endContext context =>
    simp only [Ledger.step]
    split
    · exact ⟨hb.told n hg.1, hg.2⟩
    · exact hg

end

lemma gone_run (hr : host.LeavesStanding e) (hb : t.Balanced e) (hg : t.Gone n)
    (events : List Event) : (t.run host e events).Gone n := by
  induction events generalizing t with
  | nil => exact hg
  | cons event rest ih => exact ih (hb.step hr event) (hb.gone_step hg event)

end Balanced

end Ledger

-- In whatever order the users of an engine attach, negotiate, acquire, drop and signal: an
-- environment is gone from when it has been told that its context goes and nobody refers to it, and
-- until then it is the one that everybody is given.
theorem environment_lifecycle (hr : host.LeavesStanding e) (w : World σ) (he : w.HasEngine e)
    (hempty : (w.engine e).attached = none) (events : List Ledger.Event) :
    let t := Ledger.run host e { world := w } events
    (∀ n ∈ t.given,
      (t.world.environment n).refCount =
        t.references.count n + (if n ∈ t.told then 0 else 1) ∧
      ((t.world.environment n).destroyed = true ↔ n ∈ t.told ∧ n ∉ t.references) ∧
      ((t.world.engine e).attached = some n ↔ (t.world.environment n).destroyed = false) ∧
      ((t.world.environment n).destroyed = true →
        ∀ later, ((t.run host e later).world.environment n).destroyed = true)) ∧
    (∀ n, (t.world.engine e).attached = some n →
      n ∈ t.given ∧ (Environment.attach e t.world).1 = n) ∧
    ((t.world.engine e).attached = none → (Environment.attach e t.world).1 ∉ t.given) ∧
    ∀ n ∈ t.references, (t.world.engine e).attached = some n := by
  intro t
  have hstart : ({ world := w } : Ledger σ).Balanced e :=
    ⟨he, by simp, by simp, by simp, by simp [hempty], by simp⟩
  have hb : t.Balanced e := hstart.run hr events
  have hdestroyed : ∀ {t : Ledger σ} {n}, t.Balanced e → n ∈ t.given →
      ((t.world.environment n).destroyed = true ↔ t.Gone n) := fun hb hn =>
    (Bool.eq_iff_iff.mp (congrArg (·.destroyed) (hb.standing _ hn))).trans decide_eq_true_iff
  refine ⟨fun n hn => ⟨congrArg (·.count) (hb.standing n hn), hdestroyed hb hn, ?_, ?_⟩, ?_, ?_,
    hb.references⟩
  · rw [hb.attached n, ← Bool.not_eq_true, hdestroyed hb hn]
    exact and_iff_right hn
  · intro hgone later
    have hlater := hb.run hr later
    have hg := hb.gone_run hr ((hdestroyed hb hn).mp hgone) later
    exact (hdestroyed hlater (hlater.told n hg.1)).mpr hg
  · intro n ha
    rw [attach_of_some t.world e n ha]
    exact ⟨((hb.attached n).mp ha).1, rfl⟩
  · intro ha hmem
    rw [attach_of_none t.world e ha] at hmem
    exact Nat.lt_irrefl _ (hb.has _ hmem)

def oneEngine : World Unit := { engines := #[{ heap := .fresh {} }], host := () }

def tenancies : List Ledger.Event :=
  [.attach, .negotiate 1000, .teardown, .acquire 1, .drop 0, .drop 0, .teardown, .drop 0, .attach]

def twoTenants : Ledger Unit := Ledger.run .inert ⟨0⟩ { world := oneEngine } tenancies

theorem environment_lifecycle_of_two_tenants :
    oneEngine.HasEngine ⟨0⟩ ∧ (oneEngine.engine ⟨0⟩).attached = none ∧
    twoTenants.references = [⟨1⟩] ∧ twoTenants.told = [⟨0⟩] ∧
    (twoTenants.world.environment ⟨0⟩).destroyed = true ∧
    (twoTenants.world.environment ⟨1⟩).refCount = 2 ∧
    (twoTenants.world.engine ⟨0⟩).attached = some ⟨1⟩ := by
  have hr : (Host.inert : Host Unit).LeavesStanding ⟨0⟩ := fun _ _ w => .refl w
  have he : oneEngine.HasEngine ⟨0⟩ := Nat.zero_lt_one
  have hempty : (oneEngine.engine ⟨0⟩).attached = none := rfl
  have hgiven : twoTenants.given = [⟨1⟩, ⟨0⟩] := by decide +kernel
  have hreferences : twoTenants.references = [⟨1⟩] := by decide +kernel
  have htold : twoTenants.told = [⟨0⟩] := by decide +kernel
  have hlife := environment_lifecycle hr oneEngine he hempty tenancies
  rw [show Ledger.run .inert ⟨0⟩ { world := oneEngine } tenancies = twoTenants from rfl] at hlife
  obtain ⟨hstand, -, -, hattached⟩ := hlife
  rw [hgiven, htold, hreferences] at hstand
  obtain ⟨-, hfirst, -⟩ := hstand ⟨0⟩ (by decide)
  obtain ⟨hsecond, -⟩ := hstand ⟨1⟩ (by decide)
  refine ⟨he, hempty, hreferences, htold, hfirst.mpr (by decide), hsecond, hattached ⟨1⟩ ?_⟩
  rw [hreferences]
  exact List.mem_cons_self

end HostBoundary
