import HostBoundary.Environment.Operation
import HostBoundary.Engine.Request
import HostBoundary.Foreign.Context
import HostBoundary.Foreign.Entry
import HostBoundary.Proofs.CallbackTables
import HostBoundary.Proofs.Moves

namespace HostBoundary

lemma getElem?_push_of_some (entries : Array α) (x y : α) (i : Nat) (h : entries[i]? = some y) :
    (entries.push x)[i]? = some y := by
  have hlt : i < entries.size := (Array.getElem?_eq_some_iff.mp h).1
  rw [Array.getElem?_push_lt hlt, ← h, Array.getElem?_eq_getElem hlt]

section Changes

variable {α : Type} (xs : Array α) (i : Nat)

lemma modify_congr (f g : α → α) (h : ∀ x, xs[i]? = some x → f x = g x) :
    xs.modify i f = xs.modify i g := by
  apply Array.ext_getElem?
  intro j
  rw [Array.getElem?_modify, Array.getElem?_modify]
  split
  · rename_i hj
    subst hj
    cases hx : xs[i]? with
    | none => rfl
    | some x => rw [Option.map_some, Option.map_some, h x hx]
  · rfl

lemma modify_same (f : α → α) (h : ∀ x, xs[i]? = some x → f x = x) : xs.modify i f = xs := by
  rw [modify_congr xs i f id h]
  exact Array.ext_getElem? fun j => by simp [Array.getElem?_modify]

lemma modify_modify (f g : α → α) : (xs.modify i f).modify i g = xs.modify i (g ∘ f) := by
  apply Array.ext_getElem?
  intro j
  simp only [Array.getElem?_modify]
  split <;> simp

end Changes

variable {σ α β : Type}

def Heap.Grown (h : Heap) : Prop := ∃ limits, (Heap.initial limits).Leads h

lemma Heap.grown_fresh (limits : HeapLimits) : (Heap.fresh limits).Grown :=
  ⟨limits, leads_fresh limits⟩

lemma Heap.Grown.leads {h h' : Heap} (hg : h.Grown) (hl : h.Leads h') : h'.Grown := by
  obtain ⟨limits, hgrown⟩ := hg
  exact ⟨limits, hgrown.trans hl⟩

-- What nothing that happens can undo: heaps change by mild operations only, and an
-- environment stays with its engine and keeps its registrations.
structure World.Evolves (w w' : World σ) : Prop where
  engines : ∀ (i : Nat) engine, w.engines[i]? = some engine →
    ∃ engine', w'.engines[i]? = some engine' ∧ engine.heap.Leads engine'.heap
  environments : ∀ (i : Nat) env, w.environments[i]? = some env →
    ∃ env', w'.environments[i]? = some env' ∧ env'.engine = env.engine ∧
      env.tables.Extends env'.tables
  added : ∀ (i : Nat) engine, w.engines[i]? = none → w'.engines[i]? = some engine → engine.heap.Grown

namespace World.Evolves

lemma refl (w : World σ) : w.Evolves w where
  engines _ engine h := ⟨engine, h, .refl _⟩
  environments _ env h := ⟨env, h, rfl, .refl _⟩
  added _ _ hnone hsome := absurd (hnone.symm.trans hsome) (by simp)

lemma trans {a b c : World σ} (hab : a.Evolves b) (hbc : b.Evolves c) : a.Evolves c where
  engines i engine h := by
    obtain ⟨middle, hm, hfirst⟩ := hab.engines i engine h
    obtain ⟨last, hl, hsecond⟩ := hbc.engines i middle hm
    exact ⟨last, hl, hfirst.trans hsecond⟩
  environments i env h := by
    obtain ⟨middle, hm, hsame, hfirst⟩ := hab.environments i env h
    obtain ⟨last, hl, hsame', hsecond⟩ := hbc.environments i middle hm
    exact ⟨last, hl, hsame'.trans hsame, fun data callback hd => hsecond _ _ (hfirst _ _ hd)⟩
  added i engine hnone hsome := by
    cases hb : b.engines[i]? with
    | none => exact hbc.added i engine hb hsome
    | some middle =>
      obtain ⟨limits, hgrown⟩ := hab.added i middle hnone hb
      obtain ⟨last, hl, hlater⟩ := hbc.engines i middle hb
      obtain rfl : last = engine := Option.some.inj (hl.symm.trans hsome)
      exact ⟨limits, hgrown.trans hlater⟩

lemma of_eq {w w' : World σ} (he : w'.engines = w.engines) (hn : w'.environments = w.environments) :
    w.Evolves w' where
  engines _ engine h := ⟨engine, he ▸ h, .refl _⟩
  environments _ env h := ⟨env, hn ▸ h, rfl, .refl _⟩
  added _ _ hnone hsome := absurd (hnone.symm.trans (he ▸ hsome)) (by simp)

lemma modifyEngine (w : World σ) (e : EngineId) (f : Engine → Engine)
    (hf : ∀ engine, w.engines[e.index]? = some engine → engine.heap.Leads (f engine).heap) :
    w.Evolves (w.modifyEngine e f) where
  engines i engine h := by
    simp only [World.modifyEngine, Array.getElem?_modify, h, Option.map_some]
    split
    · rename_i hi
      exact ⟨_, rfl, hf engine (hi ▸ h)⟩
    · exact ⟨engine, rfl, .refl _⟩
  environments _ env h := ⟨env, h, rfl, .refl _⟩
  added i engine hnone hsome := by
    simp [World.modifyEngine, Array.getElem?_modify, hnone] at hsome

lemma modifyEnvironment (w : World σ) (n : EnvironmentId) (f : Environment → Environment)
    (hf : ∀ env, w.environments[n.index]? = some env →
      (f env).engine = env.engine ∧ env.tables.Extends (f env).tables) :
    w.Evolves (w.modifyEnvironment n f) where
  engines _ engine h := ⟨engine, h, .refl _⟩
  environments i env h := by
    simp only [World.modifyEnvironment, Array.getElem?_modify, h, Option.map_some]
    split
    · rename_i hi
      exact ⟨_, rfl, hf env (hi ▸ h)⟩
    · exact ⟨env, rfl, rfl, .refl _⟩
  added _ _ hnone hsome := absurd (hnone.symm.trans hsome) (by simp)

lemma addEngine (w : World σ) (engine : Engine) (hg : engine.heap.Grown) :
    w.Evolves (w.addEngine engine).2 where
  engines _ before h := ⟨before, getElem?_push_of_some _ _ _ _ h, .refl _⟩
  environments _ env h := ⟨env, h, rfl, .refl _⟩
  added i added hnone hsome := by
    simp only [World.addEngine, Array.getElem?_push] at hsome
    split at hsome
    · exact Option.some.inj hsome ▸ hg
    · exact absurd (hnone.symm.trans hsome) (by simp)

lemma addEnvironment (w : World σ) (environment : Environment) :
    w.Evolves (w.addEnvironment environment).2 where
  engines _ engine h := ⟨engine, h, .refl _⟩
  environments _ env h :=
    ⟨env, getElem?_push_of_some _ _ _ _ h, rfl, .refl _⟩
  added _ _ hnone hsome := absurd (hnone.symm.trans hsome) (by simp)

end World.Evolves

lemma World.engine_of_getElem? {w : World σ} (e : EngineId) (engine : Engine)
    (he : w.engines[e.index]? = some engine) : w.engine e = engine := by
  simp [World.engine, Array.getD_eq_getD_getElem?, he]

lemma World.environment_of_getElem? {w : World σ} (n : EnvironmentId) (env : Environment)
    (hn : w.environments[n.index]? = some env) : w.environment n = env := by
  simp [World.environment, Array.getD_eq_getD_getElem?, hn]

abbrev World.setHeap (w : World σ) (e : EngineId) (heap : Heap) : World σ :=
  w.modifyEngine e ({ · with heap })

lemma World.modifyEngine_self (w : World σ) (e : EngineId) :
    w.modifyEngine e ({ · with heap := (w.engine e).heap }) = w := by
  have hsame : w.engines.modify e.index
      (fun engine => { engine with heap := (w.engine e).heap }) = w.engines := by
    refine modify_same _ _ _ fun engine hengine => ?_
    rw [engine_of_getElem? _ engine hengine]
  rw [modifyEngine, hsame]

def Act.Evolving (act : Act σ α) : Prop := ∀ w : World σ, w.Evolves (act w).2

namespace Act.Evolving

lemma pure (x : α) : Evolving (Pure.pure x : Act σ α) := fun w => .refl w

lemma bind {act : Act σ α} {next : α → Act σ β} (h : Evolving act)
    (hnext : ∀ x, Evolving (next x)) : Evolving (act >>= next) :=
  fun w => (h w).trans (hnext _ _)

lemma map {act : Act σ α} (h : Evolving act) (f : α → β) : Evolving (f <$> act) := h

lemma returning {act : Act σ α} (h : Evolving act) (f : α → β) :
    Evolving (act >>= fun x => Pure.pure (f x)) := h

lemma get : Evolving (MonadState.get : Act σ (World σ)) := fun w => .refl w

lemma environment (n : EnvironmentId) : Evolving (Act.environment n : Act σ Environment) :=
  fun w => .refl w

lemma onHeap (e : EngineId) {f : Heap → α × Heap} (hf : ∀ h : Heap, h.Leads (f h).2) :
    Evolving (Act.onHeap e f : Act σ α) := by
  intro w
  refine .modifyEngine w e _ fun engine he => ?_
  exact World.engine_of_getElem? e engine he ▸ hf engine.heap

lemma updateHeap (e : EngineId) {f : Heap → Heap} (hf : ∀ h : Heap, h.Leads (f h)) :
    Evolving (Act.updateHeap e f : Act σ Unit) := onHeap e hf

lemma updateEnvironment (n : EnvironmentId) {f : Environment → Environment}
    (hengine : ∀ env, (f env).engine = env.engine) (htables : ∀ env, (f env).tables = env.tables) :
    Evolving (Act.updateEnvironment n f : Act σ Unit) :=
  fun w => .modifyEnvironment w n f fun env _ => ⟨hengine env, htables env ▸ .refl _⟩

lemma updateEngine (e : EngineId) {f : Engine → Engine}
    (hf : ∀ engine, (f engine).heap = engine.heap) : Evolving (Act.updateEngine e f : Act σ Unit) :=
  fun w => .modifyEngine w e f fun engine _ => hf engine ▸ .refl _

lemma setException (n : EnvironmentId) (exception : Exception) :
    Evolving (Act.setException n exception : Act σ Unit) :=
  updateEnvironment n (fun _ => rfl) fun _ => rfl

end Act.Evolving

-- A host that plays by the rules: its routines change the world only as the boundary lets
-- them. They may call back in as they like.
structure Host.Conforming (host : Host σ) : Prop where
  function : ∀ code n this args, Act.Evolving (host.function code n this args)
  getter : ∀ code n this, Act.Evolving (host.getter code n this)
  setter : ∀ code n this value, Act.Evolving (host.setter code n this value)
  foreignFunction : ∀ code env this args, Act.Evolving (host.foreignFunction code env this args)
  foreignGetter : ∀ code env this, Act.Evolving (host.foreignGetter code env this)
  foreignSetter : ∀ code env this value, Act.Evolving (host.foreignSetter code env this value)
  reclaim : ∀ hook fields, Act.Evolving (host.reclaim hook fields)
  release : ∀ hook bytes, Act.Evolving (host.release hook bytes)

lemma Host.inert_conforming : (Host.inert : Host σ).Conforming where
  function _ _ _ _ := .pure _
  getter _ _ _ := .pure _
  setter _ _ _ _ := .pure _
  foreignFunction _ _ _ _ := .pure _
  foreignGetter _ _ _ := .pure _
  foreignSetter _ _ _ _ := .pure _
  reclaim _ _ := .pure _
  release _ _ := .pure _

end HostBoundary
