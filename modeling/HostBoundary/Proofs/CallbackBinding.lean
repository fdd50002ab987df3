import HostBoundary.Proofs.Actions
import HostBoundary.Proofs.Invocation
import HostBoundary.Session.Run

namespace HostBoundary

open World

lemma Heap.Grown.wellFormed {h : Heap} (hg : h.Grown) (hsize : h.objects.slots.size < 2 ^ 32) :
    h.WellFormed := by
  obtain ⟨limits, hl⟩ := hg
  obtain ⟨_, hprogress⟩ := hl.objects
  exact hprogress.wellFormed Arena.wellFormed_empty hsize

lemma Heap.body?_newFunction (h : Heap) (hwf : h.WellFormed)
    (hsize : h.objects.slots.size < 2 ^ 32) (data : CallbackData) (name : Option String) :
    (h.newFunction data name).2.body? (h.newFunction data name).1 =
      some (.function (.native data)) := by
  let object := functionObject (.native data) (name.getD "")
  have hobject : (h.newFunction data name).2.object? (h.newFunction data name).1 = some object := by
    have href : (h.newFunction data name).1 = (h.objects.insert object).1 := rfl
    rw [href, newFunction, object?, allocate_objects]
    exact h.objects.get?_insert_self hwf hsize object
  rw [body?, hobject]
  rfl

lemma Heap.callback?_default (site : Heap.Site) : (default : Heap).callback? site = none := by
  cases site <;> rfl

section World

variable {σ : Type} {w w' : World σ} {host : Host σ}

lemma World.after_grown (hc : host.Conforming) (s : σ) (actions : List Action) (e : EngineId)
    (engine : Engine)
    (he : (after host { host := s } actions).engines[e.index]? = some engine) :
    engine.heap.Grown :=
  (after_evolves hc { host := s } actions).added e.index engine rfl he

lemma World.environment_of_lookup? (n : EnvironmentId) (data : CallbackData) (callback : Callback)
    (h : (w.environment n).tables.lookup? data = some callback) :
    w.environments[n.index]? = some (w.environment n) := by
  cases hn : w.environments[n.index]? with
  | some env => rw [w.environment_of_getElem? n env hn]
  | none =>
    have hdefault : w.environment n = default := by
      simp [environment, Array.getD_eq_getD_getElem?, hn]
    rw [hdefault] at h
    exact absurd (h.symm.trans (CallbackTables.lookup?_default data)) (by simp)

-- A registration outlasts its environment: teardown and drop leave the tables alone.
lemma World.Evolves.lookup? (hev : w.Evolves w') (n : EnvironmentId) (data : CallbackData)
    (callback : Callback) (h : (w.environment n).tables.lookup? data = some callback) :
    (w'.environment n).tables.lookup? data = some callback := by
  obtain ⟨env', hn, -, htables⟩ :=
    hev.environments n.index _ (w.environment_of_lookup? n data callback h)
  rw [w'.environment_of_getElem? n env' hn]
  exact htables data callback h

lemma World.Evolves.callback? (hev : w.Evolves w') (e : EngineId)
    (hgrown : ∀ engine, w.engines[e.index]? = some engine → engine.heap.Grown)
    (hsize : (w'.engine e).heap.objects.slots.size < 2 ^ 32) (site : Heap.Site)
    (data data' : CallbackData) (hbefore : (w.engine e).heap.callback? site = some data)
    (hafter : (w'.engine e).heap.callback? site = some data') : data' = data := by
  cases he : w.engines[e.index]? with
  | none =>
    have hdefault : w.engine e = default := by
      simp [World.engine, Array.getD_eq_getD_getElem?, he]
    rw [hdefault] at hbefore
    exact absurd (hbefore.symm.trans (Heap.callback?_default site)) (by simp)
  | some engine =>
    obtain ⟨engine', he', hl⟩ := hev.engines e.index engine he
    rw [w.engine_of_getElem? e engine he] at hbefore
    rw [w'.engine_of_getElem? e engine' he'] at hsize hafter
    obtain ⟨_, hprogress⟩ := hl.objects
    have hwf := (hgrown engine he).wellFormed (Nat.lt_of_le_of_lt hprogress.size hsize)
    exact hl.callback hwf hsize site data data' hbefore hafter

-- Nothing but another environment in the place of its own can answer for a registration,
-- and does so exactly when it has given out the same data.
lemma World.registration?_own_iff (e : EngineId) (n : EnvironmentId) (data : CallbackData)
    (callback : Callback) (hown : (w.environment n).tables.lookup? data = some callback) :
    (w.registration? e data = none ∨ w.registration? e data = some (n, callback)) ↔
      ∀ m, w.dispatcher? e = some m → m ≠ n → (w.environment m).tables.lookup? data = none := by
  constructor
  · intro h m hm hne
    cases hl : (w.environment m).tables.lookup? data with
    | none => rfl
    | some found =>
      have htaken : w.registration? e data = some (m, found) := by
        simp [registration?, hm, hl]
      rw [htaken] at h
      rcases h with h | h
      · cases h
      · exact absurd (congrArg Prod.fst (Option.some.inj h)) hne
  · intro h
    cases hd : w.dispatcher? e with
    | none => exact .inl (by simp [registration?, hd])
    | some m =>
      by_cases hm : m = n
      · subst hm
        exact .inr (by simp [registration?, hd, hown])
      · exact .inl (by simp [registration?, hd, h m hd hm])

lemma World.engine_modify (e : EngineId) (f : Engine → Engine) (he : e.index < w.engines.size) :
    (w.modifyEngine e f).engine e = f (w.engine e) := by
  simp [World.engine, modifyEngine, Array.getD_eq_getD_getElem?, Array.getElem_modify_self, he]

lemma World.environment_modify (n : EnvironmentId) (f : Environment → Environment)
    (hn : n.index < w.environments.size) :
    (w.modifyEnvironment n f).environment n = f (w.environment n) := by
  simp [environment, modifyEnvironment, Array.getD_eq_getD_getElem?,
    Array.getElem_modify_self, hn]

lemma Environment.newFunction_native (n : EnvironmentId) (flags : Flags) (f : NativeFunction)
    (hn : n.index < w.environments.size) (he : (w.environment n).engine.index < w.engines.size)
    (hwf : (w.engine (w.environment n).engine).heap.WellFormed)
    (hsize : (w.engine (w.environment n).engine).heap.objects.slots.size < 2 ^ 32)
    (hroom : (w.environment n).tables.functions.size < 2 ^ 32) :
    ∃ r data, (Environment.newFunction n flags f w).1 = .transient r ∧
      ((Environment.newFunction n flags f w).2.engine (w.environment n).engine).heap.body? r =
        some (.function (.native data)) ∧
      ((Environment.newFunction n flags f w).2.environment n).tables.lookup? data =
        some (.function ⟨f, flags, none⟩) := by
  let made := (w.environment n).tables.register (.function ⟨f, flags, none⟩)
  -- First the tables change, then the heap of the engine.
  let w₁ := w.modifyEnvironment n ({ · with tables := made.2 })
  have hn₁ : w₁.environment n = { w.environment n with tables := made.2 } :=
    w.environment_modify n _ hn
  let h := (w₁.engine (w₁.environment n).engine).heap
  have hh : h = (w.engine (w.environment n).engine).heap := by
    simp only [h, hn₁]
    rfl
  have hrun : Environment.newFunction n flags f w = (.transient (h.newFunction made.1 none).1,
      w₁.setHeap (w₁.environment n).engine
        (h.newFunction made.1 none).2) := rfl
  have hsame : (w₁.environment n).engine = (w.environment n).engine := by rw [hn₁]
  rw [hrun, hsame]
  refine ⟨_, made.1, rfl, ?_, ?_⟩
  · rw [w₁.engine_modify _ _ he]
    exact Heap.body?_newFunction h (hh ▸ hwf) (hh ▸ hsize) made.1 none
  · show (w₁.environment n).tables.lookup? made.1 = _
    rw [hn₁]
    exact (w.environment n).tables.lookup?_register _ hroom

end World

def twoRoutines : Host Session.State :=
  Session.hostAtDepth #[.program { id := "a" }, .program { id := "b" }] 1

lemma twoRoutines_conforming : twoRoutines.Conforming := by
  have hfound : ∀ code, Session.routine? #[.program { id := "a" }, .program { id := "b" }] code = none ∨
      ∃ id, Session.routine? #[.program { id := "a" }, .program { id := "b" }] code =
        some (.program { id }) := by
    rintro ⟨_ | _ | index⟩
    · exact .inr ⟨"a", rfl⟩
    · exact .inr ⟨"b", rfl⟩
    · exact .inl rfl
  -- A routine records that it ran, and that is all; none of them is a hook.
  constructor
  case reclaim | release =>
    intro hook _
    rcases hfound hook.code with hroutine | ⟨id, hroutine⟩ <;>
      simp only [twoRoutines, Session.hostAtDepth, hroutine] <;> exact .pure ()
  all_goals
    intro code
    rcases hfound code with hroutine | ⟨id, hroutine⟩ <;>
      simp only [twoRoutines, Session.hostAtDepth, Session.program, hroutine] <;> intros <;>
      exact fun w => .of_eq rfl rfl

def keptFunction : List Action :=
  [.newEngine {}, .attach ⟨0⟩, .operate ⟨0⟩ (.newFunction 0 ⟨⟨0⟩, none⟩),
    .operate ⟨0⟩ (.newReference (.transient (.first 1)))]

def secondTenant : List Action :=
  [.teardown ⟨0⟩, .drop ⟨0⟩, .attach ⟨0⟩, .operate ⟨1⟩ (.newFunction 0 ⟨⟨1⟩, none⟩)]

-- At any later moment, invoking a place that was made for a registration runs its callback or
-- fails, unless another environment that has the engine now has given out the same data.
theorem callback_binding_exact {σ : Type} (host : Host σ) (hc : host.Conforming) (s : σ)
    (before later : List Action) (n : EnvironmentId) (data : CallbackData) (callback : Callback)
    (hregistered : ((World.after host { host := s } before).environment n).tables.lookup? data =
      some callback) :
    let w := World.after host { host := s } before
    let w' := w.after host later
    let e := (w.environment n).engine
    ((w'.registration? e data = none ∨ w'.registration? e data = some (n, callback)) ↔
      ∀ m, w'.dispatcher? e = some m → m ≠ n → (w'.environment m).tables.lookup? data = none) ∧
    (∀ use : Engine.Use, use.Idle w' e ∨
      ∃ site found, use.Through (w'.engine e).heap site ∧
        (w'.engine e).heap.callback? site = some found ∧
        ((w.engine e).heap.callback? site = some data →
          (w'.engine e).heap.objects.slots.size < 2 ^ 32 → found = data) ∧
        match w'.registration? e found with
        | none => use.Fails w' e
        | some (m, other) => use.Runs host w' e m other) ∧
    (∀ other, (w.environment n).tables.count other < 2 ^ 32 →
      let made := (w.environment n).tables.register other
      made.2.lookup? made.1 = some other) ∧
    ∀ flags f, e.index < w.engines.size → (w.engine e).heap.objects.slots.size < 2 ^ 32 →
      (w.environment n).tables.functions.size < 2 ^ 32 →
      let made := Environment.newFunction n flags f w
      ∃ r given, made.1 = .transient r ∧ (made.2.engine e).heap.callback? (.function r) = some given ∧
        (made.2.environment n).tables.lookup? given = some (.function ⟨f, flags, none⟩) := by
  intro w w' e
  have hev : w.Evolves w' := after_evolves hc w later
  have hgrown : ∀ engine, w.engines[e.index]? = some engine → engine.heap.Grown :=
    after_grown hc s before e
  refine ⟨?_, ?_, ?_, ?_⟩
  · exact registration?_own_iff e n data callback (hev.lookup? n data callback hregistered)
  · intro use
    rcases use.spec w' e host with hidle | ⟨site, found, hthrough, hsite, hfound⟩
    · exact .inl hidle
    · refine .inr ⟨site, found, hthrough, hsite, ?_, hfound⟩
      intro hbefore hsize
      exact hev.callback? e hgrown hsize site data found hbefore hsite
  · intro other hroom
    exact (w.environment n).tables.lookup?_register other hroom
  · intro flags f he hsize hroom
    have hn : n.index < w.environments.size :=
      (Array.getElem?_eq_some_iff.mp (w.environment_of_lookup? n data callback hregistered)).1
    have hwf : (w.engine e).heap.WellFormed := by
      have hsome := Array.getElem?_eq_getElem he
      have hengine := w.engine_of_getElem? e _ hsome
      rw [hengine] at hsize ⊢
      exact (hgrown _ hsome).wellFormed hsize
    obtain ⟨r, data, hr, hbody, hlookup⟩ :=
      Environment.newFunction_native n flags f hn he hwf hsize hroom
    exact ⟨r, data, hr, Engine.callback?_of_native _ _ r data hbody, hlookup⟩

theorem callback_binding_exact_of_second_tenant :
    let w := World.after twoRoutines { host := {} } keptFunction
    let w' := w.after twoRoutines secondTenant
    let e := (w.environment ⟨0⟩).engine
    let data := CallbackData.encode .function 0
    let callback := Callback.function ⟨⟨⟨0⟩, none⟩, 0, none⟩
    twoRoutines.Conforming ∧ (w.environment ⟨0⟩).tables.lookup? data = some callback ∧
    ((w'.registration? e data = none ∨ w'.registration? e data = some (⟨0⟩, callback)) ↔
      ∀ m, w'.dispatcher? e = some m → m ≠ ⟨0⟩ →
        (w'.environment m).tables.lookup? data = none) :=
  have hregistered : ((World.after twoRoutines { host := {} } keptFunction).environment
      ⟨0⟩).tables.lookup? (.encode .function 0) = some (.function ⟨⟨⟨0⟩, none⟩, 0, none⟩) := by
    decide +kernel
  have hc := twoRoutines_conforming
  ⟨hc, hregistered, (callback_binding_exact twoRoutines hc {} keptFunction secondTenant ⟨0⟩
    (.encode .function 0) (.function ⟨⟨⟨0⟩, none⟩, 0, none⟩) hregistered).1⟩

-- The condition can fail. The kept function still calls for the first registration of its
-- own environment, and what runs is the first registration of the other.
theorem call_runs_second_tenant : let w := World.after twoRoutines { host := {} } keptFunction
    let w' := w.after twoRoutines secondTenant
    (w.engine ⟨0⟩).heap.callback? (.function (.first 1)) = some (.encode .function 0) ∧
    (w.environment ⟨0⟩).tables.lookup? (.encode .function 0) =
      some (.function ⟨⟨⟨0⟩, none⟩, 0, none⟩) ∧
    ((Engine.Use.call (.first 1) .undefined []).run twoRoutines ⟨0⟩ w').2.host.events =
      [.callback "b" none [] [] none] := by
  refine ⟨?_, ?_, ?_⟩
  · decide +kernel
  · decide +kernel
  · cbv

end HostBoundary
