import HostBoundary.Proofs.Temporaries

namespace HostBoundary

namespace Heap

def denoted? (h : Heap) : Handle → Option ObjectRef
  | .transient r => if h.isAlive r then some r else none
  | .persistent slot => (h.persistents.get? slot).bind fun entry =>
    if h.isAlive entry.target then some entry.target else none

-- A handle that is good for nothing any more: its object was collected, or its slot is gone.
def Stale (h : Heap) : Handle → Prop
  | .transient r => h.isAlive r = false
  | .persistent slot => h.persistents.get? slot = none

def lent (h : Heap) (rs : List ObjectRef) : Heap :=
  match h.pushed with
  | [] => h
  | scope :: outer => { h with pushed := (rs ++ scope) :: outer }

def lendings (h : Heap) : Handle → List ObjectRef
  | .transient _ => []
  | .persistent slot => (h.denoted? (.persistent slot)).toList

section Lending

variable (h : Heap) (rs : List ObjectRef) (handle : Handle)

@[simp] lemma lent_nil : h.lent [] = h := by
  unfold lent
  split
  · rfl
  · rename_i heq
    rw [List.nil_append, ← heq]

lemma lent_lent (rs' : List ObjectRef) : (h.lent rs).lent rs' = h.lent (rs' ++ rs) := by
  cases hp : h.pushed with
  | nil | cons => simp [lent, hp]

@[simp] lemma objects_lent : (h.lent rs).objects = h.objects := by
  unfold lent
  split <;> rfl

@[simp] lemma persistents_lent : (h.lent rs).persistents = h.persistents := by
  unfold lent
  split <;> rfl

@[simp] lemma isAlive_lent (r : ObjectRef) : (h.lent rs).isAlive r = h.isAlive r := by
  rw [isAlive, objects_lent, isAlive]

@[simp] lemma stale_lent : (h.lent rs).Stale handle ↔ h.Stale handle := by
  cases handle <;> simp [Stale]

@[simp] lemma denoted?_lent : (h.lent rs).denoted? handle = h.denoted? handle := by
  cases handle <;> simp [denoted?]

variable {h handle}

lemma Stale.denoted (hstale : h.Stale handle) : h.denoted? handle = none := by
  cases handle with
  | transient r =>
    have hdead : h.isAlive r = false := hstale
    simp [denoted?, hdead]
  | persistent slot =>
    have hgone : h.persistents.get? slot = none := hstale
    simp [denoted?, hgone]

lemma Grown.targetsLive (hgrown : h.Grown) : h.TargetsLive := by
  obtain ⟨limits, hleads⟩ := hgrown
  obtain ⟨ops, rfl⟩ := hleads.exists_after
  exact after_targetsLive _ ops (by simp [TargetsLive, initial, Arena.entries])

-- Slots that are there have live targets, so that nothing else fails to denote.
lemma Grown.stale_iff (hgrown : h.Grown) (handle : Handle) :
    h.Stale handle ↔ (h.resolveHandle handle).1 = none := by
  cases handle with
  | transient r => simp [Stale, resolveHandle]
  | persistent slot =>
    cases hentry : h.persistents.get? slot with
    | none => simp [Stale, resolveHandle, target, hentry]
    | some entry =>
      have halive := hgrown.targetsLive entry (h.persistents.mem_entries_of_get? slot entry hentry)
      simp [Stale, resolveHandle, target, hentry, halive]

lemma resolveHandle_eq (h : Heap) (handle : Handle) :
    h.resolveHandle handle = (h.denoted? handle, h.lent (h.lendings handle)) := by
  cases handle with
  | transient r => simp [resolveHandle, denoted?, lendings]
  | persistent slot =>
    cases hentry : h.persistents.get? slot with
    | none => simp [resolveHandle, target, denoted?, lendings, hentry]
    | some entry =>
      by_cases halive : h.isAlive entry.target = true
      · cases hp : h.pushed <;>
          simp [resolveHandle, target, denoted?, lendings, hentry, halive, lent, root, hp]
      · simp [resolveHandle, target, denoted?, lendings, hentry, halive]

lemma denoted_of_lendings {r : ObjectRef} (hr : r ∈ h.lendings handle) :
    h.denoted? handle = some r := by
  cases handle with
  | transient _ => exact absurd hr (by simp [lendings])
  | persistent slot => simpa [lendings] using hr

end Lending

end Heap

variable {σ α β : Type} {n : EnvironmentId}

namespace World

def lend (w : World σ) (n : EnvironmentId) (rs : List ObjectRef) : World σ :=
  w.modifyEngine (w.environment n).engine ({ · with heap := (w.heapOf n).lent rs })

section Lend

variable (w : World σ) (n : EnvironmentId) (rs : List ObjectRef)

lemma modifyEngine_heapOf :
    w.modifyEngine (w.environment n).engine ({ · with heap := w.heapOf n }) = w :=
  w.modifyEngine_self _

@[simp] lemma lend_nil : w.lend n [] = w := by
  rw [lend, Heap.lent_nil, modifyEngine_heapOf]

lemma heapOf_modifyEngine (h : Heap) :
    (w.modifyEngine (w.environment n).engine ({ · with heap := h })).heapOf n =
      if w.HasEngine (w.environment n).engine then h else w.heapOf n := by
  simp only [heapOf, environment_modifyEngine, engine_modifyEngine, true_and]
  split <;> rfl

lemma heapOf_lend : (w.lend n rs).heapOf n = (w.heapOf n).lent rs := by
  rw [lend, heapOf_modifyEngine]
  split
  · rfl
  · rename_i hnone
    have hdefault : w.engine (w.environment n).engine = default := by
      rw [engine, Array.getD_eq_getD_getElem?, Array.getElem?_eq_none (Nat.le_of_not_lt hnone)]
      rfl
    rw [heapOf, hdefault]
    rfl

lemma lend_lend (rs' : List ObjectRef) : (w.lend n rs).lend n rs' = w.lend n (rs' ++ rs) := by
  have hheap := heapOf_lend w n rs
  simp only [lend, environment_modifyEngine] at hheap ⊢
  rw [hheap, Heap.lent_lent, modifyEngine, modifyEngine, modifyEngine, modify_modify]
  rfl

end Lend

end World

namespace Heap

-- All that is done is to lend what some of these handles denote.
def Lends (h : Heap) (handles : List Handle) (h' : Heap) : Prop :=
  ∃ rs, (∀ r ∈ rs, ∃ handle ∈ handles, h.denoted? handle = some r) ∧ h' = h.lent rs

-- What comes of looking up these handles: nothing if one of them is stale.
structure Looked (h : Heap) (handles : List Handle) (done : Option α × Heap) : Prop where
  lends : h.Lends handles done.2
  stale : ∀ handle ∈ handles, h.Stale handle → done.1 = none

lemma Lends.refl (h : Heap) (handles : List Handle) : h.Lends handles h :=
  ⟨[], by simp, h.lent_nil.symm⟩

lemma Lends.stale {h h' : Heap} {handles : List Handle} (hl : h.Lends handles h')
    (handle : Handle) : h'.Stale handle ↔ h.Stale handle := by
  obtain ⟨rs, -, rfl⟩ := hl
  exact stale_lent h rs handle

lemma Lends.trans {h h' h'' : Heap} {handles others : List Handle} (hab : h.Lends handles h')
    (hbc : h'.Lends others h'') : h.Lends (handles ++ others) h'' := by
  obtain ⟨rs, hrs, rfl⟩ := hab
  obtain ⟨rs', hrs', rfl⟩ := hbc
  refine ⟨rs' ++ rs, fun r hr => ?_, h.lent_lent rs rs'⟩
  rcases List.mem_append.mp hr with hr | hr
  · obtain ⟨handle, hmem, hdenoted⟩ := hrs' r hr
    rw [denoted?_lent] at hdenoted
    exact ⟨handle, List.mem_append_right _ hmem, hdenoted⟩
  · obtain ⟨handle, hmem, hdenoted⟩ := hrs r hr
    exact ⟨handle, List.mem_append_left _ hmem, hdenoted⟩

lemma Lends.weaken {h h' : Heap} {handles others : List Handle} (hl : h.Lends handles h')
    (hsub : handles ⊆ others) : h.Lends others h' := by
  obtain ⟨rs, hrs, heq⟩ := hl
  refine ⟨rs, fun r hr => ?_, heq⟩
  obtain ⟨handle, hmem, hdenoted⟩ := hrs r hr
  exact ⟨handle, hsub hmem, hdenoted⟩

variable (h : Heap)

lemma looked_nothing (x : Option α) : h.Looked [] (x, h) := ⟨.refl h [], by simp⟩

lemma looked_resolveHandle (handle : Handle) : h.Looked [handle] (h.resolveHandle handle) := by
  rw [resolveHandle_eq]
  refine ⟨⟨_, fun r hr => ⟨handle, by simp, denoted_of_lendings hr⟩, rfl⟩, ?_⟩
  intro other hmem hstale
  obtain rfl := List.mem_singleton.mp hmem
  exact hstale.denoted

lemma looked_ofTagged (value : Tagged) :
    h.Looked value.handle?.toList ((h.ofTagged value).1.toOption, (h.ofTagged value).2) := by
  cases value with
  | object kind handle =>
    have hresolve := h.looked_resolveHandle handle
    simp only [ofTagged]
    split <;> rename_i heq <;> rw [heq] at hresolve
    · exact ⟨hresolve.lends, fun other hmem hstale =>
        absurd (hresolve.stale other hmem hstale) (by simp)⟩
    · exact ⟨hresolve.lends, fun _ _ _ => rfl⟩
  | _ => exact h.looked_nothing _

lemma looked_ofTaggedAll (values : List Tagged) :
    h.Looked (values.filterMap Tagged.handle?)
      ((h.ofTaggedAll values).1.toOption, (h.ofTaggedAll values).2) := by
  induction values generalizing h with
  | nil => exact h.looked_nothing _
  | cons first rest ih =>
    have hhandles : (first :: rest).filterMap Tagged.handle? =
        first.handle?.toList ++ rest.filterMap Tagged.handle? := by
      cases hf : first.handle? <;> simp [hf]
    have hfirst := h.looked_ofTagged first
    rw [hhandles]
    simp only [ofTaggedAll]
    cases hstep : h.ofTagged first with
    | mk result h₁ =>
      rw [hstep] at hfirst
      cases result with
      | error e =>
        exact ⟨hfirst.lends.weaken (List.subset_append_left _ _), fun _ _ _ => rfl⟩
      | ok value =>
        have hrest := ih h₁
        have hstale : ∀ handle ∈ first.handle?.toList ++ rest.filterMap Tagged.handle?,
            h.Stale handle → (h₁.ofTaggedAll rest).1.toOption = none := by
          intro handle hmem hbad
          rcases List.mem_append.mp hmem with hmem | hmem
          · exact absurd (hfirst.stale handle hmem hbad) (by simp [Except.toOption])
          · exact hrest.stale handle hmem ((hfirst.lends.stale handle).mpr hbad)
        have hlends := hfirst.lends.trans hrest.lends
        dsimp only
        split <;> rename_i heq <;> rw [heq] at hstale hlends
        · exact ⟨hlends, fun _ _ _ => rfl⟩
        · exact ⟨hlends, fun handle hmem hbad =>
            absurd (hstale handle hmem hbad) (by simp [Except.toOption])⟩

end Heap

namespace World

def Lends (n : EnvironmentId) (handles : List Handle) (w w' : World σ) : Prop :=
  ∃ rs, (∀ r ∈ rs, ∃ handle ∈ handles, (w.heapOf n).denoted? handle = some r) ∧ w' = w.lend n rs

namespace Lends

variable {w w' w'' : World σ} {handles others : List Handle}

lemma of_heap {h : Heap} (hl : (w.heapOf n).Lends handles h) :
    Lends n handles w (w.modifyEngine (w.environment n).engine ({ · with heap := h })) := by
  obtain ⟨rs, hrs, rfl⟩ := hl
  exact ⟨rs, hrs, rfl⟩

lemma refl (w : World σ) (handles : List Handle) : Lends n handles w w :=
  ⟨[], by simp, (w.lend_nil n).symm⟩

lemma heapOf (hl : Lends n handles w w') : (w.heapOf n).Lends handles (w'.heapOf n) := by
  obtain ⟨rs, hrs, rfl⟩ := hl
  exact ⟨rs, hrs, w.heapOf_lend n rs⟩

lemma trans (hab : Lends n handles w w') (hbc : Lends n others w' w'') :
    Lends n (handles ++ others) w w'' := by
  obtain ⟨rs, hrs, hheap⟩ := hab.heapOf.trans hbc.heapOf
  obtain ⟨as, -, rfl⟩ := hab
  obtain ⟨bs, -, rfl⟩ := hbc
  rw [lend_lend] at hheap ⊢
  rw [heapOf_lend] at hheap
  exact ⟨rs, hrs, by rw [lend, hheap, lend]⟩

lemma weaken (hl : Lends n handles w w') (hsub : handles ⊆ others) : Lends n others w w' := by
  obtain ⟨rs, hrs, heq⟩ := hl
  refine ⟨rs, fun r hr => ?_, heq⟩
  obtain ⟨handle, hmem, hdenoted⟩ := hrs r hr
  exact ⟨handle, hsub hmem, hdenoted⟩

end Lends

end World

namespace Act

-- Something that looks up these handles and finds nothing if one of them is stale.
structure Looks (n : EnvironmentId) (handles : List Handle) (act : Act σ (Option α)) : Prop where
  lends : ∀ w : World σ, World.Lends n handles w (act w).2
  stale : ∀ w : World σ, ∀ handle ∈ handles, (w.heapOf n).Stale handle → (act w).1 = none

-- Given a stale handle among these, all that is done is to lend what others of them denote, and the
-- answer is this one, whoever the host is: none of its routines is run.
def Inert (n : EnvironmentId) (handles : List Handle) (empty : α) (act : Host σ → Act σ α) : Prop :=
  ∀ w : World σ, (∃ handle ∈ handles, (w.heapOf n).Stale handle) →
    ∃ w', World.Lends n handles w w' ∧ ∀ host, act host w = (empty, w')

namespace Looks

variable {handles others : List Handle} {act : Act σ (Option α)} {empty : β}

lemma onHeap {f : Heap → Option α × Heap} (hf : ∀ h : Heap, h.Looked handles (f h)) :
    Looks n handles (Environment.onHeap n f : Act σ (Option α)) where
  lends w := .of_heap (hf (w.heapOf n)).lends
  stale w := (hf (w.heapOf n)).stale

lemma resolve (n : EnvironmentId) (handle : Handle) :
    Looks n [handle] (Environment.resolve n handle : Act σ (Option ObjectRef)) :=
  onHeap fun h => h.looked_resolveHandle handle

lemma toValue (n : EnvironmentId) (value : Tagged) :
    Looks n value.handle?.toList (Environment.toValue n value : Act σ (Option Value)) :=
  onHeap fun h => h.looked_ofTagged value

lemma toValues (n : EnvironmentId) (values : List Tagged) :
    Looks n (values.filterMap Tagged.handle?)
      (Environment.toValues n values : Act σ (Option (List Value))) :=
  onHeap fun h => h.looked_ofTaggedAll values

variable (hl : Looks n handles act)

include hl

lemma inert : Inert n handles none fun _ : Host σ => act := by
  rintro w ⟨handle, hmem, hstale⟩
  exact ⟨_, hl.lends w, fun _ => Prod.ext (hl.stale w handle hmem hstale) rfl⟩

lemma andThen {next : Host σ → Option α → Act σ β} (hnone : ∀ host w, next host none w = (empty, w))
    (hsome : ∀ x, Inert n others empty fun host => next host (some x)) :
    Inert n (handles ++ others) empty fun host => act >>= next host := by
  rintro w ⟨handle, hmem, hstale⟩
  have hlends := hl.lends w
  have hnext : ∀ host, (act >>= next host) w = next host (act w).1 (act w).2 := fun _ => rfl
  simp only [hnext]
  cases hfound : (act w).1 with
  | none => exact ⟨_, hlends.weaken (List.subset_append_left _ _), fun host => hnone host _⟩
  | some x =>
    rcases List.mem_append.mp hmem with hmem | hmem
    · exact absurd ((hl.stale w handle hmem hstale).symm.trans hfound) (by simp)
    · obtain ⟨w', hlater, hdone⟩ :=
        hsome x (act w).2 ⟨handle, hmem, (hlends.heapOf.stale handle).mpr hstale⟩
      exact ⟨w', hlends.trans hlater, hdone⟩

lemma both {γ : Type} {act' : Act σ (Option γ)} (hl' : Looks n others act')
    {next : Host σ → Option α → Option γ → Act σ β}
    (hnone : ∀ host y w, next host none y w = (empty, w))
    (hnone' : ∀ host x w, next host x none w = (empty, w)) :
    Inert n (handles ++ others) empty fun host => act >>= fun x => act' >>= next host x := by
  rintro w ⟨handle, hmem, hstale⟩
  have hlends := hl.lends w
  refine ⟨_, hlends.trans (hl'.lends (act w).2), fun host => ?_⟩
  change next host (act w).1 (act' (act w).2).1 (act' (act w).2).2 = _
  rcases List.mem_append.mp hmem with hmem | hmem
  · rw [hl.stale w handle hmem hstale, hnone]
  · rw [hl'.stale _ handle hmem ((hlends.heapOf.stale handle).mpr hstale), hnone']

end Looks

namespace Inert

variable {handles : List Handle} {blank : α} {empty : β} {act : Host σ → Act σ α}

lemma nil (act : Host σ → Act σ α) : Inert n [] blank act := by
  rintro w ⟨handle, hmem, -⟩
  cases hmem

lemma pure (blank : α) : Inert n handles blank fun _ : Host σ => (Pure.pure blank : Act σ α) :=
  fun w _ => ⟨w, .refl w handles, fun _ => rfl⟩

lemma andThen (hi : Inert n handles blank act) {next : Host σ → α → Act σ β}
    (hblank : ∀ host w, next host blank w = (empty, w)) :
    Inert n handles empty fun host => act host >>= next host := by
  intro w hstale
  obtain ⟨w', hlends, hdone⟩ := hi w hstale
  refine ⟨w', hlends, fun host => ?_⟩
  change next host (act host w).1 (act host w).2 = _
  rw [hdone, hblank]

lemma returning (hi : Inert n handles blank act) (f : α → β) :
    Inert n handles (f blank) fun host => act host >>= fun x => Pure.pure (f x) :=
  hi.andThen fun _ _ => rfl

-- Looking around before makes no difference.
lemma reading {read : Act σ β} (hread : ∀ w, (read w).2 = w) {next : Host σ → β → Act σ α}
    (hi : ∀ x, Inert n handles blank fun host => next host x) :
    Inert n handles blank fun host => read >>= next host := by
  intro w hstale
  have hnext : ∀ host, (read >>= next host) w = next host (read w).1 w := by
    intro host
    exact congrArg (next host (read w).1) (hread w)
  simp only [hnext]
  exact hi (read w).1 w hstale

end Inert

lemma Looks.inspect (n : EnvironmentId) (handle : Handle) (f : Heap → ObjectRef → Option α) :
    Looks n [handle] (Environment.inspect n handle f : Act σ (Option α)) := by
  have hresolve := Looks.resolve (σ := σ) n handle
  have hinspect : ∀ w : World σ, Environment.inspect n handle f w =
      ((Environment.resolve n handle w).1.bind (f ((Environment.resolve n handle w).2.heapOf n)),
        (Environment.resolve n handle w).2) := by
    intro w
    rw [Environment.inspect, Engine.bind_apply]
    cases (Environment.resolve n handle w).1 <;> rfl
  refine ⟨fun w => ?_, fun w other hmem hstale => ?_⟩
  · rw [hinspect]
    exact hresolve.lends w
  · rw [hinspect, hresolve.stale w other hmem hstale]
    rfl

end Act

namespace Environment

open Act

variable (n : EnvironmentId)

lemma inert_getOn (r : ObjectRef) (key : Tagged) (flags : Flags) :
    Inert n key.handle?.toList none fun host : Host σ => getOn host n r key flags :=
  (Looks.toValue n key).inert.andThen fun _ _ => rfl

lemma inert_setOn (r : ObjectRef) (key value : Tagged) :
    Inert n (key.handle?.toList ++ value.handle?.toList) false
      fun host : Host σ => setOn host n r key value :=
  (Looks.toValue n key).both (Looks.toValue n value) (fun _ _ _ => rfl) fun _ x _ => by
    cases x <;> rfl

section

variable (object : Handle)

lemma inert_getProperty (key : Tagged) (flags : Flags) :
    Inert n ([object] ++ key.handle?.toList) none
      fun host : Host σ => getProperty host n object key flags :=
  (Looks.resolve n object).andThen (fun _ _ => rfl) fun r => inert_getOn n r key flags

lemma inert_callFunction (function : Handle) (this : Option Handle) (args : List Tagged)
    (flags : Flags) :
    Inert n ([function] ++ (this.toList ++ args.filterMap Tagged.handle?)) none
      fun host : Host σ => callFunction host n function this args flags := by
  refine (Looks.resolve n function).andThen (fun _ _ => rfl) fun f => ?_
  cases this with
  | none =>
    refine Inert.reading (fun _ => rfl) fun receiver => ?_
    cases receiver with
    | none => exact .pure none
    | some receiver => exact (Looks.toValues n args).inert.andThen fun _ _ => rfl
  | some handle =>
    exact (Looks.resolve n handle).andThen (fun _ _ => rfl) fun receiver =>
      (Looks.toValues n args).inert.andThen fun _ _ => rfl

lemma inert_registerCallback (owner : Option Handle) (domain : String) (flags : Flags)
    (f : NativeFunction) :
    Inert n owner.toList false
      fun host : Host σ => registerCallback host n owner domain flags f := by
  cases owner with
  | none => exact .nil _
  | some handle =>
    simp only [registerCallback]
    cases segments? domain with
    | none => exact .pure false
    | some segments => exact (Looks.resolve n handle).inert.andThen fun _ _ => rfl

lemma inert_constructWith (f : ObjectRef) (args : List Tagged) :
    Inert n (args.filterMap Tagged.handle?) none
      fun host : Host σ => constructWith host n f args :=
  (Looks.toValues n args).inert.andThen fun _ _ => rfl

lemma inert_setProperty (key value : Tagged) :
    Inert n ([object] ++ (key.handle?.toList ++ value.handle?.toList)) false
      fun host : Host σ => setProperty host n object key value :=
  (Looks.resolve n object).andThen (fun _ _ => rfl) fun r => inert_setOn n r key value

lemma inert_setIndex (index : UInt32) (value : Tagged) :
    Inert n ([object] ++ value.handle?.toList) false
      fun host : Host σ => setIndex host n object index value :=
  (Looks.resolve n object).both (Looks.toValue n value) (fun _ _ _ => rfl) fun _ x _ => by
    cases x <;> rfl

lemma inert_callAsConstructor (function : Handle) (args : List Tagged) :
    Inert n ([function] ++ args.filterMap Tagged.handle?) none
      fun host : Host σ => callAsConstructor host n function args :=
  (Looks.resolve n function).andThen (fun _ _ => rfl) fun f => inert_constructWith n f args

lemma inert_settleWith (resolver : Handle) (value : Tagged)
    (f : Heap → ObjectRef → Value → Bool × Heap) :
    Inert n ([resolver] ++ value.handle?.toList) false
      fun _ : Host σ => settleWith n resolver value f :=
  (Looks.resolve n resolver).both (Looks.toValue n value) (fun _ _ _ => rfl) fun _ x _ => by
    cases x <;> rfl

lemma inert_handleWith (promise handler : Handle)
    (f : Heap → ObjectRef → ObjectRef → Option ObjectRef × Heap) :
    Inert n ([promise] ++ [handler]) false
      fun _ : Host σ => handleWith n promise handler f :=
  (Looks.resolve n promise).both (Looks.resolve n handler) (fun _ _ _ => rfl) fun _ x _ => by
    cases x <;> rfl

lemma inert_newReference : Inert n [object] none fun _ : Host σ => newReference n object :=
  (Looks.resolve n object).inert.andThen fun _ _ => rfl

lemma inert_newWeakReference (hook : Option ReclaimHook) :
    Inert n [object] none fun _ : Host σ => newWeakReference n object hook :=
  (inert_newReference n object).andThen fun _ _ => rfl

end

variable {n} in
lemma onHeap_same {f : Heap → α × Heap} {w : World σ} {x : α}
    (hf : f (w.heapOf n) = (x, w.heapOf n)) : onHeap n f w = (x, w) := by
  change ((f (w.heapOf n)).1, w.modifyEngine (w.environment n).engine
    ({ · with heap := (f (w.heapOf n)).2 })) = _
  rw [hf, w.modifyEngine_heapOf n]

lemma inert_makeWeak (handle : Handle) (hook : Option ReclaimHook) :
    Inert n [handle] none fun _ : Host σ => makeWeak n handle hook := by
  rintro w ⟨other, hmem, hstale⟩
  obtain rfl := List.mem_singleton.mp hmem
  refine ⟨w, .refl w _, fun _ => ?_⟩
  cases other with
  | transient r => rfl
  | persistent slot =>
    have hgone : (w.heapOf n).persistents.get? slot = none := hstale
    have hweaken : onHeap n (·.weaken slot hook) w = (false, w) :=
      onHeap_same (by simp [Heap.weaken, Arena.contains, hgone])
    simp only [makeWeak]
    rw [Engine.bind_apply, hweaken]
    rfl

lemma inert_releaseHandle (handle : Handle) :
    Inert n [handle] false fun _ : Host σ => releaseHandle n handle := by
  rintro w ⟨other, hmem, hstale⟩
  obtain rfl := List.mem_singleton.mp hmem
  refine ⟨w, .refl w _, fun _ => onHeap_same ?_⟩
  cases other with
  | transient r => rfl
  | persistent slot =>
    have hgone : (w.heapOf n).persistents.get? slot = none := hstale
    have hremove : (w.heapOf n).persistents.remove slot = (false, (w.heapOf n).persistents) := by
      simp [Arena.remove, Arena.contains, hgone]
    rw [Heap.releaseHandle, Heap.dispose, hremove]

lemma inert_resolve (object : Handle) {empty : β} {next : Option ObjectRef → Act σ β}
    (hnone : next none = Pure.pure empty) :
    Inert n [object] empty fun _ : Host σ => resolve n object >>= next :=
  (Looks.resolve n object).inert.andThen fun _ w => congrFun hnone w

namespace Operation

-- The objects that an operation is given, those among its values too.
def handles : Known → List Handle
  | .executeScript code _ _ _ => code.handle?.toList
  | .registerCallback owner _ _ _ => owner.toList
  | .newInstanceWithConstructor _ args | .newArrayWithValues args => args.filterMap (·.handle?)
  | .getGlobal key _ => key.handle?.toList
  | .setGlobal key value => key.handle?.toList ++ value.handle?.toList
  | .getProperty o key _ => o :: key.handle?.toList
  | .setProperty o key value => o :: (key.handle?.toList ++ value.handle?.toList)
  | .setPropertyValue o _ value | .setIndex o _ value | .resolve o value | .reject o value =>
    o :: value.handle?.toList
  | .call this args f _ => f :: (this.toList ++ args.filterMap (·.handle?))
  | .construct args f => f :: args.filterMap (·.handle?)
  | .promiseThen promise handler | .promiseCatch promise handler => [promise, handler]
  | .objectType o | .typedArrayType o | .newReference o | .newWeakReference o _ | .makeWeak o _
  | .deleteReference o | .field _ o | .setField _ o _ | .propertyNames o | .length o
  | .getIndex o _ _ | .newTypedArrayOnBuffer _ o _ _ | .typedArrayCount o | .typedArrayBuffer o
  | .typedArrayPointer o _ | .newDataView o _ _ | .dataViewLength o | .dataViewBuffer o
  | .arrayBufferLength o | .readBuffer o | .writeBuffer o _ _ | .resolverPromise o
  | .promiseHandled o | .promiseState o | .promiseResult o _ => [o]
  | _ => []

def empty : Known → Answer
  | .executeScript .. | .getGlobal .. | .getProperty .. | .getIndex .. | .call ..
  | .promiseResult .. => .tagged none
  | .registerCallback .. | .setField .. | .setGlobal .. | .setProperty .. | .setPropertyValue ..
  | .setIndex .. | .writeBuffer .. | .resolve .. | .reject .. | .promiseThen .. | .promiseCatch ..
  | .promiseHandled .. => .boolean false
  | .length _ | .typedArrayCount _ | .dataViewLength _ | .arrayBufferLength _ => .count 0
  | .objectType _ => .type .null
  | .typedArrayType _ => .elementKind none
  | .field .. => .pointer 0
  | .typedArrayPointer .. => .offset none
  | .readBuffer _ => .bytes none
  | .promiseState _ => .promiseState none
  | .deleteReference _ => .done
  | _ => .handle none

-- The world in which an operation looks up what it is given. A class has its constructor made
-- first.
def prepared (n : EnvironmentId) (w : World σ) : Known → World σ
  | .newInstanceWithConstructor c _ => (Environment.classConstructor n c w).2
  | _ => w

end Operation

lemma inert_perform (op : Operation.Known) (hop : ∀ c args, op ≠ .newInstanceWithConstructor c args) :
    Inert n op.handles op.empty fun host : Host σ => perform host n op := by
  cases op with
  | newInstanceWithConstructor c args => exact absurd rfl (hop c args)
  | executeScript code file line flags =>
    cases code with
    | object kind handle => exact .pure _
    | _ => exact .nil _
  | registerCallback owner domain flags f =>
    exact (inert_registerCallback n owner domain flags f).returning _
  | objectType o | typedArrayType o | field _ o | length o | typedArrayCount o
  | typedArrayBuffer o | dataViewLength o | dataViewBuffer o | arrayBufferLength o
  | promiseHandled o => exact ((Looks.inspect n o _).inert.returning _).returning _
  | newReference o => exact (inert_newReference n o).returning _
  | newWeakReference o hook => exact (inert_newWeakReference n o hook).returning _
  | makeWeak o hook => exact (inert_makeWeak n o hook).returning _
  | deleteReference o =>
    exact ((inert_releaseHandle n o).returning fun _ => ()).returning fun _ => Answer.done
  | setField _ o | writeBuffer o | resolverPromise o =>
    refine .returning ?_ _
    exact inert_resolve n o rfl
  | getGlobal key flags =>
    refine .returning ?_ _
    exact Inert.reading (fun _ => rfl) fun r => inert_getOn n r key flags
  | setGlobal key value =>
    refine .returning ?_ _
    exact Inert.reading (fun _ => rfl) fun r => inert_setOn n r key value
  | getProperty o key flags => exact (inert_getProperty n o key flags).returning _
  | setProperty o key value => exact (inert_setProperty n o key value).returning _
  | setPropertyValue o name value => exact (inert_setProperty n o (.utf8 name) value).returning _
  | propertyNames o | promiseResult o =>
    refine .returning ?_ _
    exact (Looks.inspect n o _).inert.andThen fun _ _ => rfl
  | getIndex o index flags =>
    refine .returning ?_ _
    exact (Looks.resolve n o).inert.andThen fun _ _ => rfl
  | setIndex o index value => exact (inert_setIndex n o index value).returning _
  | call this args f flags => exact (inert_callFunction n f this args flags).returning _
  | construct args f => exact (inert_callAsConstructor n f args).returning _
  | newArrayWithValues args =>
    refine .returning ?_ _
    exact (Looks.toValues n args).inert.andThen fun _ _ => rfl
  | newTypedArrayOnBuffer _ buffer | newDataView buffer =>
    refine .returning ?_ _
    exact inert_resolve n buffer rfl
  | typedArrayPointer o | readBuffer o | promiseState o =>
    exact (Looks.inspect n o _).inert.returning _
  | resolve o value | reject o value => exact (inert_settleWith n o value _).returning _
  | promiseThen p f | promiseCatch p f => exact (inert_handleWith n p f _).returning _
  | _ => exact .nil _

lemma classConstructor_apply (c : ClassId) (w : World σ) :
    classConstructor n c w = match w.class? c with
      | none => (none, w)
      | some compiled =>
        let made := onHeap n (·.templateFunction compiled.template) w
        (made.1.map wrap, made.2) := by
  have hget : (get : Act σ (World σ)) w = (w, w) := rfl
  rw [classConstructor, Engine.bind_apply, hget]
  dsimp only
  cases w.class? c <;> rfl

lemma newInstanceWithConstructor_apply (host : Host σ) (c : ClassId) (args : List Tagged)
    (w : World σ) :
    newInstanceWithConstructor host n c args w = match w.class? c with
      | none => (none, w)
      | some compiled =>
        let made := onHeap n (·.templateFunction compiled.template) w
        match made.1 with
        | none => (none, made.2)
        | some function => constructWith host n function args made.2 := by
  have hget : (get : Act σ (World σ)) w = (w, w) := rfl
  rw [newInstanceWithConstructor, Engine.bind_apply, hget]
  dsimp only
  cases w.class? c with
  | none => rfl
  | some compiled =>
    dsimp only
    rw [Engine.bind_apply]
    cases onHeap n (·.templateFunction compiled.template) w with
    | mk function w₁ => cases function <;> rfl

-- The constructor of a class is made before the arguments for it are looked at.
lemma inert_newInstanceWithConstructor (c : ClassId) (args : List Tagged) (w : World σ)
    (hstale : ∃ handle ∈ args.filterMap Tagged.handle?,
      ((classConstructor n c w).2.heapOf n).Stale handle) :
    ∃ w', World.Lends n (args.filterMap Tagged.handle?) (classConstructor n c w).2 w' ∧
      ∀ host, newInstanceWithConstructor host n c args w = (none, w') := by
  simp only [newInstanceWithConstructor_apply]
  rw [classConstructor_apply] at hstale ⊢
  revert hstale
  cases w.class? c with
  | none => exact fun _ => ⟨w, .refl w _, fun _ => rfl⟩
  | some compiled =>
    dsimp only
    obtain ⟨function, w₁⟩ := onHeap n (·.templateFunction compiled.template) w
    intro hstale
    cases function with
    | none => exact ⟨w₁, .refl w₁ _, fun _ => rfl⟩
    | some function => exact inert_constructWith n function args w₁ hstale

lemma grown_prepared (op : Operation.Known) (w : World σ) (hgrown : (w.heapOf n).Grown) :
    ((op.prepared n w).heapOf n).Grown := by
  cases op with
  | newInstanceWithConstructor c args =>
    simp only [Operation.prepared, classConstructor_apply]
    cases w.class? c with
    | none => exact hgrown
    | some compiled =>
      have hleads := ((w.heapOf n).moves_templateFunction compiled.template).leads
      change ((w.modifyEngine (w.environment n).engine ({ · with
        heap := ((w.heapOf n).templateFunction compiled.template).2 })).heapOf n).Grown
      rw [w.heapOf_modifyEngine n]
      split
      · exact hgrown.leads hleads
      · exact hgrown
  | _ => exact hgrown

-- An operation that is given an object that is not there any more does nothing but lend others of
-- the objects it is given to the innermost scope.
theorem perform_of_stale_handle (op : Operation.Known) (w : World σ)
    (hgrown : (w.heapOf n).Grown)
    (hstale : ∃ handle ∈ op.handles,
      (((op.prepared n w).heapOf n).resolveHandle handle).1 = none) :
    ∃ w', World.Lends n op.handles (op.prepared n w) w' ∧
      ∀ host, perform host n op w = (op.empty, w') := by
  have hheap := grown_prepared n op w hgrown
  simp only [← hheap.stale_iff] at hstale
  cases op with
  | newInstanceWithConstructor c args =>
    obtain ⟨w', hlends, hdone⟩ := inert_newInstanceWithConstructor n c args w hstale
    refine ⟨w', hlends, fun host => ?_⟩
    rw [perform, Engine.bind_apply, hdone]
    rfl
  | _ => exact inert_perform n _ (by simp) w hstale

end Environment

def oneCollected : World Unit :=
  World.after .inert { host := () }
    [.newEngine {}, .attach ⟨0⟩,
      .operate ⟨0⟩ (.createClass none { name := some "A", constructor := some ({ code := ⟨0⟩ }, 0) }),
      .operate ⟨0⟩ .pushScope, .operate ⟨0⟩ .newObject,
      .operate ⟨0⟩ (.newReference (.transient (.first 1))), .operate ⟨0⟩ .popScope,
      .operate ⟨0⟩ .pushScope, .operate ⟨0⟩ .newObject, .operate ⟨0⟩ .popScope,
      .operate ⟨0⟩ (.command 1), .operate ⟨0⟩ .pushScope]

def collectedArgument : Tagged := .object .plain (.transient (.first 2))

lemma oneCollected_grown : (oneCollected.heapOf ⟨0⟩).Grown := by
  have hinert : (Host.inert : Host Unit).Free := Host.inert_built fun _ _ => trivial
  have hregular : oneCollected.Regular :=
    (Conduct.start.after _).regular hinert (World.regular_empty ())
  have hengine : (oneCollected.environment ⟨0⟩).engine = ⟨0⟩ := by cbv
  refine hregular.grown _ ?_
  have hsize : oneCollected.engines.size = 1 := by cbv
  rw [hengine, World.HasEngine, hsize]
  exact Nat.zero_lt_one

-- The collected object is to be put into the one that is held.
theorem perform_of_stale_handle_setProperty :
    let op : Environment.Operation.Known :=
      .setProperty (.persistent (.first 0)) (.utf8 "k") collectedArgument
    ((oneCollected.heapOf ⟨0⟩).resolveHandle (.persistent (.first 0))).1 = some (.first 1) ∧
    ((oneCollected.heapOf ⟨0⟩).resolveHandle (.transient (.first 2))).1 = none ∧
    ∃ w', World.Lends ⟨0⟩ [.persistent (.first 0), .transient (.first 2)] oneCollected w' ∧
      ∀ host, Environment.perform host ⟨0⟩ op oneCollected = (.boolean false, w') := by
  intro op
  have hstale : ((oneCollected.heapOf ⟨0⟩).resolveHandle (.transient (.first 2))).1 = none := by cbv
  refine ⟨by cbv, hstale, ?_⟩
  exact Environment.perform_of_stale_handle ⟨0⟩ op oneCollected oneCollected_grown
    ⟨_, by simp [op, Environment.Operation.handles, collectedArgument, Tagged.handle?], hstale⟩

def constructed : Environment.Answer × World Unit :=
  Environment.perform .inert ⟨0⟩ (.newInstanceWithConstructor ⟨0⟩ [collectedArgument]) oneCollected

theorem constructor_made_for_stale_argument :
    ((oneCollected.heapOf ⟨0⟩).resolveHandle (.transient (.first 2))).1 = none ∧
    constructed.1 = .handle none ∧ (oneCollected.heapOf ⟨0⟩).liveObjects = 2 ∧
    (constructed.2.heapOf ⟨0⟩).liveObjects = 4 := by
  exact ⟨by cbv, by cbv, by cbv, by cbv⟩

end HostBoundary
