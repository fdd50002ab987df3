import HostBoundary.Proofs.History

namespace HostBoundary.Heap

open Arena

-- Every occupied persistent slot, strong or weak, denotes a live object.
def TargetsLive (h : Heap) : Prop := ∀ entry ∈ h.persistents.entries, h.isAlive entry.target = true

lemma isAlive_allocate (h : Heap) (object : HeapObject) (r : ObjectRef)
    (hr : h.isAlive r = true) : (h.allocate object).2.isAlive r = true := by
  simp only [isAlive, allocate_objects]
  exact contains_insert h.objects object r hr

lemma mem_entries_persist (h : Heap) (target : ObjectRef) (entry : Persistent)
    (he : entry ∈ (h.persist target).2.persistents.entries) :
    entry ∈ h.persistents.entries ∨ h.isAlive entry.target = true := by
  unfold persist at he
  split at he
  · rename_i ha
    obtain ⟨pre, old, post, hold, hnew⟩ := h.persistents.entries_insert { target }
    simp only [hnew, List.mem_append, List.mem_singleton] at he
    rcases he with (he | rfl) | he
    · exact .inl (by simp [hold, he])
    · exact .inr ha
    · exact .inl (by simp [hold, he])
  · exact .inl he

lemma mem_entries_weaken (h : Heap) (slot : PersistentRef) (hook : Option ReclaimHook)
    (entry : Persistent) (he : entry ∈ (h.weaken slot hook).2.persistents.entries) :
    ∃ before ∈ h.persistents.entries, before.target = entry.target := by
  unfold weaken at he
  split at he
  · rename_i hc
    obtain ⟨x, hx⟩ := Option.isSome_iff_exists.mp hc
    obtain ⟨pre, post, hold, hnew⟩ :=
      h.persistents.entries_modify slot ({ · with weak := true, hook }) x hx
    simp only [hnew, List.mem_append, List.mem_singleton] at he
    rcases he with (he | rfl) | he
    · exact ⟨entry, by simp [hold, he], rfl⟩
    · exact ⟨x, by simp [hold], rfl⟩
    · exact ⟨entry, by simp [hold, he], rfl⟩
  · exact ⟨entry, he, rfl⟩

lemma mem_entries_dispose (h : Heap) (slot : PersistentRef) (entry : Persistent)
    (he : entry ∈ (h.dispose slot).2.persistents.entries) : entry ∈ h.persistents.entries := by
  obtain ⟨pre, old, post, hold, hnew⟩ := h.persistents.entries_remove slot
  simp only [dispose, hnew, List.mem_append] at he
  rcases he with he | he <;> simp [hold, he]

-- A weak slot is due when nothing keeps its target.
def Due (h : Heap) (entry : Persistent) : Prop :=
  entry.weak = true ∧ ¬ h.Reachable entry.target

noncomputable instance (h : Heap) : DecidablePred h.Due := fun _ => Classical.propDecidable _

-- With a live target the mark at its position speaks about the target itself, although
-- the sweep looks at the position only.
lemma deadWeak_iff_due (h : Heap) (entry : Persistent) (ha : h.isAlive entry.target = true) :
    deadWeak h.marks entry = true ↔ h.Due entry := by
  rw [Due, ← reached_position_iff h _ ha, ← getD_marks]
  simp [deadWeak]

lemma collect_targetsLive (h : Heap) (hlive : h.TargetsLive) : h.collect.2.TargetsLive := by
  intro entry he
  have hmem : entry ∈ h.persistents.entries ∧ ¬ deadWeak h.marks entry = true := by
    rw [collect_eq] at he
    simpa [entries_sweep] using he
  have ha := hlive entry hmem.1
  refine (isAlive_collect_iff h _).mpr ⟨ha, ?_⟩
  -- A strong slot is a root; a weak one stays only if its target is marked.
  cases hw : entry.weak with
  | false => exact .root _ (.persistent entry hmem.1 hw)
  | true =>
    by_contra hnot
    exact hmem.2 ((deadWeak_iff_due h entry ha).mpr ⟨hw, hnot⟩)

lemma apply_targetsLive (h : Heap) (op : Operation) (hlive : h.TargetsLive) :
    (h.apply op).2.TargetsLive := by
  cases op with
  | allocate object =>
    intro entry he
    simp only [apply, Prod.map, id, allocate_persistents] at he
    exact isAlive_allocate h object _ (hlive entry he)
  | mutate r change =>
    intro entry he
    exact (sameShape_modify h.objects r change).contains (hlive entry he)
  | root | pushScope | popScope | target => simpa [TargetsLive, apply, isAlive] using hlive
  | persist target =>
    intro entry he
    have ha : h.isAlive entry.target = true :=
      (mem_entries_persist h target entry he).elim (hlive entry) id
    simpa [apply, isAlive] using ha
  | weaken slot hook =>
    intro entry he
    obtain ⟨before, hb, ht⟩ := mem_entries_weaken h slot hook entry he
    simpa [apply, isAlive, ← ht] using hlive before hb
  | dispose slot =>
    intro entry he
    exact hlive entry (mem_entries_dispose h slot entry he)
  | collect => exact collect_targetsLive h hlive
  | drainReleases =>
    intro entry he
    exact (sameShape_drainReleases h).contains (hlive entry he)
  | setGlobal | addTemplate | mutateTemplate | discardTemplate | enqueue | dequeue => exact hlive

lemma after_targetsLive (h : Heap) (ops : List Operation) (hlive : h.TargetsLive) :
    (h.after ops).TargetsLive := by
  induction ops generalizing h with
  | nil => exact hlive
  | cons op rest ih => exact ih _ (apply_targetsLive h op hlive)

def held (h : Heap) : List ReclaimHook := h.persistents.entries.filterMap (·.hook)

def registeredBy : Operation × Outcome → Option ReclaimHook
  | (.weaken _ hook, .answered true) => hook
  | _ => none

def Outcome.hooks : Outcome → List (ReclaimHook × Fields)
  | .reclaimed out => out.hooks
  | _ => []

def registered (h : Heap) (ops : List Operation) : List ReclaimHook :=
  (h.log ops).filterMap registeredBy

def handedOut (h : Heap) (ops : List Operation) : List (ReclaimHook × Fields) :=
  (h.log ops).flatMap (·.2.hooks)

lemma map_fst_farewell (h : Heap) (entries : List Persistent) :
    (entries.filterMap h.farewell).map Prod.fst = entries.filterMap (·.hook) := by
  rw [List.map_filterMap]
  congr 1
  funext entry
  cases hk : entry.hook <;> simp [farewell, hk]

-- A collection splits the waiting hooks into those it gives out and those that stay.
lemma count_held_collect (h : Heap) (hook : ReclaimHook) :
    h.collect.2.held.count hook + (h.collect.1.hooks.map Prod.fst).count hook =
      h.held.count hook := by
  rw [collect_eq]
  simp only [held, entries_sweep, dyingWeak, map_fst_farewell]
  have hperm := (List.filter_append_perm (deadWeak h.marks) h.persistents.entries).filterMap (·.hook)
  rw [← hperm.count_eq hook, List.filterMap_append, List.count_append, Nat.add_comm]

-- One operation balances: a hook leaves the waiting ones when it is given out, dropped or
-- replaced, and only a registration adds one.
lemma apply_count_hooks (h : Heap) (op : Operation) (hook : ReclaimHook) :
    (h.apply op).2.held.count hook + ((h.apply op).1.hooks.map Prod.fst).count hook ≤
      h.held.count hook + (registeredBy (op, (h.apply op).1)).toList.count hook := by
  cases op with
  | persist target =>
    simp only [apply, persist]
    split
    · obtain ⟨pre, old, post, hold, hnew⟩ := h.persistents.entries_insert { target }
      simp [held, Outcome.hooks, hold, hnew]
      omega
    · simp [held, Outcome.hooks]
  | weaken slot replacement =>
    simp only [apply, weaken]
    split
    · rename_i hc
      obtain ⟨x, hx⟩ := Option.isSome_iff_exists.mp hc
      obtain ⟨pre, post, hold, hnew⟩ := h.persistents.entries_modify slot
        ({ · with weak := true, hook := replacement }) x hx
      have hone : [{ x with weak := true, hook := replacement }].filterMap (·.hook) =
          replacement.toList := by
        cases replacement <;> rfl
      simp only [held, hold, hnew, List.filterMap_append, List.count_append, hone, Prod.map, id,
        Outcome.hooks, registeredBy, List.map_nil, List.count_nil]
      omega
    · simp [held, Outcome.hooks]
  | dispose slot =>
    obtain ⟨pre, old, post, hold, hnew⟩ := h.persistents.entries_remove slot
    simp [apply, dispose, held, Outcome.hooks, hold, hnew]
    omega
  | collect =>
    have hsplit := count_held_collect h hook
    simp only [apply, Prod.map, id, Outcome.hooks]
    omega
  | allocate | mutate | root | setGlobal | pushScope | popScope | target | addTemplate
  | mutateTemplate | discardTemplate | enqueue | dequeue | drainReleases =>
    simp [apply, held, Outcome.hooks, modifyObject, modifyTemplate, addTemplate, discardTemplate,
      enqueue, drainReleases]

lemma after_count_hooks (h : Heap) (ops : List Operation) (hook : ReclaimHook) :
    (h.after ops).held.count hook + ((h.handedOut ops).map Prod.fst).count hook ≤
      h.held.count hook + (h.registered ops).count hook := by
  induction ops generalizing h with
  | nil => simp [handedOut, log]
  | cons op rest ih =>
    have hstep := apply_count_hooks h op hook
    have hrest := ih (h.apply op).2
    have hregistered : h.registered (op :: rest) =
        (registeredBy (op, (h.apply op).1)).toList ++ (h.apply op).2.registered rest :=
      filterMap_log_cons _ h op rest
    have hhanded : h.handedOut (op :: rest) =
        (h.apply op).1.hooks ++ (h.apply op).2.handedOut rest := rfl
    rw [after_cons, hregistered, hhanded, List.map_append, List.count_append, List.count_append]
    omega

lemma hooks_collect (h : Heap) (hlive : h.TargetsLive) :
    h.collect.1.hooks = (h.persistents.entries.filter (h.Due ·)).filterMap h.farewell := by
  have hdying : h.dyingWeak = h.persistents.entries.filter (h.Due ·) :=
    List.filter_congr fun entry he => by
      rw [Bool.eq_iff_iff, decide_eq_true_iff]
      exact deadWeak_iff_due h entry (hlive entry he)
  rw [collect_eq, hdying]

noncomputable def fate (h : Heap) (slot : PersistentRef) (entry : Persistent) :
    Operation → Option Persistent
  | .weaken other hook => some (if slot = other then { entry with weak := true, hook } else entry)
  | .dispose other => if slot = other then none else some entry
  | .collect => if h.Due entry then none else some entry
  | _ => some entry

lemma apply_slot (h : Heap) (op : Operation) (hwf : h.persistents.WellFormed)
    (hlive : h.TargetsLive) (slot : PersistentRef) (entry : Persistent)
    (hget : h.persistents.get? slot = some entry) :
    (h.apply op).2.persistents.get? slot = h.fate slot entry op := by
  cases op with
  | persist target =>
    simp only [apply, persist]
    split
    · exact h.persistents.get?_insert_of_get? hwf _ _ _ hget
    · exact hget
  | weaken other hook =>
    simp only [apply, weaken, fate]
    split
    · simp only [Prod.map, id, get?_modify, hget]
      split <;> rfl
    · rename_i hc
      have hne : slot ≠ other := fun heq => hc (by simp [← heq, contains, hget])
      simp [hget, hne]
  | dispose other =>
    simp only [apply, dispose, Prod.map, id, fate, get?_remove, hget]
  | collect =>
    have hdead := deadWeak_iff_due h entry
      (hlive entry (h.persistents.mem_entries_of_get? slot entry hget))
    simp only [apply, Prod.map, id, fate, collect_eq, get?_sweep, hget, Option.filter]
    by_cases hdue : h.Due entry <;> simp [hdead, hdue]
  | allocate | mutate | root | setGlobal | pushScope | popScope | target | addTemplate
  | mutateTemplate | discardTemplate | enqueue | dequeue | drainReleases =>
    simp [apply, fate, hget, modifyObject, modifyTemplate, addTemplate, discardTemplate, enqueue,
      drainReleases]

lemma refused_of_not_contains (h : Heap) (slot : PersistentRef)
    (hslot : ¬ h.persistents.contains slot = true) :
    (h.target slot).1 = none ∧ (∀ hook, (h.weaken slot hook).1 = false) ∧
      (h.dispose slot).1 = false := by
  have hget : h.persistents.get? slot = none := by simpa [contains] using hslot
  exact ⟨by simp [target, hget], fun hook => by simp [weaken, hslot],
    by simp [dispose, remove, hslot]⟩

-- The reclaim protocol: each collection gives out exactly the hooks of the slots that are due, and
-- over a run a hook is given out no more often than it was registered.
theorem weak_reclaim_protocol (limits : HeapLimits) (before later : List Operation)
    (hslots : ((initial limits).after (before ++ .collect :: later)).persistents.slots.size <
      2 ^ 32) :
    (∀ hook, (((initial limits).handedOut (before ++ .collect :: later)).map Prod.fst).count hook ≤
      ((initial limits).registered (before ++ .collect :: later)).count hook) ∧
    ((initial limits).after before).collect.1.hooks =
      (((initial limits).after before).persistents.entries.filter
        (((initial limits).after before).Due ·)).filterMap ((initial limits).after before).farewell ∧
    ∀ slot entry, ((initial limits).after before).persistents.get? slot = some entry →
      (∀ op, (((initial limits).after before).apply op).2.persistents.get? slot =
        ((initial limits).after before).fate slot entry op) ∧
      (((initial limits).after before).Due entry →
        (((initial limits).after (before ++ .collect :: later)).target slot).1 = none ∧
        (∀ hook,
          (((initial limits).after (before ++ .collect :: later)).weaken slot hook).1 = false) ∧
        (((initial limits).after (before ++ .collect :: later)).dispose slot).1 = false) := by
  have hcount := after_count_hooks (initial limits) (before ++ .collect :: later)
  simp only [after_append, after_cons] at hslots ⊢
  have hlive : ((initial limits).after before).TargetsLive :=
    after_targetsLive _ _ fun entry he => absurd he (by simp [initial, Arena.entries])
  have hpast := after_persistents (initial limits) before
  generalize hh : (initial limits).after before = h at hslots hlive hpast ⊢
  have hnow := apply_persistents h .collect
  have hlater := after_persistents (h.apply .collect).2 later
  have hwf : h.persistents.WellFormed := hpast.wellFormed wellFormed_empty
    (Nat.lt_of_le_of_lt (Nat.le_trans hnow.size hlater.size) hslots)
  refine ⟨fun hook => ?_, hooks_collect h hlive, fun slot entry hget => ⟨fun op => ?_, fun hdue => ?_⟩⟩
  · have hnone : (initial limits).held = [] := by simp [held, initial, Arena.entries]
    have hbound := hcount hook
    rw [hnone, List.count_nil] at hbound
    omega
  · exact apply_slot h op hwf hlive slot entry hget
  · have hgone : ¬ (h.apply .collect).2.persistents.contains slot = true := by
      simp [contains, apply_slot h .collect hwf hlive slot entry hget, fate, hdue]
    exact refused_of_not_contains _ slot
      (hnow.stays_invalid hlater hwf hslots (by simp [contains, hget]) hgone)

-- Of two hooks registered for one slot the second is given out, and the slot's next
-- occupant has another reference.
theorem weak_reclaim_protocol_of_replaced_hook :
    let object : HeapObject := { body := .plain, fields := some ⟨7, 8⟩ }
    let first : ReclaimHook := { code := ⟨0⟩ }
    let second : ReclaimHook := { code := ⟨1⟩ }
    let before : List Operation :=
      [.pushScope, .allocate object, .persist (.first 0), .weaken (.first 0) (some first),
        .weaken (.first 0) (some second), .popScope]
    let later : List Operation := [.allocate object, .persist ⟨0, 2, by decide, by decide⟩]
    let run := before ++ .collect :: later
    (initial {}).handedOut run = [(second, ⟨7, 8⟩)] ∧
    (((initial {}).handedOut run).map Prod.fst).count second ≤
      ((initial {}).registered run).count second ∧
    (((initial {}).after before).apply .collect).2.persistents.get? (.first 0) = none ∧
    (((initial {}).after run).target (.first 0)).1 = none ∧
    (((initial {}).after run).weaken (.first 0) (some first)).1 = false ∧
    (((initial {}).after run).dispose (.first 0)).1 = false := by
  intro object first second before later run
  obtain ⟨hcount, -, hslot⟩ := weak_reclaim_protocol {} before later (by cbv)
  obtain ⟨hfate, hgone⟩ := hslot (.first 0) ⟨.first 0, true, some second⟩ (by decide +kernel)
  have hdue : ((initial {}).after before).Due ⟨.first 0, true, some second⟩ :=
    (deadWeak_iff_due _ _ (by cbv)).mp (by cbv)
  obtain ⟨htarget, hweaken, hdispose⟩ := hgone hdue
  have hnone := (hfate .collect).trans (if_pos hdue)
  exact ⟨by cbv, hcount second, hnone, htarget, hweaken _, hdispose⟩

end HostBoundary.Heap
