import HostBoundary.Proofs.Annals
import HostBoundary.Proofs.CallSites
import HostBoundary.Proofs.WeakReclaim

namespace HostBoundary

variable {g : Ward} {x : Parting} {h : Heap} {o : HeapObject} {r : ObjectRef}
  {dead : Nat → HeapObject → Bool} {slot : PersistentRef} {entry : Persistent}

namespace Arena

variable {store : Store} {α : Type}

lemma filterMap_range_single (n k : Nat) (x : Option α) :
    ((List.range n).filterMap fun i => if i = k then x else none) = if k < n then x.toList else [] := by
  induction n with
  | zero => rfl
  | succ n ih =>
    rw [List.range_succ, List.filterMap_append, ih, List.filterMap_cons, List.filterMap_nil]
    by_cases hk : n = k
    · subst hk
      cases x <;> simp
    · have hlt : k < n + 1 ↔ k < n := by omega
      simp [hk, hlt]

lemma filter_leaving {a : Arena store α} (hwf : a.WellFormed) (dead : Nat → α → Bool)
    (r : SlotRef store) :
    (a.leaving dead).filter (fun item => item.1 = r) =
      (((a.get? r).filter (dead r.position)).map (r, ·)).toList := by
  have hat : ∀ p, (a.slots[p]?.bind fun slot => (slot.entry.filter (dead p)).map (slot.current, ·)).filter
      (fun item => decide (item.1 = r)) =
        if p = r.position then ((a.get? r).filter (dead r.position)).map (r, ·) else none := by
    intro p
    cases hs : a.slots[p]? with
    | none =>
      split
      · rename_i hp
        rw [get?, ← hp, hs]
        rfl
      · rfl
    | some slot =>
      by_cases hc : slot.current = r
      · have hp : p = r.position := (hwf.position p slot hs).symm.trans (congrArg SlotRef.position hc)
        subst hp
        rw [if_pos rfl, get?, hs]
        cases hf : slot.entry.filter (dead r.position) <;> simp [hc, hf]
      · have hnone : ((slot.entry.filter (dead p)).map (slot.current, ·)).filter
            (fun item => decide (item.1 = r)) = none := by
          cases slot.entry.filter (dead p) <;> simp [Option.filter, hc]
        rw [Option.bind_some, hnone]
        split
        · rename_i hp
          rw [get?, ← hp, hs]
          simp [hc]
        · rfl
  rw [leaving, List.filter_filterMap]
  simp only [hat]
  rw [filterMap_range_single]
  split
  · rfl
  · rename_i hout
    rw [get?, Array.getElem?_eq_none (Nat.le_of_not_lt hout)]
    rfl

end Arena

namespace Heap

variable {h : Heap}

lemma get?_weaken (slot other : PersistentRef) (hook : Option ReclaimHook) :
    (h.weaken slot hook).2.persistents.get? other =
      if other = slot then (h.persistents.get? other).map ({ · with weak := true, hook })
      else h.persistents.get? other := by
  unfold weaken
  split
  · exact h.persistents.get?_modify slot other _
  · rename_i hnot
    split
    · rename_i heq
      subst heq
      have hnone : h.persistents.get? other = none := by simpa [Arena.contains] using hnot
      rw [hnone]
      rfl
    · rfl

structure Holds (h : Heap) (r : ObjectRef) (hook : Option ReclaimHook) (slot : PersistentRef) : Prop where
  alive : h.isAlive r = true
  fresh : (h.persistents.insert { target := r }).1 = slot
  get? : ∀ other, (h.hold r hook).2.persistents.get? other =
    if other = slot then
      ((h.persistents.insert { target := r }).2.get? other).map ({ · with weak := true, hook })
    else (h.persistents.insert { target := r }).2.get? other

lemma holds_of_some {hook : Option ReclaimHook} (hs : (h.hold r hook).1 = some slot) :
    h.Holds r hook slot := by
  have halive : h.isAlive r = true := by
    by_contra hdead
    simp [hold, persist, hdead] at hs
  have hpersist : h.persist r = (some (h.persistents.insert { target := r }).1,
      { h with persistents := (h.persistents.insert { target := r }).2 }) := by
    rw [persist, if_pos halive]
  have hslot : (h.persistents.insert { target := r }).1 = slot := by
    rw [hold, hpersist] at hs
    exact Option.some.inj hs
  refine ⟨halive, hslot, fun other => ?_⟩
  rw [hold, hpersist, ← hslot]
  exact get?_weaken _ other hook

lemma hold_objects (r : ObjectRef) (hook : Option ReclaimHook) :
    (h.hold r hook).2.objects = h.objects := by
  unfold hold
  split <;> rename_i heq
  · rw [weaken_objects, ← h.persist_objects r, heq]
  · rw [← h.persist_objects r, heq]

namespace Deed

lemma exists_after (d : Deed) : ∃ ops, h.after ops = h.enact d := by
  cases d with
  | op op => exact ⟨[op], rfl⟩
  | hold target hook => exact (h.quietly_hold target hook).leads.exists_after
  | assign r i word => exact (h.quietly_setField r i word).leads.exists_after

lemma persistents_enact (d : Deed) :
    ∃ fresh, Arena.Progress h.persistents (h.enact d).persistents fresh := by
  obtain ⟨ops, hops⟩ := d.exists_after
  exact hops ▸ ⟨_, after_persistents h ops⟩

-- Anything but what frees objects or takes the hooks of buffers, as long as words and charges stay.
def Fair (h : Heap) : Deed → Prop
  | .op (.mutate r change) => ∀ o, h.object? r = some o → o.Spares (change o)
  | .op .collect | .op .drainReleases => False
  | _ => True

def touched? : Deed → Option PersistentRef
  | .op (.dispose slot) | .op (.weaken slot _) => some slot
  | _ => none

def Assigns (r : ObjectRef) : Deed → Prop
  | .assign target _ _ => target = r
  | _ => False

lemma Modest.fair {d : Deed} (hd : d.Modest h) : d.Fair h := by
  cases d with
  | op op =>
    cases op with
    | mutate r change => exact fun o ho => (hd o ho).2
    | collect | drainReleases => exact hd
    | _ => trivial
  | _ => trivial

lemma Modest.touched?_eq {d : Deed} (hd : d.Modest h) : d.touched? = none := by
  cases d with
  | op op =>
    cases op with
    | weaken | dispose => exact hd.elim
    | _ => rfl
  | _ => rfl

lemma object_enact {d : Deed} (hd : d.Fair h) (hwf : h.WellFormed)
    (ho : h.object? r = some o) :
    ∃ o', (h.enact d).object? r = some o' ∧ o'.charge = o.charge ∧
      (¬ d.Assigns r → o'.fields = o.fields) := by
  have hsame : ∀ {h' : Heap}, h'.objects = h.objects → ∃ o', h'.object? r = some o' ∧
      o'.charge = o.charge ∧ (¬ d.Assigns r → o'.fields = o.fields) := fun heq =>
    ⟨o, by rwa [object?, heq], rfl, fun _ => rfl⟩
  cases d with
  | op op =>
    cases op with
    | allocate x =>
      refine ⟨o, ?_, rfl, fun _ => rfl⟩
      simp only [enact, apply, Prod.map, id, object?, allocate_objects]
      exact h.objects.get?_insert_of_get? hwf x o r ho
    | mutate s change =>
      by_cases hrs : r = s
      · subst hrs
        have hspares := hd o ho
        refine ⟨change o, ?_, hspares.charge, fun _ => hspares.fields⟩
        simp [enact, apply, object?_modifyObject, ho]
      · refine ⟨o, ?_, rfl, fun _ => rfl⟩
        simp [enact, apply, object?_modifyObject, hrs, ho]
    | collect | drainReleases => exact hd.elim
    | root | pushScope | popScope | persist | target | weaken =>
      exact hsame (by simp [enact, apply])
    | setGlobal | dispose | addTemplate | mutateTemplate | discardTemplate | enqueue | dequeue =>
      exact hsame rfl
  | hold target hook => exact hsame (hold_objects target hook)
  | assign s i word =>
    change ∃ o', (h.setField s i word).2.object? r = some o' ∧ _
    unfold setField
    split
    · by_cases hrs : r = s
      · subst hrs
        refine ⟨_, (object?_modifyObject h r r _).trans ((if_pos rfl).trans (congrArg _ ho)), ?_, ?_⟩
        · rfl
        · exact fun hnot => absurd rfl hnot
      · exact ⟨o, by rw [object?_modifyObject, if_neg hrs, ho], rfl, fun _ => rfl⟩
    · exact hsame rfl

lemma slot_enact {d : Deed} (hd : d.Fair h) (hwf : h.persistents.WellFormed)
    (hsize : (h.enact d).persistents.slots.size < 2 ^ 32) (hlive : h.TargetsLive)
    (hget : h.persistents.get? slot = some entry) (htouched : d.touched? ≠ some slot) :
    (h.enact d).persistents.get? slot = some entry := by
  cases d with
  | op op =>
    have hslot : (h.apply op).2.persistents.get? slot = h.fate slot entry op :=
      apply_slot h op hwf hlive slot entry hget
    refine hslot.trans ?_
    cases op with
    | weaken other hook =>
      exact congrArg some (if_neg fun heq : slot = other => htouched (congrArg some heq.symm))
    | dispose other => exact if_neg fun heq : slot = other => htouched (congrArg some heq.symm)
    | collect => exact hd.elim
    | _ => rfl
  | hold target hook =>
    cases hmade : (h.hold target hook).1 with
    | none =>
      rw [enact, hold_of_none hmade]
      exact hget
    | some made =>
      have hheld := holds_of_some hmade
      have hkept := h.persistents.get?_insert_of_get? hwf { target } entry slot hget
      have hne : slot ≠ made := by
        intro heq
        have hless : h.persistents.slots.size < 2 ^ 32 :=
          Nat.lt_of_le_of_lt ((Deed.hold target hook).persistents_enact).choose_spec.size hsize
        have hadvance := h.persistents.insert_advance { target } hwf hless
        refine hadvance.unissued made (by rw [hheld.fresh]; simp) ?_
        exact hwf.issued_of_contains (by rw [Arena.contains, ← heq, hget]; rfl)
      rw [enact, hheld.get?, if_neg hne]
      exact hkept
  | assign s i word =>
    change (h.setField s i word).2.persistents.get? slot = some entry
    unfold setField
    split
    · exact hget
    · exact hget

lemma hooked_enact {d : Deed} (hd : d.Fair h)
    (hget : (h.enact d).persistents.get? slot = some entry) (hhook : entry.hook ≠ none) :
    h.persistents.get? slot = some entry ∨ d.touched? = some slot ∨
      ∃ r f, d = .hold r (some f) ∧ (h.hold r (some f)).1 = some slot := by
  have hinsert : ∀ target, (h.persistents.insert { target }).2.get? slot = some entry →
      h.persistents.get? slot = some entry := by
    intro target hnew
    rcases h.persistents.get?_insert _ slot entry hnew with rfl | hold
    · exact absurd rfl hhook
    · exact hold
  cases d with
  | op op =>
    cases op with
    | persist target =>
      simp only [enact, apply, persist] at hget
      split at hget
      · exact .inl (hinsert target hget)
      · exact .inl hget
    | weaken other hook =>
      by_cases heq : other = slot
      · exact .inr (.inl (congrArg some heq))
      · simp only [enact, apply, Prod.map, id, get?_weaken, if_neg (Ne.symm heq)] at hget
        exact .inl hget
    | dispose other =>
      by_cases heq : other = slot
      · exact .inr (.inl (congrArg some heq))
      · simp only [enact, apply, dispose, Prod.map, id, Arena.get?_remove,
          if_neg (Ne.symm heq)] at hget
        exact .inl hget
    | collect | drainReleases => exact hd.elim
    | allocate | root | pushScope | popScope | target =>
      exact .inl (by simpa [enact, apply] using hget)
    | mutate | setGlobal | addTemplate | mutateTemplate | discardTemplate | enqueue | dequeue =>
      exact .inl hget
  | hold target hook =>
    cases hmade : (h.hold target hook).1 with
    | none =>
      rw [enact, hold_of_none hmade] at hget
      exact .inl hget
    | some made =>
      rw [enact, (holds_of_some hmade).get?] at hget
      split at hget
      · rename_i heq
        obtain ⟨before, -, rfl⟩ := Option.map_eq_some_iff.mp hget
        obtain ⟨f, rfl⟩ := Option.ne_none_iff_exists'.mp hhook
        exact .inr (.inr ⟨target, f, rfl, heq ▸ hmade⟩)
      · exact .inl (hinsert target hget)
  | assign s i word =>
    change (h.setField s i word).2.persistents.get? slot = some entry at hget
    unfold setField at hget
    split at hget
    · exact .inl hget
    · exact .inl hget

end Deed

end Heap

def Debt.engine : Debt → EngineId
  | .reclaim x => x.engine
  | .release x => x.engine

def Ward.hears (g : Ward) : Debt → Bool
  | .reclaim x => x.engine = g.engine && x.slot = g.slot
  | .release _ => false

def Loan.hears (x : Loan) : Debt → Bool
  | .reclaim _ => false
  | .release p => p.engine = x.engine && p.object = x.object

lemma Ward.engine_of_hears {d : Debt} (hd : g.hears d = true) : d.engine = g.engine := by
  cases d with
  | reclaim x => exact (by simpa [hears] using hd : x.engine = g.engine ∧ _).1
  | release x => exact absurd hd (by simp [hears])

lemma Loan.engine_of_hears {x : Loan} {d : Debt} (hd : x.hears d = true) : d.engine = x.engine := by
  cases d with
  | reclaim y => exact absurd hd (by simp [hears])
  | release y => exact (by simpa [hears] using hd : y.engine = x.engine ∧ _).1

lemma filter_filterMap_of_iff {α β : Type} (f : α → Option β) (p : β → Bool) (q : α → Bool)
    (h : ∀ x y, f x = some y → p y = q x) (xs : List α) :
    (xs.filterMap f).filter p = (xs.filter q).filterMap f := by
  rw [List.filter_filterMap, List.filterMap_filter]
  congr 1
  funext x
  cases hx : f x with
  | none => cases q x <;> rfl
  | some y => cases hq : q x <;> simp [Option.filter, h x y hx, hq]

namespace Heap

variable {h : Heap} {e : EngineId} {d : Debt}

def farewell? (h : Heap) (e : EngineId) (slot : PersistentRef) : Option Farewell :=
  ((h.persistents.get? slot).filter (deadWeak h.marks)).bind fun entry =>
    (h.farewell entry).map fun (hook, fields) => ⟨e, slot, entry.target, hook, fields⟩

lemma filter_farewells (hwf : h.persistents.WellFormed) (slot : PersistentRef) :
    (h.farewells e).filter (fun x => x.slot = slot) = (h.farewell? e slot).toList := by
  have hslot : ∀ (item : PersistentRef × Persistent) (x : Farewell),
      ((h.farewell item.2).map fun (hook, fields) =>
        (⟨e, item.1, item.2.target, hook, fields⟩ : Farewell)) = some x →
      decide (x.slot = slot) = decide (item.1 = slot) := by
    intro item x hx
    obtain ⟨_, -, rfl⟩ := Option.map_eq_some_iff.mp hx
    rfl
  rw [farewells, filter_filterMap_of_iff _ _ _ hslot, Arena.filter_leaving hwf, farewell?]
  cases (h.persistents.get? slot).filter (deadWeak h.marks) with
  | none => rfl
  | some entry =>
    cases hf : h.farewell entry <;> simp [hf]

def parting? (h : Heap) (e : EngineId) (dead : Nat → HeapObject → Bool) (r : ObjectRef) :
    Option Parting :=
  ((h.object? r).filter (dead r.position)).bind fun o =>
    (releaseOf o).map fun (hook, memory) => ⟨e, r, hook, memory⟩

lemma filter_partings (hwf : h.WellFormed) (dead : Nat → HeapObject → Bool)
    (r : ObjectRef) :
    (partings e (h.objects.leaving dead)).filter (fun x => x.object = r) =
      (h.parting? e dead r).toList := by
  have hobject : ∀ (item : ObjectRef × HeapObject) (x : Parting),
      ((releaseOf item.2).map fun (hook, memory) =>
        (⟨e, item.1, hook, memory⟩ : Parting)) = some x →
      decide (x.object = r) = decide (item.1 = r) := by
    intro item x hx
    obtain ⟨_, -, rfl⟩ := Option.map_eq_some_iff.mp hx
    rfl
  rw [partings, filter_filterMap_of_iff _ _ _ hobject, Arena.filter_leaving hwf, parting?]
  change _ = (((h.objects.get? r).filter (dead r.position)).bind _).toList
  cases (h.objects.get? r).filter (dead r.position) with
  | none => rfl
  | some o => cases hf : releaseOf o <;> simp [hf]

lemma engine_of_mem_farewells {x : Farewell} (hx : x ∈ h.farewells e) : x.engine = e := by
  obtain ⟨item, -, hitem⟩ := List.mem_filterMap.mp hx
  obtain ⟨_, -, rfl⟩ := Option.map_eq_some_iff.mp hitem
  rfl

lemma engine_of_mem_partings {objects : List (ObjectRef × HeapObject)}
    (hx : x ∈ partings e objects) : x.engine = e := by
  obtain ⟨item, -, hitem⟩ := List.mem_filterMap.mp hx
  obtain ⟨_, -, rfl⟩ := Option.map_eq_some_iff.mp hitem
  rfl

lemma farewell?_of_mem {x : Farewell} (hwf : h.persistents.WellFormed) (hx : x ∈ h.farewells e) :
    h.farewell? e x.slot = some x := by
  have hmem : x ∈ (h.farewells e).filter fun y => y.slot = x.slot := List.mem_filter.mpr ⟨hx, by simp⟩
  rwa [filter_farewells hwf, Option.mem_toList] at hmem

lemma parting?_of_mem (hwf : h.WellFormed)
    (hx : x ∈ partings e (h.objects.leaving dead)) : h.parting? e dead x.object = some x := by
  have hmem : x ∈ (partings e (h.objects.leaving dead)).filter fun y => y.object = x.object :=
    List.mem_filter.mpr ⟨hx, by simp⟩
  rwa [filter_partings hwf, Option.mem_toList] at hmem

lemma engine_of_mem_debts (hd : d ∈ h.debts e) : d.engine = e := by
  rcases List.mem_append.mp hd with hd | hd
  · obtain ⟨x, hx, rfl⟩ := List.mem_map.mp hd
    exact engine_of_mem_farewells hx
  · obtain ⟨x, hx, rfl⟩ := List.mem_map.mp hd
    exact engine_of_mem_partings hx

lemma engine_of_mem_drainDebts (hd : d ∈ h.drainDebts e) : d.engine = e := by
  obtain ⟨x, hx, rfl⟩ := List.mem_map.mp hd
  exact engine_of_mem_partings hx

lemma reclaim_mem_debts {x : Farewell} : .reclaim x ∈ h.debts e ↔ x ∈ h.farewells e := by
  simp [debts]

lemma release_mem_debts :
    .release x ∈ h.debts e ↔ x ∈ partings e (h.objects.leaving (deadObject h.marks)) := by
  simp [debts]

lemma release_mem_drainDebts :
    .release x ∈ h.drainDebts e ↔ x ∈ partings e (h.objects.leaving fun _ _ => true) := by
  simp [drainDebts]

lemma filter_debts_ward (hwf : h.persistents.WellFormed) (hg : g.engine = e) :
    (h.debts e).filter g.hears = ((h.farewell? e g.slot).map Debt.reclaim).toList := by
  have hnone : ((partings e (h.objects.leaving (deadObject h.marks))).map Debt.release).filter
      g.hears = [] := by
    rw [List.filter_eq_nil_iff]
    intro d hd
    obtain ⟨x, -, rfl⟩ := List.mem_map.mp hd
    simp [Ward.hears]
  have hown : ((h.farewells e).map Debt.reclaim).filter g.hears =
      ((h.farewells e).filter fun x => x.slot = g.slot).map Debt.reclaim := by
    rw [List.filter_map]
    congr 1
    refine List.filter_congr fun x hx => ?_
    simp [Ward.hears, engine_of_mem_farewells hx, hg]
  rw [debts, List.filter_append, hnone, hown, filter_farewells hwf, List.append_nil]
  cases h.farewell? e g.slot <;> rfl

lemma filter_partings_loan (hwf : h.WellFormed) (dead : Nat → HeapObject → Bool) {x : Loan}
    (hx : x.engine = e) :
    ((partings e (h.objects.leaving dead)).map Debt.release).filter x.hears =
      ((h.parting? e dead x.object).map Debt.release).toList := by
  have hown : ((partings e (h.objects.leaving dead)).map Debt.release).filter x.hears =
      ((partings e (h.objects.leaving dead)).filter fun p => p.object = x.object).map
        Debt.release := by
    rw [List.filter_map]
    congr 1
    refine List.filter_congr fun p hp => ?_
    simp [Loan.hears, engine_of_mem_partings hp, hx]
  rw [hown, filter_partings hwf]
  cases h.parting? e dead x.object <;> rfl

lemma filter_debts_loan (hwf : h.WellFormed) {x : Loan} (hx : x.engine = e) :
    (h.debts e).filter x.hears =
      ((h.parting? e (deadObject h.marks) x.object).map Debt.release).toList := by
  have hnone : ((h.farewells e).map Debt.reclaim).filter x.hears = [] := by
    rw [List.filter_eq_nil_iff]
    intro d hd
    obtain ⟨y, -, rfl⟩ := List.mem_map.mp hd
    simp [Loan.hears]
  rw [debts, List.filter_append, hnone, List.nil_append, filter_partings_loan hwf _ hx]

lemma farewell?_eq_some {x : Farewell} (hx : h.farewell? e slot = some x) :
    ∃ entry, h.persistents.get? slot = some entry ∧ entry.hook ≠ none ∧
      h.collect.2.persistents.get? slot = none := by
  obtain ⟨entry, hentry, hfarewell⟩ := Option.bind_eq_some_iff.mp hx
  obtain ⟨hget, hdead⟩ := Option.filter_eq_some_iff.mp hentry
  obtain ⟨_, hhook, -⟩ := Option.map_eq_some_iff.mp hfarewell
  refine ⟨entry, hget, fun hnone => ?_, ?_⟩
  · rw [farewell, hnone] at hhook
    cases hhook
  · rw [collect_eq, Arena.get?_sweep, hget]
    simp [Option.filter, hdead]

lemma parting?_eq_some (hx : h.parting? e dead r = some x) :
    ∃ o, h.object? r = some o ∧ dead r.position o = true ∧ releaseOf o = some (x.hook, x.memory) ∧
      x = ⟨e, r, x.hook, x.memory⟩ := by
  obtain ⟨o, ho, hrelease⟩ := Option.bind_eq_some_iff.mp hx
  obtain ⟨hobject, hdead⟩ := Option.filter_eq_some_iff.mp ho
  obtain ⟨_, hreleased, rfl⟩ := Option.map_eq_some_iff.mp hrelease
  exact ⟨o, hobject, hdead, hreleased, rfl⟩

lemma object?_collect_of_dead (hdead : deadObject h.marks r.position o = true) :
    h.collect.2.object? r = none := by
  have hmark : h.marks[r.position]?.getD false = false := by simpa [deadObject] using hdead
  rw [object?_collect, hmark]
  cases h.object? r <;> rfl

lemma charge_drained (o : HeapObject) : (drained o).charge = none := by
  unfold drained
  cases hb : o.body with
  | arrayBuffer backing => cases backing <;> rfl
  | _ => simp [HeapObject.charge, releaseOf, hb]

lemma charge_drainReleases (ho : h.drainReleases.2.object? r = some o) : o.charge = none := by
  obtain ⟨before, -, rfl⟩ := h.eq_drained_of_drainReleases ho
  exact charge_drained before

end Heap

def Ward.farewell (g : Ward) (h : Heap) : Farewell :=
  ⟨g.engine, g.slot, g.object, g.hook, h.fieldsOf g.object⟩

lemma Heap.farewell?_ward (hslot : h.persistents.get? g.slot = some ⟨g.object, true, some g.hook⟩)
    (halive : h.isAlive g.object = true) :
    h.farewell? g.engine g.slot =
      if h.collect.2.isAlive g.object = true then none else some (g.farewell h) := by
  have hdue := h.deadWeak_iff_due ⟨g.object, true, some g.hook⟩ halive
  have hkept : h.collect.2.isAlive g.object = true ↔ h.Reachable g.object := by
    rw [isAlive_collect_iff]
    exact and_iff_right halive
  rw [farewell?, hslot]
  split
  · rename_i hafter
    have hstays : deadWeak h.marks ⟨g.object, true, some g.hook⟩ = false := by
      rw [Bool.eq_false_iff]
      exact fun hdead => (hdue.mp hdead).2 (hkept.mp hafter)
    simp [Option.filter, hstays]
  · rename_i hafter
    have hgoes : deadWeak h.marks ⟨g.object, true, some g.hook⟩ = true :=
      hdue.mpr ⟨rfl, fun hreach => hafter (hkept.mpr hreach)⟩
    simp [Option.filter, hgoes, Heap.farewell, Ward.farewell]

structure Loan.Returned (x : Loan) (p : Parting) : Prop where
  engine : p.engine = x.engine
  object : p.object = x.object
  hook : p.hook = x.hook
  address : p.memory.address = x.memory.address
  size : p.memory.bytes.size = x.memory.bytes.size

lemma Heap.parting?_loan {x : Loan} (dead : Nat → HeapObject → Bool)
    (ho : h.object? x.object = some o) (hdead : dead x.object.position o = true)
    (hcharge : o.charge = some (x.hook, x.memory.address, x.memory.bytes.size)) :
    ∃ p, x.Returned p ∧ h.parting? x.engine dead x.object = some p := by
  obtain ⟨⟨hook, memory⟩, hrelease, heq⟩ := Option.map_eq_some_iff.mp hcharge
  obtain ⟨rfl, haddress, hsize⟩ : hook = x.hook ∧ memory.address = x.memory.address ∧
      memory.bytes.size = x.memory.bytes.size := by
    simpa using heq
  refine ⟨⟨x.engine, x.object, x.hook, memory⟩, ⟨rfl, rfl, rfl, haddress, hsize⟩, ?_⟩
  rw [parting?, ho, Option.filter, if_pos hdead, Option.bind_some, hrelease]
  rfl

lemma Heap.parting?_of_charge {e : EngineId} (hu : ∀ o, h.object? r = some o → o.charge = none) :
    h.parting? e dead r = none := by
  cases hp : h.parting? e dead r with
  | none => rfl
  | some p =>
    obtain ⟨o, ho, -, hrelease, -⟩ := parting?_eq_some hp
    have hcharge := hu o ho
    rw [HeapObject.charge, hrelease] at hcharge
    cases hcharge
end HostBoundary
