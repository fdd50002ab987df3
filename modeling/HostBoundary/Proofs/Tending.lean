import HostBoundary.Proofs.Bonds

namespace HostBoundary

open Heap

variable {hears : Debt → Bool} {past : List Incident} {i : Incident} {debts : List Debt} {g : Ward}
  {x : Loan} {e : EngineId}

-- In all that has happened, one incident left a debt of some kind to be run, and nothing else did.
def Discharges (hears : Debt → Bool) (past : List Incident) (s : Scene) (i : Incident) (debt : Debt) :
    Prop :=
  ∃ before after next, past = before ++ i :: after ∧ Account {} before s ∧ s.Step i next ∧
    (incurred before).filter hears = [] ∧ i.debts.filter hears = [debt] ∧
    (incurred after).filter hears = []

namespace Discharges

variable {hears : Debt → Bool} {past : List Incident} {s : Scene} {i j : Incident} {debt : Debt}

lemma now {next : Scene} (ha : Account {} past s) (hstep : s.Step i next)
    (hnone : (incurred past).filter hears = []) (hi : i.debts.filter hears = [debt]) :
    Discharges hears (past ++ [i]) s i debt :=
  ⟨past, [], next, rfl, ha, hstep, hnone, hi, rfl⟩

variable (hd : Discharges hears past s i debt)

include hd

lemma later (hj : j.debts.filter hears = []) : Discharges hears (past ++ [j]) s i debt := by
  obtain ⟨before, after, next, rfl, ha, hstep, hnone, hi, hafter⟩ := hd
  refine ⟨before, after ++ [j], next, by simp, ha, hstep, hnone, hi, ?_⟩
  rw [incurred_snoc, List.filter_append, hafter, hj]
  rfl

lemma filter_incurred : (incurred past).filter hears = [debt] := by
  obtain ⟨before, after, _, rfl, -, -, hnone, hi, hafter⟩ := hd
  simp only [incurred, List.flatMap_append, List.flatMap_cons, List.filter_append] at hnone hafter ⊢
  rw [hnone, hi, hafter]
  rfl

lemma mem_incurred : debt ∈ incurred past := by
  have hmem : debt ∈ (incurred past).filter hears := by
    rw [hd.filter_incurred]
    exact List.mem_singleton_self debt
  exact (List.mem_filter.mp hmem).1

end Discharges

lemma filter_incurred_snoc (hpast : (incurred past).filter hears = [])
    (hi : i.debts.filter hears = []) : (incurred (past ++ [i])).filter hears = [] := by
  rw [incurred_snoc, List.filter_append, hpast, hi]
  rfl

namespace Ward

structure Watched (g : Ward) (past : List Incident) (s : Scene) : Prop where
  alive : (s.heap g.engine).isAlive g.object = true
  slot : (s.heap g.engine).persistents.get? g.slot = some ⟨g.object, true, some g.hook⟩
  waiting : (incurred past).filter g.hears = []

def Mourned (g : Ward) (past : List Incident) : Prop :=
  ∃ s debts, (s.heap g.engine).isAlive g.object = true ∧
    (s.heap g.engine).collect.2.isAlive g.object = false ∧
    Discharges g.hears past s (.collect g.engine debts) (.reclaim (g.farewell (s.heap g.engine)))

def Tended (g : Ward) (past : List Incident) (s : Scene) : Prop :=
  g.Watched past s ∨ (s.heap g.engine).isAlive g.object = false ∧ g.Mourned past

end Ward

namespace Loan

structure Owing (x : Loan) (s : Scene) : Prop where
  engine : (s.estate x.engine).dropped = false
  charge : ∃ o, (s.heap x.engine).object? x.object = some o ∧
    o.charge = some (x.hook, x.memory.address, x.memory.bytes.size)

inductive Ends (x : Loan) (s : Scene) : Incident → Prop where
  | freed (debts : List Debt) (hgone : (s.heap x.engine).collect.2.isAlive x.object = false) :
      x.Ends s (.collect x.engine debts)
  | dropped (debts : List Debt) : x.Ends s (.drop x.engine debts)

def Repaid (x : Loan) (past : List Incident) : Prop :=
  ∃ s i p, x.Owing s ∧ x.Ends s i ∧ x.Returned p ∧ Discharges x.hears past s i (.release p)

def Tended (x : Loan) (past : List Incident) (s : Scene) : Prop :=
  x.Owing s ∧ (incurred past).filter x.hears = [] ∨
    ((s.estate x.engine).dropped = true ∨ (s.heap x.engine).isAlive x.object = false) ∧ x.Repaid past

end Loan

namespace Scene

variable {s s' : Scene} {i : Incident} {e : EngineId} {past : List Incident}

lemma filter_debts_of_ne (hengine : ∀ d, hears d = true → d.engine = e)
    (hdebts : ∀ d ∈ debts, d.engine ≠ e) : debts.filter hears = [] := by
  rw [List.filter_eq_nil_iff]
  exact fun d hd hears => hdebts d hd (hengine d hears)

variable (hstep : s.Step i s')

include hstep

lemma Step.watched (hroom : s'.Roomy) (hs : s.Formed) (ha : Account {} past s)
    (hfree : .given g.engine g.slot ∉ s.book) (hw : g.Watched past s) :
    g.Tended (past ++ [i]) s' := by
  have hlive := hs.live g.engine
  obtain ⟨o, ho⟩ := (isAlive_iff _ _).mp hw.alive
  cases hstep.turn g.engine with
  | idle hestate hdebts =>
    have hnone : i.debts.filter g.hears = [] :=
      filter_debts_of_ne (fun _ => Ward.engine_of_hears) hdebts
    have hheap : s'.heap g.engine = s.heap g.engine := congrArg Estate.heap hestate
    exact .inl ⟨hheap ▸ hw.alive, hheap ▸ hw.slot, filter_incurred_snoc hw.waiting hnone⟩
  | deed d hfair hestate htouched _ _ hdebts =>
    have hheap : s'.heap g.engine = (s.heap g.engine).enact d := congrArg Estate.heap hestate
    obtain ⟨o', ho', -⟩ := Heap.Deed.object_enact hfair (hs.objects g.engine) ho
    have hsize := (hroom g.engine).2
    refine .inl ⟨?_, ?_, filter_incurred_snoc hw.waiting (by rw [hdebts]; rfl)⟩
    · rw [hheap]
      exact isAlive_of_object? _ _ o' ho'
    · rw [hheap] at hsize ⊢
      exact Heap.Deed.slot_enact hfair (hs.persistents g.engine) hsize hlive hw.slot
        fun htouch => hfree (htouched _ htouch)
  | collect hi hestate =>
    have hheap : s'.heap g.engine = (s.heap g.engine).collect.2 := congrArg Estate.heap hestate
    have hfarewell := farewell?_ward hw.slot hw.alive
    have hdebts : i.debts.filter g.hears = _ :=
      (congrArg (fun i => i.debts.filter g.hears) hi).trans
        (filter_debts_ward (hs.persistents g.engine) rfl)
    rw [hfarewell] at hdebts
    cases hafter : (s.heap g.engine).collect.2.isAlive g.object with
    | true =>
      rw [if_pos hafter] at hdebts
      refine .inl ⟨hheap ▸ hafter, ?_, filter_incurred_snoc hw.waiting hdebts⟩
      rw [hheap]
      refine (apply_slot _ .collect (hs.persistents g.engine) hlive g.slot _ hw.slot).trans ?_
      exact if_neg fun hdue => hdue.2 ((isAlive_collect_iff _ _).mp hafter).2
    | false =>
      rw [hafter, if_neg (by simp)] at hdebts
      refine .inr ⟨hheap ▸ hafter, s, (s.heap g.engine).debts g.engine, hw.alive, hafter, ?_⟩
      rw [← hi]
      exact .now ha hstep hw.waiting hdebts
  | drop hi _ hestate =>
    have hheap : s'.heap g.engine = (s.heap g.engine).drainReleases.2 := congrArg Estate.heap hestate
    have hdebts : i.debts.filter g.hears = [] := by
      rw [hi, List.filter_eq_nil_iff]
      intro d hd
      obtain ⟨p, -, rfl⟩ := List.mem_map.mp hd
      simp [Ward.hears]
    refine .inl ⟨?_, ?_, filter_incurred_snoc hw.waiting hdebts⟩
    · rw [hheap]
      exact (sameShape_drainReleases _).contains hw.alive
    · rw [hheap]
      exact hw.slot
  | spawn limits hbefore =>
    have hmissing : (s.heap g.engine).isAlive g.object = false := by rw [heap, hbefore]; rfl
    exact absurd (hw.alive.symm.trans hmissing) (by simp)

lemma Step.mourned (hs : s.Formed) (hd : s.Settled past) (hm : g.Mourned past) :
    g.Mourned (past ++ [i]) := by
  obtain ⟨before, debts, halive, hgone, hdischarges⟩ := hm
  refine ⟨before, debts, halive, hgone, hdischarges.later ?_⟩
  rw [List.filter_eq_nil_iff]
  intro d hdebt hhears
  have hnot := (hd.slot _ hdischarges.mem_incurred).2.1
  cases hstep.turn g.engine with
  | idle _ hdebts => exact hdebts d hdebt (Ward.engine_of_hears hhears)
  | deed _ _ _ _ _ _ hnone | spawn _ _ _ hnone =>
    rw [hnone] at hdebt
    exact absurd hdebt (by simp)
  | collect hi =>
    cases d with
    | release p => exact absurd hhears (by simp [Ward.hears])
    | reclaim y =>
      rw [hi, Incident.debts, reclaim_mem_debts] at hdebt
      obtain ⟨-, hslot⟩ : y.engine = g.engine ∧ y.slot = g.slot := by
        simpa [Ward.hears] using hhears
      obtain ⟨entry, hget, -⟩ := farewell?_eq_some
        (farewell?_of_mem (hs.persistents _) hdebt)
      rw [hslot] at hget
      exact hnot (by simp [Ward.farewell, Arena.contains, hget])
  | drop hi =>
    rw [hi] at hdebt
    obtain ⟨p, -, rfl⟩ := List.mem_map.mp hdebt
    exact absurd hhears (by simp [Ward.hears])

lemma Step.owing (hs : s.Formed) (ha : Account {} past s) (ho : x.Owing s)
    (hnone : (incurred past).filter x.hears = []) : x.Tended (past ++ [i]) s' := by
  obtain ⟨o, hobject, hcharge⟩ := ho.charge
  cases hstep.turn x.engine with
  | idle hestate hdebts =>
    have hfilter : i.debts.filter x.hears = [] :=
      filter_debts_of_ne (fun _ => Loan.engine_of_hears) hdebts
    have hheap : s'.heap x.engine = s.heap x.engine := congrArg Estate.heap hestate
    exact .inl ⟨⟨hestate ▸ ho.engine, o, hheap ▸ hobject, hcharge⟩, filter_incurred_snoc hnone hfilter⟩
  | deed d hfair hestate _ _ _ hdebts =>
    have hheap : s'.heap x.engine = (s.heap x.engine).enact d := congrArg Estate.heap hestate
    obtain ⟨o', ho', hsame, -⟩ := Heap.Deed.object_enact hfair (hs.objects x.engine) hobject
    exact .inl ⟨⟨by rw [hestate]; exact ho.engine, o', hheap ▸ ho', hsame.trans hcharge⟩,
      filter_incurred_snoc hnone (by rw [hdebts]; rfl)⟩
  | collect hi hestate =>
    have hheap : s'.heap x.engine = (s.heap x.engine).collect.2 := congrArg Estate.heap hestate
    have hdebts : i.debts.filter x.hears = _ :=
      (congrArg (fun i => i.debts.filter x.hears) hi).trans
        (filter_debts_loan (hs.objects x.engine) rfl)
    cases hdead : deadObject (s.heap x.engine).marks x.object.position o with
    | false =>
      have hkept : (s.heap x.engine).collect.2.object? x.object = some o := by
        have hmark : (s.heap x.engine).marks[x.object.position]?.getD false = true := by
          simpa [deadObject] using hdead
        rw [object?_collect, hobject, hmark]
        rfl
      have hidle : (s.heap x.engine).parting? x.engine
          (deadObject (s.heap x.engine).marks) x.object = none := by
        rw [parting?, hobject, Option.filter, hdead]
        rfl
      rw [hidle] at hdebts
      exact .inl ⟨⟨by rw [hestate]; exact ho.engine, o, hheap ▸ hkept, hcharge⟩,
        filter_incurred_snoc hnone hdebts⟩
    | true =>
      obtain ⟨p, hreturned, hparting⟩ := parting?_loan _ hobject hdead hcharge
      have hgone : (s.heap x.engine).collect.2.isAlive x.object = false := by
        rw [Bool.eq_false_iff]
        intro halive
        obtain ⟨found, hfound⟩ := (isAlive_iff _ _).mp halive
        rw [object?_collect_of_dead hdead] at hfound
        exact absurd hfound (by simp)
      rw [hparting] at hdebts
      refine .inr ⟨.inr (hheap ▸ hgone), s, i, p, ho, ?_, hreturned, .now ha hstep hnone hdebts⟩
      rw [hi]
      exact .freed _ hgone
  | drop hi hdropped hestate =>
    obtain ⟨p, hreturned, hparting⟩ := parting?_loan (fun _ _ => true) hobject rfl hcharge
    have hdebts : i.debts.filter x.hears = _ :=
      (congrArg (fun i => i.debts.filter x.hears) hi).trans
        (filter_partings_loan (hs.objects x.engine) (fun _ _ => true) rfl)
    rw [hparting] at hdebts
    refine .inr ⟨.inl (by rw [hestate]), s, i, p, ho, ?_, hreturned, .now ha hstep hnone hdebts⟩
    rw [hi]
    exact .dropped _
  | spawn limits hbefore =>
    have hmissing : (s.heap x.engine).object? x.object = none := by rw [heap, hbefore]; rfl
    exact absurd (hmissing.symm.trans hobject) (by simp)

lemma Step.repaid (hs : s.Formed) (hd : s.Settled past) (hr : x.Repaid past) :
    x.Repaid (past ++ [i]) := by
  obtain ⟨before, j, p, howing, hends, hreturned, hdischarges⟩ := hr
  refine ⟨before, j, p, howing, hends, hreturned, hdischarges.later ?_⟩
  have hunowed := (hd.object p hdischarges.mem_incurred).2
  rw [hreturned.engine, hreturned.object] at hunowed
  cases hstep.turn x.engine with
  | idle _ hdebts => exact filter_debts_of_ne (fun _ => Loan.engine_of_hears) hdebts
  | deed _ _ _ _ _ _ hnone | spawn _ _ _ hnone => rw [hnone]; rfl
  | collect hi =>
    rw [hi, Incident.debts, filter_debts_loan (hs.objects x.engine) rfl,
      parting?_of_charge hunowed]
    rfl
  | drop hi =>
    rw [hi, Incident.debts, drainDebts,
      filter_partings_loan (hs.objects x.engine) _ rfl, parting?_of_charge hunowed]
    rfl

lemma Step.dropped (hd : (s.estate e).dropped = true) : (s'.estate e).dropped = true := by
  cases hstep.turn e with
  | idle hestate => rw [hestate, hd]
  | deed _ _ hestate | collect _ hestate => rw [hestate]; exact hd
  | drop _ _ hestate => rw [hestate]
  | spawn limits hbefore =>
    rw [hbefore] at hd
    exact absurd hd (by simp [show (default : Estate).dropped = false from rfl])

end Scene

namespace Scene

variable {s s' : Scene} {i : Incident} {e : EngineId} {past : List Incident}

lemma Step.ungiven (hstep : s.Step i s') (hroom : s'.Roomy) (hs : s.Formed) (hd : s.Settled past)
    (hfree : .given g.engine g.slot ∉ s.book)
    (hissued : (s.heap g.engine).persistents.Issued g.slot) (ht : g.Tended past s) :
    .given g.engine g.slot ∉ s'.book := by
  have hless := hstep.roomy hroom
  intro hgiven
  rcases hstep.written hgiven with hgiven | hnotes | ⟨_, hran⟩ | ⟨_, r, _, _, rfl, heq⟩
  · exact hfree hgiven
  · cases hnotes with
    | given _ _ found hfound hnone =>
      rcases ht with hw | ⟨-, _, _, -, -, hdischarges⟩
      · rw [hw.slot] at hfound
        obtain rfl := Option.some.inj hfound
        exact absurd hnone (by simp)
      · refine (hd.slot _ hdischarges.mem_incurred).2.1 ?_
        simp [Ward.farewell, Arena.contains, hfound]
  · cases hran
  · obtain ⟨rfl, rfl⟩ := Entry.given.inj heq
    cases hstep with
    | entrust _ _ _ _ hslot =>
      have hadvance := (s.heap g.engine).persistents.insert_advance { target := r }
        (hs.persistents g.engine) (hless g.engine).2
      refine hadvance.unissued g.slot ?_ hissued
      rw [(holds_of_some hslot).fresh]
      exact List.mem_singleton_self _

lemma watched_attach (hroom : s.Roomy) (hs : s.Formed) (hd : s.Settled past)
    {rest : List (EngineId × ObjectRef)}
    (hslot : ((s.heap g.engine).hold g.object (some g.hook)).1 = some g.slot)
    (hs' : s' = { s.enact g.engine (.hold g.object (some g.hook)) with
      begun := rest
      bonds := .ward g :: s.bonds }) :
    ¬ (s.heap g.engine).persistents.Issued g.slot ∧ g.Watched (past ++ [.attach g]) s' := by
  have hheld := holds_of_some hslot
  have hwf := hs.persistents g.engine
  have hsize := (hroom g.engine).2
  have hadvance := (s.heap g.engine).persistents.insert_advance { target := g.object } hwf hsize
  rw [hheld.fresh] at hadvance
  have hfresh : ¬ (s.heap g.engine).persistents.Issued g.slot :=
    hadvance.unissued g.slot (List.mem_singleton_self _)
  have hheap : s'.heap g.engine = ((s.heap g.engine).hold g.object (some g.hook)).2 := by
    rw [hs']
    exact congrArg Estate.heap (estate_enact_self (index_lt_of_hold hslot) _)
  have hself := (s.heap g.engine).persistents.get?_insert_self hwf hsize { target := g.object }
  rw [hheld.fresh] at hself
  refine ⟨hfresh, ?_, ?_, ?_⟩
  · rw [hheap, isAlive, hold_objects]
    exact hheld.alive
  · rw [hheap, hheld.get?, if_pos rfl, hself]
    rfl
  · rw [incurred_snoc, List.filter_append, List.filter_eq_nil_iff.mpr, List.nil_append]
    · rfl
    · intro d hdebt hhears
      cases d with
      | release p => exact absurd hhears (by simp [Ward.hears])
      | reclaim y =>
        obtain ⟨hengine, hsame⟩ : y.engine = g.engine ∧ y.slot = g.slot := by
          simpa [Ward.hears] using hhears
        have hissued := (hd.slot y hdebt).1
        rw [hengine, hsame] at hissued
        exact hfresh hissued

lemma owing_wrap (hroom : s.Roomy) (hs : s.Formed) (hd : s.Settled past) {memory : HostMemory}
    {release : Option ReleaseHook} (he : e.index < s.estates.size)
    (hx : .loan x ∈ s.loans e memory release)
    (hs' : s' = { s.enact e (.op (.allocate (.ofBody (.arrayBuffer (.external memory release))))) with
      bonds := s.loans e memory release ++ s.bonds }) :
    x.Owing s' ∧ (incurred (past ++ [.wrap e memory release])).filter x.hears = [] := by
  let o := HeapObject.ofBody (.arrayBuffer (.external memory release))
  obtain ⟨hook, rfl, hdropped, rfl⟩ : ∃ hook, release = some hook ∧ (s.estate e).dropped = false ∧
      x = ⟨e, ((s.heap e).allocate o).1, hook, memory⟩ := by
    unfold loans at hx
    cases release with
    | none => exact absurd hx (by simp)
    | some hook =>
      dsimp only at hx
      split at hx
      · exact absurd hx (by simp)
      · rename_i hnot
        exact ⟨hook, rfl, by simpa using hnot, Bond.loan.inj (List.mem_singleton.mp hx)⟩
  have hestate : s'.estate e = ⟨(s.heap e).enact (.op (.allocate o)), (s.estate e).dropped⟩ := by
    rw [hs']
    exact estate_enact_self he _
  have hheap : s'.heap e = ((s.heap e).allocate o).2 := congrArg Estate.heap hestate
  have hmade : ((s.heap e).allocate o).1 = ((s.heap e).objects.insert o).1 := rfl
  have hadvance := (s.heap e).objects.insert_advance o (hs.objects e) (hroom e).1
  refine ⟨⟨by rw [hestate]; exact hdropped, o, ?_, rfl⟩, ?_⟩
  · rw [hheap, object?, allocate_objects, hmade]
    exact (s.heap e).objects.get?_insert_self (hs.objects e) (hroom e).1 o
  · rw [incurred_snoc, List.filter_append, List.filter_eq_nil_iff.mpr, List.nil_append]
    · rfl
    · intro d hdebt hhears
      cases d with
      | reclaim y => exact absurd hhears (by simp [Loan.hears])
      | release y =>
        obtain ⟨hengine, hsame⟩ : y.engine = e ∧ y.object = ((s.heap e).allocate o).1 := by
          simpa [Loan.hears] using hhears
        have hissued := (hd.object y hdebt).1
        rw [hengine, hsame, hmade] at hissued
        exact hadvance.unissued _ (List.mem_singleton_self _) hissued

-- All that holds when everything from the start has been told.
structure Sound (past : List Incident) (s : Scene) : Prop where
  formed : s.Formed
  balance : (incurred past).Perm (paid past ++ s.owed)
  named : s.Named
  hooked : s.Hooked
  settled : s.Settled past
  wards : ∀ g, .ward g ∈ s.bonds → .given g.engine g.slot ∉ s.book ∧
    (s.heap g.engine).persistents.Issued g.slot ∧ g.Tended past s
  loans : ∀ x, .loan x ∈ s.bonds → x.Tended past s
  born : ∀ e r f, .born e r f ∈ s.book → ∃ slot, .ward ⟨e, r, f, slot⟩ ∈ s.bonds
  lent : ∀ e r hook memory, .lent e r hook memory ∈ s.book → .loan ⟨e, r, hook, memory⟩ ∈ s.bonds

lemma sound_empty : ({} : Scene).Sound [] where
  formed := formed_empty
  balance := .nil
  named := ⟨by simp, by simp [wardKeys], by simp [wardKeys]⟩
  hooked _ _ _ hget := nomatch (hget : none = some _)
  settled := ⟨by simp [incurred], by simp [incurred]⟩
  wards := by simp
  loans := by simp
  born := by simp
  lent := by simp

lemma Step.sound (hstep : s.Step i s') (hroom : s'.Roomy) (ha : Account {} past s)
    (hs : s.Sound past) : s'.Sound (past ++ [i]) where
  formed := hstep.formed hroom hs.formed
  balance := hstep.balance hs.balance
  named := hstep.named hroom hs.formed hs.named
  hooked := hstep.hooked hs.hooked
  settled := hstep.settled hroom hs.formed hs.hooked hs.settled
  wards := by
    intro g hg
    have hless := hstep.roomy hroom
    have hslots : (s.heap g.engine).persistents.Issued g.slot →
        (s'.heap g.engine).persistents.Issued g.slot := by
      obtain ⟨_, hadvance⟩ := hstep.persistents hroom hs.formed g.engine
      exact hadvance.keeps g.slot
    have hbefore : .ward g ∈ s.bonds → .given g.engine g.slot ∉ s'.book ∧
        (s'.heap g.engine).persistents.Issued g.slot ∧ g.Tended (past ++ [i]) s' := by
      intro hg
      obtain ⟨hfree, hissued, htended⟩ := hs.wards g hg
      refine ⟨hstep.ungiven hroom hs.formed hs.settled hfree hissued htended, hslots hissued, ?_⟩
      rcases htended with hw | ⟨hdead, hm⟩
      · exact hstep.watched hroom hs.formed ha hfree hw
      · obtain ⟨_, hadvance⟩ := hstep.objects hroom hs.formed g.engine
        have hobject := hs.named.objects _ _ (List.mem_append_right _ (mem_wardKeys hg))
        refine .inr ⟨?_, hstep.mourned hs.formed hs.settled hm⟩
        have hstays := hadvance.stays_invalid hobject (by rw [isAlive] at hdead; simp [hdead])
        simpa [isAlive] using hstays
    cases hstep with
    | attach h rest hbegun hslot =>
      rcases List.mem_cons.mp hg with heq | hg
      · obtain rfl := Bond.ward.inj heq
        obtain ⟨hfresh, hwatched⟩ := watched_attach hless hs.formed hs.settled hslot rfl
        refine ⟨fun hgiven => hfresh (hs.named.given _ _ hgiven), ?_, .inl hwatched⟩
        have hwf := (Step.formed (.attach s g rest hbegun hslot) hroom hs.formed).persistents g.engine
        exact hwf.issued_of_contains (by rw [Arena.contains, hwatched.slot]; rfl)
      · exact hbefore hg
    | wrap d memory release he =>
      rcases List.mem_append.mp hg with hg | hg
      · unfold Scene.loans at hg
        cases release with
        | none => exact absurd hg (by simp)
        | some hook =>
          dsimp only at hg
          split at hg <;> exact absurd hg (by simp)
      · exact hbefore hg
    | _ => exact hbefore hg
  loans := by
    intro x hx
    have hless := hstep.roomy hroom
    have hbefore : .loan x ∈ s.bonds → x.Tended (past ++ [i]) s' := by
      intro hx
      rcases hs.loans x hx with ⟨ho, hnone⟩ | ⟨hended, hr⟩
      · exact hstep.owing hs.formed ha ho hnone
      · refine .inr ⟨?_, hstep.repaid hs.formed hs.settled hr⟩
        rcases hended with hdropped | hdead
        · exact .inl (hstep.dropped hdropped)
        · obtain ⟨_, _, p, -, -, hreturned, hdischarges⟩ := hr
          have hissued := (hs.settled.object p hdischarges.mem_incurred).1
          rw [hreturned.engine, hreturned.object] at hissued
          obtain ⟨_, hadvance⟩ := hstep.objects hroom hs.formed x.engine
          have hstays := hadvance.stays_invalid hissued (by rw [isAlive] at hdead; simp [hdead])
          exact .inr (by simpa [isAlive] using hstays)
    cases hstep with
    | attach h rest hbegun hslot =>
      rcases List.mem_cons.mp hx with heq | hx
      · exact absurd heq (by simp)
      · exact hbefore hx
    | wrap d memory release he =>
      rcases List.mem_append.mp hx with hx | hx
      · exact .inl (owing_wrap hless hs.formed hs.settled he hx rfl)
      · exact hbefore hx
    | _ => exact hbefore hx
  born := by
    intro e r f hborn
    rcases hstep.written hborn with hborn | hnotes | ⟨_, hran⟩ | ⟨_, _, _, _, -, hgiven⟩
    · obtain ⟨slot, hslot⟩ := hs.born e r f hborn
      exact ⟨slot, hstep.bonds hslot⟩
    · cases hnotes with
      | born g hg _ => exact ⟨g.slot, hstep.bonds hg⟩
    · cases hran
    · cases hgiven
  lent := by
    intro e r hook memory hlent
    rcases hstep.written hlent with hlent | hnotes | ⟨_, hran⟩ | ⟨_, _, _, _, -, hgiven⟩
    · exact hstep.bonds (hs.lent e r hook memory hlent)
    · cases hnotes with
      | lent x hx => exact hstep.bonds hx
    · cases hran
    · cases hgiven

end Scene

namespace Account

variable {s s' : Scene} {xs : List Incident} (ha : Account s xs s')

include ha

lemma roomy (hroom : s'.Roomy) : s.Roomy := by
  induction ha with
  | nil => exact hroom
  | cons hstep _ ih => exact hstep.roomy (ih hroom)

lemma sound_from (hroom : s'.Roomy) (hpast : Account {} past s) (hs : s.Sound past) :
    s'.Sound (past ++ xs) := by
  induction ha generalizing past with
  | nil => rwa [List.append_nil]
  | @cons s s₁ s₂ i rest hstep hrest ih =>
    have hnext := ih hroom (hpast.append (.single hstep)) (hstep.sound (hrest.roomy hroom) hpast hs)
    rwa [List.append_assoc] at hnext

omit ha in
lemma sound (ha : Account {} xs s) (hroom : s.Roomy) : s.Sound xs :=
  ha.sound_from hroom (.nil _) Scene.sound_empty

lemma balance_from (hs : (incurred past).Perm (paid past ++ s.owed)) :
    (incurred (past ++ xs)).Perm (paid (past ++ xs) ++ s'.owed) := by
  induction ha generalizing past with
  | nil => rwa [List.append_nil]
  | @cons s s₁ s₂ i rest hstep hrest ih =>
    have hnext := ih (hstep.balance hs)
    rwa [List.append_assoc] at hnext

omit ha in
lemma balance (ha : Account {} xs s) : (incurred xs).Perm (paid xs ++ s.owed) :=
  have hstart : (incurred []).Perm (paid [] ++ ({} : Scene).owed) := .nil
  ha.balance_from hstart

lemma paid_of_owed {rest : List Debt} (howed : s.owed = debts ++ rest)
    (hless : s'.owed.length ≤ rest.length) : ∀ debt ∈ debts, debt ∈ paid xs := by
  induction ha generalizing debts with
  | nil =>
    rw [howed, List.length_append] at hless
    obtain rfl : debts = [] := List.eq_nil_of_length_eq_zero (by omega)
    simp
  | @cons s₁ s₂ s₃ i later hstep _ ih =>
    rcases hstep.owed with ⟨debt, rfl, hpop⟩ | ⟨hnone, hpush⟩
    · cases debts with
      | nil => simp
      | cons first others =>
        obtain ⟨rfl, hothers⟩ := List.cons.inj (howed.symm.trans hpop)
        intro d hd
        rcases List.mem_cons.mp hd with rfl | hd
        · exact List.mem_cons_self
        · exact List.mem_cons_of_mem _ (ih hothers.symm hless d hd)
    · intro d hd
      rw [howed, ← List.append_assoc] at hpush
      rw [paid_cons, hnone]
      exact ih hpush hless d (List.mem_append_right _ hd)

lemma ran :
    s'.book.filterMap Entry.ran? = s.book.filterMap Entry.ran? ++ (paid xs).map Debt.visit := by
  induction ha with
  | nil => exact (List.append_nil _).symm
  | cons hstep _ ih => rw [ih, hstep.ran, paid_cons, List.map_append, List.append_assoc]

lemma dropped (hd : (s.estate e).dropped = true) : (s'.estate e).dropped = true := by
  induction ha with
  | nil => exact hd
  | cons hstep _ ih => exact ih (hstep.dropped hd)

lemma stays_dead (hroom : s'.Roomy) (hs : s.Formed) {r : ObjectRef}
    (hissued : (s.heap e).objects.Issued r) (hdead : (s.heap e).isAlive r = false) :
    (s'.heap e).isAlive r = false := by
  induction ha with
  | nil => exact hdead
  | cons hstep hrest ih =>
    have hnext := hrest.roomy hroom
    obtain ⟨_, hadvance⟩ := hstep.objects hnext hs e
    refine ih hroom (hstep.formed hnext hs) (hadvance.keeps r hissued) ?_
    have hstays := hadvance.stays_invalid hissued (by rw [isAlive] at hdead; simp [hdead])
    simpa [isAlive] using hstays

end Account

-- A debt that was left to be run by one incident only is run once, afterwards, and before whatever
-- was owed when it happened.
lemma Discharges.settled {incidents : List Incident} {s last : Scene} {debt : Debt}
    (hd : Discharges hears incidents s i debt) (ha : Account {} incidents last)
    (howed : last.owed = []) :
    ∃ before after next, incidents = before ++ i :: after ∧ Account {} before s ∧ s.Step i next ∧
      debt ∈ i.debts ∧ (paid before).filter hears = [] ∧ (paid after).filter hears = [debt] ∧
      ∀ mid rest s', after = mid ++ rest → Account next mid s' → s'.owed.length ≤ s.owed.length →
        (paid mid).filter hears = [debt] := by
  have hall : (paid incidents).filter hears = [debt] := by
    have hbalance := ha.balance
    rw [howed, List.append_nil] at hbalance
    have hfiltered := hbalance.filter hears
    rw [hd.filter_incurred] at hfiltered
    exact List.perm_singleton.mp hfiltered.symm
  obtain ⟨before, after, next, rfl, hbefore, hstep, hnone, hi, -⟩ := hd
  have hmem : debt ∈ i.debts := by
    have hself : debt ∈ i.debts.filter hears := by
      rw [hi]
      exact List.mem_singleton_self debt
    exact (List.mem_filter.mp hself).1
  obtain ⟨hidle, hpush⟩ : i.paid? = none ∧ next.owed = i.debts ++ s.owed := by
    rcases hstep.owed with ⟨_, rfl, -⟩ | hpush
    · exact absurd hmem (by simp [Incident.debts])
    · exact hpush
  have hearlier : (paid before).filter hears = [] := by
    rw [List.filter_eq_nil_iff]
    intro d hpaid hhears
    have hincurred : d ∈ (incurred before).filter hears :=
      List.mem_filter.mpr ⟨hbefore.balance.mem_iff.mpr (List.mem_append_left _ hpaid), hhears⟩
    rw [hnone] at hincurred
    exact absurd hincurred (by simp)
  have hlater : (paid after).filter hears = [debt] := by
    rw [paid_append, paid_cons, hidle, List.filter_append, hearlier] at hall
    exact hall
  refine ⟨before, after, next, rfl, hbefore, hstep, hmem, hearlier, hlater, ?_⟩
  rintro mid rest s' rfl hmid hless
  have hpaid : debt ∈ (paid mid).filter hears := by
    have hears' : debt ∈ (paid (mid ++ rest)).filter hears := by
      rw [hlater]
      exact List.mem_singleton_self debt
    exact List.mem_filter.mpr ⟨hmid.paid_of_owed hpush hless debt hmem, (List.mem_filter.mp hears').2⟩
  rw [paid_append, List.filter_append, List.append_eq_singleton_iff] at hlater
  rcases hlater with ⟨hempty, -⟩ | ⟨hdone, -⟩
  · rw [hempty] at hpaid
    exact absurd hpaid (by simp)
  · exact hdone

end HostBoundary
