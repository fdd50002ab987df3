import HostBoundary.Proofs.Debts

namespace HostBoundary

open Heap

variable {r : ObjectRef} {slot : PersistentRef}

def Incident.debts : Incident → List Debt
  | .collect _ debts | .drop _ debts => debts
  | _ => []

def Incident.paid? : Incident → Option Debt
  | .pay debt => some debt
  | _ => none

def incurred (incidents : List Incident) : List Debt := incidents.flatMap Incident.debts

def paid (incidents : List Incident) : List Debt := incidents.filterMap Incident.paid?

section Incidents

variable (past : List Incident) (i : Incident)

lemma incurred_snoc : incurred (past ++ [i]) = incurred past ++ i.debts := by
  simp [incurred, List.flatMap_append]

lemma paid_cons : paid (i :: past) = i.paid?.toList ++ paid past := by
  rw [paid, List.filterMap_cons]
  cases i.paid? <;> rfl

lemma paid_append (later : List Incident) : paid (past ++ later) = paid past ++ paid later :=
  List.filterMap_append

lemma paid_snoc : paid (past ++ [i]) = paid past ++ i.paid?.toList := by
  rw [paid_append, paid_cons]
  exact congrArg _ (List.append_nil _)

end Incidents

namespace Scene

variable {s s' : Scene} {i : Incident} {e : EngineId}

lemma estate_modify (estates : Array Estate) (e d : EngineId) (f : Estate → Estate) :
    (estates.modify e.index f).getD d.index default =
      if d = e ∧ e.index < estates.size then f (estates.getD e.index default)
      else estates.getD d.index default := by
  simp only [Array.getD_eq_getD_getElem?, Array.getElem?_modify]
  by_cases hd : d = e
  · subst hd
    by_cases hlt : d.index < estates.size
    · simp [hlt]
    · simp [hlt]
  · have hne : e.index ≠ d.index := fun heq => hd (by cases d; cases e; simp_all)
    simp [hd, hne]

lemma estate_enact (e d : EngineId) (deed : Heap.Deed) :
    (s.enact e deed).estate d =
      if d = e ∧ e.index < s.estates.size then ⟨(s.heap e).enact deed, (s.estate e).dropped⟩
      else s.estate d :=
  estate_modify s.estates e d _

lemma estate_of_missing (he : ¬ e.index < s.estates.size) : s.estate e = default := by
  rw [estate, Array.getD_eq_getD_getElem?, Array.getElem?_eq_none (Nat.le_of_not_lt he)]
  rfl

lemma estate_enact_self (he : e.index < s.estates.size) (deed : Heap.Deed) :
    (s.enact e deed).estate e = ⟨(s.heap e).enact deed, (s.estate e).dropped⟩ := by
  rw [estate_enact, if_pos ⟨rfl, he⟩]

lemma index_lt_of_isAlive (ha : (s.heap e).isAlive r = true) : e.index < s.estates.size := by
  by_contra hmissing
  have hdead : (default : Estate).heap.isAlive r = false := rfl
  rw [heap, estate_of_missing hmissing, hdead] at ha
  cases ha

lemma index_lt_of_hold {hook : Option ReclaimHook} (hs : ((s.heap e).hold r hook).1 = some slot) :
    e.index < s.estates.size :=
  index_lt_of_isAlive (holds_of_some hs).alive

-- What an incident is for one of the engines.
inductive Turn (s : Scene) (i : Incident) (s' : Scene) (e : EngineId) : Prop where
  | idle (hestate : s'.estate e = s.estate e) (hdebts : ∀ debt ∈ i.debts, debt.engine ≠ e)
  | deed (d : Heap.Deed) (hfair : d.Fair (s.heap e))
      (hestate : s'.estate e = ⟨(s.heap e).enact d, (s.estate e).dropped⟩)
      (htouched : ∀ slot, d.touched? = some slot → .given e slot ∈ s.book)
      (hmade : ∀ r f slot, d = .hold r (some f) → ((s.heap e).hold r (some f)).1 = some slot →
        .given e slot ∈ s'.book ∨ ∃ g, .ward g ∈ s'.bonds ∧ g.engine = e ∧ g.slot = slot)
      (hassigned : ∀ r, d.Assigns r → i = .deed e d) (hdebts : i.debts = [])
  | collect (hi : i = .collect e ((s.heap e).debts e))
      (hestate : s'.estate e = ⟨(s.heap e).collect.2, (s.estate e).dropped⟩)
  | drop (hi : i = .drop e ((s.heap e).drainDebts e)) (hdropped : (s.estate e).dropped = false)
      (hestate : s'.estate e = ⟨(s.heap e).drainReleases.2, true⟩)
  | spawn (limits : HeapLimits) (hbefore : s.estate e = default)
      (hestate : s'.estate e = ⟨.fresh limits, false⟩) (hdebts : i.debts = [])

lemma Step.turn (hstep : s.Step i s') (e : EngineId) : Turn s i s' e := by
  cases hstep with
  | spawn limits =>
    by_cases he : e.index = s.estates.size
    · refine .spawn limits (estate_of_missing (by omega)) ?_ rfl
      simp [estate, he]
    · refine .idle ?_ (by simp [Incident.debts])
      simp [estate, Array.getD_eq_getD_getElem?, Array.getElem?_push, he]
  | deed d deed hd =>
    have hestate := s.estate_enact d e deed
    split at hestate
    · rename_i heq
      obtain ⟨rfl, -⟩ := heq
      refine .deed deed hd.fair hestate ?_ ?_ (fun _ _ => rfl) rfl
      · intro slot hslot
        rw [hd.touched?_eq] at hslot
        cases hslot
      · rintro r f slot rfl -
        exact hd.elim
    · exact .idle hestate (by simp [Incident.debts])
  | bear d o he ho =>
    have hestate := s.estate_enact d e (.op (.allocate o))
    split at hestate
    · rename_i heq
      obtain ⟨rfl, -⟩ := heq
      exact .deed (.op (.allocate o)) trivial hestate (by simp [Heap.Deed.touched?]) (by simp)
        (by simp [Heap.Deed.Assigns]) rfl
    · exact .idle hestate (by simp [Incident.debts])
  | attach g rest hbegun hslot =>
    have hestate := s.estate_enact g.engine e (.hold g.object (some g.hook))
    split at hestate
    · rename_i heq
      obtain ⟨rfl, -⟩ := heq
      refine .deed (.hold g.object (some g.hook)) trivial hestate (by simp [Heap.Deed.touched?]) ?_
        (by simp [Heap.Deed.Assigns]) rfl
      intro r f slot heq hmade
      obtain ⟨rfl, hf⟩ := Heap.Deed.hold.inj heq
      obtain rfl := Option.some.inj hf
      exact .inr ⟨g, List.mem_cons_self, rfl, Option.some.inj (hslot.symm.trans hmade)⟩
    · exact .idle hestate (by simp [Incident.debts])
  | wrap d memory release he =>
    have hestate := s.estate_enact d e
      (.op (.allocate (.ofBody (.arrayBuffer (.external memory release)))))
    split at hestate
    · rename_i heq
      obtain ⟨rfl, -⟩ := heq
      exact .deed (.op (.allocate _)) trivial hestate (by simp [Heap.Deed.touched?]) (by simp)
        (by simp [Heap.Deed.Assigns]) rfl
    · exact .idle hestate (by simp [Incident.debts])
  | entrust d r f slot hslot =>
    have hestate := s.estate_enact d e (.hold r (some f))
    split at hestate
    · rename_i heq
      obtain ⟨rfl, -⟩ := heq
      refine .deed (.hold r (some f)) trivial hestate (by simp [Heap.Deed.touched?]) ?_
        (by simp [Heap.Deed.Assigns]) rfl
      intro r' f' slot' heq hmade
      obtain ⟨rfl, hf⟩ := Heap.Deed.hold.inj heq
      obtain rfl := Option.some.inj hf
      obtain rfl := Option.some.inj (hslot.symm.trans hmade)
      exact .inl (by simp)
    · exact .idle hestate (by simp [Incident.debts])
  | letGo d slot op hop hgiven =>
    have hestate := s.estate_enact d e (.op op)
    split at hestate
    · rename_i heq
      obtain ⟨rfl, -⟩ := heq
      refine .deed (.op op) ?_ hestate ?_ (by simp) (by simp [Heap.Deed.Assigns]) rfl
      · rcases hop with rfl | ⟨hook, rfl⟩ <;> trivial
      · intro other hother
        have hsame : slot = other := by
          rcases hop with rfl | ⟨hook, rfl⟩ <;> exact Option.some.inj hother
        exact hsame ▸ hgiven
    · exact .idle hestate (by simp [Incident.debts])
  | collect d =>
    have hestate := s.estate_enact d e (.op .collect)
    split at hestate
    · rename_i heq
      obtain ⟨rfl, -⟩ := heq
      exact .collect rfl hestate
    · rename_i hne
      refine .idle hestate fun debt hdebt heq => hne ⟨?_, ?_⟩
      · exact heq.symm.trans (engine_of_mem_debts hdebt)
      · by_contra hmissing
        have hnone : ((default : Estate).heap.debts d) = [] := rfl
        rw [Incident.debts, heap, estate_of_missing hmissing, hnone] at hdebt
        cases hdebt
  | drop d hdropped =>
    have hestate : _ = ite _ _ _ :=
      estate_modify s.estates d e fun x => ⟨x.heap.enact (.op .drainReleases), true⟩
    split at hestate
    · rename_i heq
      obtain ⟨rfl, -⟩ := heq
      exact .drop rfl hdropped hestate
    · rename_i hne
      refine .idle hestate fun debt hdebt heq => hne ⟨?_, ?_⟩
      · exact heq.symm.trans (engine_of_mem_drainDebts hdebt)
      · by_contra hmissing
        have hnone : ((default : Estate).heap.drainDebts d) = [] := rfl
        rw [Incident.debts, heap, estate_of_missing hmissing, hnone] at hdebt
        cases hdebt
  | pay | note => exact .idle rfl (by simp [Incident.debts])

end Scene

namespace Scene

variable {s s' : Scene} {i : Incident} {e : EngineId} {past : List Incident}

def Roomy (s : Scene) : Prop :=
  ∀ e, (s.heap e).objects.slots.size < 2 ^ 32 ∧ (s.heap e).persistents.slots.size < 2 ^ 32

structure Formed (s : Scene) : Prop where
  objects : ∀ e, (s.heap e).objects.WellFormed
  persistents : ∀ e, (s.heap e).persistents.WellFormed
  live : ∀ e, (s.heap e).TargetsLive

section

variable (ht : Turn s i s' e)

include ht

lemma Turn.after :
    ∃ h ops, h.objects = (s.heap e).objects ∧ h.persistents = (s.heap e).persistents ∧
      s'.heap e = Heap.after h ops := by
  cases ht with
  | idle hestate => exact ⟨s.heap e, [], rfl, rfl, congrArg Estate.heap hestate⟩
  | deed d _ hestate =>
    obtain ⟨ops, hops⟩ := d.exists_after (h := s.heap e)
    exact ⟨s.heap e, ops, rfl, rfl, (congrArg Estate.heap hestate).trans hops.symm⟩
  | collect _ hestate => exact ⟨s.heap e, [.collect], rfl, rfl, congrArg Estate.heap hestate⟩
  | drop _ _ hestate => exact ⟨s.heap e, [.drainReleases], rfl, rfl, congrArg Estate.heap hestate⟩
  | spawn limits hbefore hestate =>
    obtain ⟨ops, hops⟩ := (leads_fresh limits).exists_after
    refine ⟨initial limits, ops, ?_, ?_, (congrArg Estate.heap hestate).trans hops.symm⟩
    · rw [heap, hbefore]
      rfl
    · rw [heap, hbefore]
      rfl

lemma Turn.objects : ∃ fresh, Arena.Progress (s.heap e).objects (s'.heap e).objects fresh := by
  obtain ⟨h, ops, hobjects, -, hafter⟩ := ht.after
  rw [← hobjects, hafter]
  exact ⟨_, h.after_objects ops⟩

lemma Turn.persistents :
    ∃ fresh, Arena.Progress (s.heap e).persistents (s'.heap e).persistents fresh := by
  obtain ⟨h, ops, -, hpersistents, hafter⟩ := ht.after
  rw [← hpersistents, hafter]
  exact ⟨_, h.after_persistents ops⟩

lemma Turn.live (hlive : (s.heap e).TargetsLive) : (s'.heap e).TargetsLive := by
  obtain ⟨h, ops, hobjects, hpersistents, hafter⟩ := ht.after
  rw [hafter]
  refine h.after_targetsLive ops fun entry hentry => ?_
  rw [hpersistents] at hentry
  rw [isAlive, hobjects]
  exact hlive entry hentry

end

section

variable (hstep : s.Step i s')

include hstep

lemma Step.roomy (hroom : s'.Roomy) : s.Roomy := by
  intro e
  obtain ⟨_, hobjects⟩ := (hstep.turn e).objects
  obtain ⟨_, hpersistents⟩ := (hstep.turn e).persistents
  exact ⟨Nat.lt_of_le_of_lt hobjects.size (hroom e).1,
    Nat.lt_of_le_of_lt hpersistents.size (hroom e).2⟩

lemma Step.formed (hroom : s'.Roomy) (hs : s.Formed) : s'.Formed where
  objects e := by
    obtain ⟨_, hprogress⟩ := (hstep.turn e).objects
    exact hprogress.wellFormed (hs.objects e) (hroom e).1
  persistents e := by
    obtain ⟨_, hprogress⟩ := (hstep.turn e).persistents
    exact hprogress.wellFormed (hs.persistents e) (hroom e).2
  live e := (hstep.turn e).live (hs.live e)

lemma Step.objects (hroom : s'.Roomy) (hs : s.Formed) (e : EngineId) :
    ∃ fresh, Arena.Advance (s.heap e).objects (s'.heap e).objects fresh := by
  obtain ⟨_, hprogress⟩ := (hstep.turn e).objects
  exact ⟨_, hprogress.advance (hs.objects e) (hroom e).1⟩

lemma Step.persistents (hroom : s'.Roomy) (hs : s.Formed) (e : EngineId) :
    ∃ fresh, Arena.Advance (s.heap e).persistents (s'.heap e).persistents fresh := by
  obtain ⟨_, hprogress⟩ := (hstep.turn e).persistents
  exact ⟨_, hprogress.advance (hs.persistents e) (hroom e).2⟩

omit hstep in
lemma formed_empty : ({} : Scene).Formed where
  objects _ := Arena.wellFormed_empty
  persistents _ := Arena.wellFormed_empty
  live _ _ he := absurd he (List.not_mem_nil)

lemma Step.book {entry : Entry} (hentry : entry ∈ s.book) : entry ∈ s'.book := by
  cases hstep with
  | entrust | pay | note => exact List.mem_append_left _ hentry
  | _ => exact hentry

lemma Step.bonds {bond : Bond} (hbond : bond ∈ s.bonds) : bond ∈ s'.bonds := by
  cases hstep with
  | attach => exact List.mem_cons_of_mem _ hbond
  | wrap => exact List.mem_append_right _ hbond
  | _ => exact hbond

lemma Step.owed :
    (∃ debt, i = .pay debt ∧ s.owed = debt :: s'.owed) ∨ i.paid? = none ∧ s'.owed = i.debts ++ s.owed := by
  cases hstep with
  | pay debt rest howed => exact .inl ⟨debt, rfl, howed⟩
  | _ => exact .inr ⟨rfl, rfl⟩

lemma Step.ran :
    s'.book.filterMap Entry.ran? = s.book.filterMap Entry.ran? ++ i.paid?.toList.map Debt.visit := by
  have hsame : s.book.filterMap Entry.ran? = s.book.filterMap Entry.ran? ++ [] :=
    (List.append_nil _).symm
  cases hstep with
  | pay | entrust => exact List.filterMap_append
  | note entry hentry => cases hentry <;> exact List.filterMap_append
  | _ => exact hsame

lemma Step.balance (hs : (incurred past).Perm (paid past ++ s.owed)) :
    (incurred (past ++ [i])).Perm (paid (past ++ [i]) ++ s'.owed) := by
  rw [incurred_snoc, paid_snoc]
  rcases hstep.owed with ⟨debt, rfl, howed⟩ | ⟨hnone, howed⟩
  · rw [howed] at hs
    change (incurred past ++ []).Perm (paid past ++ [debt] ++ s'.owed)
    rw [List.append_nil, List.append_assoc]
    exact hs
  · rw [hnone, howed, Option.toList_none, List.append_nil]
    have hswap : (s.owed ++ i.debts).Perm (i.debts ++ s.owed) := List.perm_append_comm
    calc (incurred past ++ i.debts).Perm (paid past ++ s.owed ++ i.debts) := hs.append_right i.debts
      _ = paid past ++ (s.owed ++ i.debts) := List.append_assoc ..
      List.Perm _ (paid past ++ (i.debts ++ s.owed)) := hswap.append_left _

end

def wardKeys (s : Scene) : List (EngineId × ObjectRef) :=
  s.bonds.filterMap fun
    | .ward g => some (g.engine, g.object)
    | .loan _ => none

lemma mem_wardKeys {g : Ward} (hg : .ward g ∈ s.bonds) : (g.engine, g.object) ∈ s.wardKeys :=
  List.mem_filterMap.mpr ⟨.ward g, hg, rfl⟩

-- Slots and objects that are spoken of have been given out, and finalizers are attached to different
-- objects.
structure Named (s : Scene) : Prop where
  given : ∀ e slot, .given e slot ∈ s.book → (s.heap e).persistents.Issued slot
  nodup : (s.begun ++ s.wardKeys).Nodup
  objects : ∀ e r, (e, r) ∈ s.begun ++ s.wardKeys → (s.heap e).objects.Issued r

lemma wardKeys_loans (s : Scene) (e : EngineId) (memory : HostMemory) (release : Option ReleaseHook)
    (bonds : List Bond) : ({ s with bonds := s.loans e memory release ++ bonds } : Scene).wardKeys =
      ({ s with bonds } : Scene).wardKeys := by
  unfold wardKeys loans
  cases release with
  | none => rfl
  | some hook =>
    dsimp only
    split <;> rfl

-- What the book holds after a step was there, has been noted, or is what the step was about.
lemma Step.written {entry : Entry} (hstep : s.Step i s') (hentry : entry ∈ s'.book) :
    entry ∈ s.book ∨ s.Notes entry ∨ (∃ visit, entry = .ran visit) ∨
      ∃ e r f slot, i = .entrust e r f slot ∧ entry = .given e slot := by
  have hlast : ∀ last, entry ∈ s.book ++ [last] → entry ∈ s.book ∨ entry = last := fun _ h =>
    (List.mem_append.mp h).imp_right List.mem_singleton.mp
  cases hstep with
  | entrust e r f slot =>
    exact (hlast _ hentry).imp_right fun h => .inr (.inr ⟨e, r, f, slot, rfl, h⟩)
  | pay debt => exact (hlast _ hentry).imp_right fun h => .inr (.inl ⟨debt.visit, h⟩)
  | note last hnotes =>
    rcases hlast _ hentry with hbefore | rfl
    · exact .inl hbefore
    · exact .inr (.inl hnotes)
  | _ => exact .inl hentry

lemma Step.named (hstep : s.Step i s') (hroom : s'.Roomy) (hs : s.Formed) (hn : s.Named) :
    s'.Named := by
  have hslots : ∀ e slot, (s.heap e).persistents.Issued slot → (s'.heap e).persistents.Issued slot := by
    intro e slot hissued
    obtain ⟨_, hadvance⟩ := hstep.persistents hroom hs e
    exact hadvance.keeps slot hissued
  have hobjects : ∀ e r, (s.heap e).objects.Issued r → (s'.heap e).objects.Issued r := by
    intro e r hissued
    obtain ⟨_, hadvance⟩ := hstep.objects hroom hs e
    exact hadvance.keeps r hissued
  have hkeys : ∀ e r, (e, r) ∈ s.begun ++ s.wardKeys → (s'.heap e).objects.Issued r :=
    fun e r h => hobjects e r (hn.objects e r h)
  have hless := hstep.roomy hroom
  have hgiven : ∀ e slot, .given e slot ∈ s'.book → (s'.heap e).persistents.Issued slot := by
    intro e slot hmem
    rcases hstep.written hmem with hmem | hnotes | ⟨_, hran⟩ | ⟨_, r, f, _, rfl, heq⟩
    · exact hslots e slot (hn.given e slot hmem)
    · cases hnotes with
      | given _ _ found hfound _ =>
        refine hslots e slot ((hs.persistents e).issued_of_contains ?_)
        rw [Arena.contains, hfound]
        rfl
    · cases hran
    · obtain ⟨rfl, rfl⟩ := Entry.given.inj heq
      cases hstep with
      | entrust _ _ _ _ hslot =>
        have hheld := holds_of_some hslot
        have hheap : ({ s.enact e (.hold r (some f)) with
            book := s.book ++ [.given e slot] } : Scene).heap e = ((s.heap e).hold r (some f)).2 :=
          congrArg Estate.heap (estate_enact_self (index_lt_of_hold hslot) _)
        have hself := (s.heap e).persistents.get?_insert_self (hs.persistents e) (hless e).2
          { target := r }
        have hget : ((s.heap e).hold r (some f)).2.persistents.contains slot = true := by
          rw [hheld.fresh] at hself
          rw [Arena.contains, hheld.get?, if_pos rfl, hself]
          rfl
        have hsize := (hroom e).2
        rw [hheap] at hsize ⊢
        obtain ⟨_, hprogress⟩ := (Heap.Deed.hold r (some f)).persistents_enact (h := s.heap e)
        exact (hprogress.wellFormed (hs.persistents e) hsize).issued_of_contains hget
  cases hstep with
  | bear d o he ho =>
    have hadvance := (s.heap d).objects.insert_advance o (hs.objects d) (hless d).1
    have hmade : ((s.heap d).allocate o).1 = ((s.heap d).objects.insert o).1 := rfl
    refine ⟨hgiven, List.nodup_cons.mpr ⟨fun hmem => ?_, hn.nodup⟩, fun e r hmem => ?_⟩
    · exact hadvance.unissued _ List.mem_cons_self (hmade ▸ hn.objects _ _ hmem)
    · rcases List.mem_cons.mp hmem with heq | hmem
      · obtain ⟨rfl, rfl⟩ := Prod.mk.inj heq
        have hheap : ({ s.enact e (.op (.allocate o)) with
            begun := (e, ((s.heap e).allocate o).1) :: s.begun } : Scene).heap e =
              (s.heap e).enact (.op (.allocate o)) := congrArg Estate.heap (estate_enact_self he _)
        rw [hheap]
        have hinsert : ((s.heap e).enact (.op (.allocate o))).objects =
            ((s.heap e).objects.insert o).2 := (s.heap e).allocate_objects o
        rw [hinsert]
        exact hadvance.issues _ List.mem_cons_self
      · exact hkeys e r hmem
  | attach g rest hbegun hslot =>
    have hsame : (s.begun ++ s.wardKeys).Perm
        (rest ++ ((g.engine, g.object) :: s.wardKeys)) := by
      rw [hbegun]
      exact List.perm_middle.symm
    exact ⟨hgiven, hsame.nodup_iff.mp hn.nodup, fun e r hmem => hkeys e r (hsame.mem_iff.mpr hmem)⟩
  | wrap d memory release he =>
    refine ⟨hgiven, ?_, ?_⟩
    · exact (wardKeys_loans s d memory release s.bonds).symm ▸ hn.nodup
    · intro e r hmem
      exact hkeys e r ((wardKeys_loans s d memory release s.bonds) ▸ hmem)
  | _ => exact ⟨hgiven, hn.nodup, hkeys⟩

-- A slot with a hook is the host's or is kept for an instance.
def Claimed (s : Scene) (e : EngineId) (slot : PersistentRef) : Prop :=
  .given e slot ∈ s.book ∨ ∃ g, .ward g ∈ s.bonds ∧ g.engine = e ∧ g.slot = slot

lemma Step.claimed (hstep : s.Step i s') (hc : s.Claimed e slot) : s'.Claimed e slot := by
  rcases hc with hgiven | ⟨g, hg, hengine⟩
  · exact .inl (hstep.book hgiven)
  · exact .inr ⟨g, hstep.bonds hg, hengine⟩

def Hooked (s : Scene) : Prop :=
  ∀ e slot entry, (s.heap e).persistents.get? slot = some entry → entry.hook ≠ none →
    s.Claimed e slot

lemma Step.hooked (hstep : s.Step i s') (hk : s.Hooked) : s'.Hooked := by
  intro e slot entry hget hhook
  have hold : (s.heap e).persistents.get? slot = some entry → s'.Claimed e slot := fun h =>
    hstep.claimed (hk e slot entry h hhook)
  cases hstep.turn e with
  | idle hestate | drop _ _ hestate =>
    rw [heap, hestate] at hget
    exact hold hget
  | deed d hfair hestate htouched hmade =>
    rw [show s'.heap e = _ from congrArg Estate.heap hestate] at hget
    rcases Heap.Deed.hooked_enact hfair hget hhook with hbefore | htouch | ⟨r, f, hd, hslot⟩
    · exact hold hbefore
    · exact .inl (hstep.book (htouched slot htouch))
    · exact hmade r f slot hd hslot
  | collect _ hestate =>
    rw [heap, hestate, collect_eq] at hget
    rw [Arena.get?_sweep] at hget
    exact hold (Option.filter_eq_some_iff.mp hget).1
  | spawn limits _ hestate =>
    rw [heap, hestate] at hget
    have hnone : (Heap.fresh limits).persistents.get? slot = none := by
      simp [Heap.fresh, Arena.get?]
    exact absurd (hnone.symm.trans hget) (by simp)

end Scene

namespace Scene

variable {s s' : Scene} {i : Incident} {e : EngineId} {past : List Incident}

-- Nothing is to be given back for an object, or not any more.
def Unowed (s : Scene) (e : EngineId) (r : ObjectRef) : Prop :=
  (s.heap e).objects.Issued r ∧ ∀ o, (s.heap e).object? r = some o → o.charge = none

lemma Step.unowed (hstep : s.Step i s') (hroom : s'.Roomy) (hs : s.Formed) (hu : s.Unowed e r) :
    s'.Unowed e r := by
  obtain ⟨_, hadvance⟩ := hstep.objects hroom hs e
  refine ⟨hadvance.keeps r hu.1, fun o' ho' => ?_⟩
  have halive : (s.heap e).isAlive r = true := by
    by_contra hdead
    exact hadvance.stays_invalid hu.1 hdead (isAlive_of_object? _ r o' ho')
  obtain ⟨o, ho⟩ := (isAlive_iff _ r).mp halive
  have hcharge := hu.2 o ho
  cases hstep.turn e with
  | idle hestate =>
    rw [heap, hestate] at ho'
    exact hu.2 o' ho'
  | deed d hfair hestate =>
    rw [show s'.heap e = _ from congrArg Estate.heap hestate] at ho'
    obtain ⟨found, hfound, hsame, -⟩ := Heap.Deed.object_enact hfair (hs.objects e) ho
    obtain rfl := Option.some.inj (hfound.symm.trans ho')
    exact hsame.trans hcharge
  | collect _ hestate =>
    rw [show s'.heap e = _ from congrArg Estate.heap hestate, object?_collect] at ho'
    exact hu.2 o' (Option.filter_eq_some_iff.mp ho').1
  | drop _ _ hestate =>
    rw [show s'.heap e = _ from congrArg Estate.heap hestate] at ho'
    exact charge_drainReleases ho'
  | spawn limits hbefore hestate =>
    rw [heap, hbefore] at halive
    exact absurd halive (by simp [show (default : Estate).heap.isAlive r = false from rfl])

-- What has been left to be run comes from slots that are gone and buffers that are settled.
structure Settled (past : List Incident) (s : Scene) : Prop where
  slot : ∀ x, .reclaim x ∈ incurred past →
    (s.heap x.engine).persistents.Issued x.slot ∧
      ¬ (s.heap x.engine).persistents.contains x.slot = true ∧ s.Claimed x.engine x.slot
  object : ∀ x, .release x ∈ incurred past → s.Unowed x.engine x.object

lemma Step.settled (hstep : s.Step i s') (hroom : s'.Roomy) (hs : s.Formed) (hk : s.Hooked)
    (hd : s.Settled past) : s'.Settled (past ++ [i]) := by
  have hformed := hstep.formed hroom hs
  refine ⟨fun x hx => ?_, fun x hx => ?_⟩
  · rw [incurred_snoc, List.mem_append] at hx
    obtain ⟨_, hadvance⟩ := hstep.persistents hroom hs x.engine
    rcases hx with hx | hx
    · obtain ⟨hissued, hgone, hclaimed⟩ := hd.slot x hx
      exact ⟨hadvance.keeps _ hissued, hadvance.stays_invalid hissued hgone, hstep.claimed hclaimed⟩
    · cases hstep.turn x.engine with
      | idle _ hdebts => exact absurd rfl (hdebts _ hx)
      | deed _ _ _ _ _ _ hdebts | spawn _ _ _ hdebts =>
        rw [hdebts] at hx
        cases hx
      | collect hi hestate =>
        rw [hi, Incident.debts, reclaim_mem_debts] at hx
        obtain ⟨entry, hget, hhook, hgone⟩ := farewell?_eq_some
          (farewell?_of_mem (hs.persistents _) hx)
        have hissued : (s.heap x.engine).persistents.Issued x.slot :=
          (hs.persistents _).issued_of_contains (by rw [Arena.contains, hget]; rfl)
        refine ⟨hadvance.keeps _ hissued, ?_, hstep.claimed (hk _ _ _ hget hhook)⟩
        rw [show s'.heap x.engine = _ from congrArg Estate.heap hestate, Arena.contains, hgone]
        simp
      | drop hi =>
        rw [hi, Incident.debts, drainDebts] at hx
        exact absurd hx (by simp)
  · rw [incurred_snoc, List.mem_append] at hx
    rcases hx with hx | hx
    · exact hstep.unowed hroom hs (hd.object x hx)
    · obtain ⟨_, hadvance⟩ := hstep.objects hroom hs x.engine
      cases hstep.turn x.engine with
      | idle _ hdebts => exact absurd rfl (hdebts _ hx)
      | deed _ _ _ _ _ _ hdebts | spawn _ _ _ hdebts =>
        rw [hdebts] at hx
        cases hx
      | collect hi hestate =>
        rw [hi, Incident.debts, release_mem_debts] at hx
        obtain ⟨o, ho, hdead, -⟩ := parting?_eq_some (parting?_of_mem (hs.objects _) hx)
        refine ⟨hadvance.keeps _ ((hs.objects _).issued_of_contains
          (isAlive_of_object? _ _ o ho)), fun o' ho' => ?_⟩
        rw [show s'.heap x.engine = _ from congrArg Estate.heap hestate,
          object?_collect_of_dead hdead] at ho'
        cases ho'
      | drop hi _ hestate =>
        rw [hi, Incident.debts, release_mem_drainDebts] at hx
        obtain ⟨o, ho, -⟩ := parting?_eq_some (parting?_of_mem (hs.objects _) hx)
        refine ⟨hadvance.keeps _ ((hs.objects _).issued_of_contains
          (isAlive_of_object? _ _ o ho)), fun o' ho' => ?_⟩
        rw [show s'.heap x.engine = _ from congrArg Estate.heap hestate] at ho'
        exact charge_drainReleases ho'

end Scene

end HostBoundary
