import HostBoundary.Proofs.Ledgers

namespace HostBoundary

variable {x : Loan} {incidents : List Incident} {last : Scene}

def releasesOf (e : EngineId) (r : ObjectRef) (incidents : List Incident) :
    List (ReleaseHook × Pointer × Nat) :=
  (paid incidents).filterMap fun
    | .release p =>
      if p.engine = e ∧ p.object = r then some (p.hook, p.memory.address, p.memory.bytes.size) else none
    | .reclaim _ => none

lemma releasesOf_eq :
    releasesOf x.engine x.object incidents = ((paid incidents).filter x.hears).filterMap fun
      | .release p => some (p.hook, p.memory.address, p.memory.bytes.size)
      | .reclaim _ => none := by
  rw [releasesOf, List.filterMap_filter]
  congr 1
  funext d
  cases d with
  | reclaim y => rfl
  | release p => simp [Loan.hears]

lemma releasesOf_of_returned {p : Parting} (hp : x.Returned p)
    (hpaid : (paid incidents).filter x.hears = [.release p]) :
    releasesOf x.engine x.object incidents = [(x.hook, x.memory.address, x.memory.bytes.size)] := by
  rw [releasesOf_eq, hpaid, ← hp.hook, ← hp.address, ← hp.size]
  rfl

-- The memory of a buffer in an account, and in the engine as the account leaves it: it is given
-- back once, by when the buffer is not there any more.
structure Released (incidents : List Incident) (last : Estate) (x : Loan) : Prop where
  patient : ∀ before after s, incidents = before ++ after → Account {} before s →
    (s.estate x.engine).dropped = false → (s.heap x.engine).isAlive x.object = true →
      releasesOf x.engine x.object before = []
  once : last.dropped = true ∨ last.heap.isAlive x.object = false →
    ∃ before i after s next, incidents = before ++ i :: after ∧ Account {} before s ∧ s.Step i next ∧
      (s.estate x.engine).dropped = false ∧ (s.heap x.engine).isAlive x.object = true ∧
      ((∃ debts, i = .collect x.engine debts) ∧ (next.heap x.engine).isAlive x.object = false ∨
        ∃ debts, i = .drop x.engine debts) ∧
      releasesOf x.engine x.object before = [] ∧
      releasesOf x.engine x.object after = [(x.hook, x.memory.address, x.memory.bytes.size)] ∧
      ∀ mid rest s', after = mid ++ rest → Account next mid s' → s'.owed.length ≤ s.owed.length →
        releasesOf x.engine x.object mid = [(x.hook, x.memory.address, x.memory.bytes.size)]

namespace Loan

variable {x : Loan} {s next : Scene} {i : Incident}

lemma Owing.alive (ho : x.Owing s) : (s.heap x.engine).isAlive x.object = true := by
  obtain ⟨o, hobject, -⟩ := ho.charge
  exact Heap.isAlive_of_object? _ _ o hobject

lemma Ends.after (he : x.Ends s i) (ho : x.Owing s) (hstep : s.Step i next) :
    (∃ debts, i = .collect x.engine debts) ∧ (next.heap x.engine).isAlive x.object = false ∨
      (∃ debts, i = .drop x.engine debts) ∧ (next.estate x.engine).dropped = true := by
  have hindex := Scene.index_lt_of_isAlive ho.alive
  cases he with
  | freed debts hgone =>
    refine .inl ⟨⟨debts, rfl⟩, ?_⟩
    cases hstep with
    | collect =>
      have hestate := Scene.estate_enact_self hindex (.op .collect)
      exact (congrArg (·.heap.isAlive x.object) hestate).trans hgone
  | dropped debts =>
    refine .inr ⟨⟨debts, rfl⟩, ?_⟩
    cases hstep with
    | drop =>
      have hestate := Scene.estate_modify s.estates x.engine x.engine
        fun y => ⟨y.heap.enact (.op .drainReleases), true⟩
      rw [if_pos ⟨rfl, hindex⟩] at hestate
      exact congrArg Estate.dropped hestate

lemma Ends.lasts (he : x.Ends s i) (ho : x.Owing s) (hs : s.Formed) {xs : List Incident}
    (ha : Account s (i :: xs) last) (hroom : last.Roomy) :
    (last.estate x.engine).dropped = true ∨ (last.heap x.engine).isAlive x.object = false := by
  cases ha with
  | cons hstep hrest =>
    have hnext := hrest.roomy hroom
    rcases he.after ho hstep with ⟨-, hdead⟩ | ⟨-, hdropped⟩
    · obtain ⟨_, hadvance⟩ := hstep.objects hnext hs x.engine
      have hissued := hadvance.keeps _ ((hs.objects x.engine).issued_of_contains ho.alive)
      exact .inr (hrest.stays_dead hroom (hstep.formed hnext hs) hissued hdead)
    · exact .inl (hrest.dropped hdropped)

lemma Repaid.patient {before after : List Incident}
    (hr : x.Repaid (before ++ after)) (ha : Account {} (before ++ after) last) (hroom : last.Roomy)
    (hbefore : Account {} before s) (hdropped : (s.estate x.engine).dropped = false)
    (halive : (s.heap x.engine).isAlive x.object = true) : (incurred before).filter x.hears = [] := by
  obtain ⟨s₁, i, p, howing, hends, -, first, later, _, hsplit, hfirst, -, hnone, -⟩ := hr
  have hroom' : s.Roomy := (ha.rest hbefore).roomy hroom
  -- The moment comes before the memory was given back, or else the buffer is not there any more.
  rcases List.append_eq_append_iff.mp hsplit with ⟨between, rfl, -⟩ | ⟨between, rfl, hlater⟩
  · rw [incurred, List.flatMap_append, List.filter_append, List.append_eq_nil_iff] at hnone
    exact hnone.1
  · cases between with
    | nil => rwa [List.append_nil]
    | cons j between =>
      obtain ⟨rfl, -⟩ := List.cons.inj hlater
      have hrest := hbefore.rest hfirst
      rcases hends.lasts howing (hfirst.sound (hrest.roomy hroom')).formed hrest hroom' with
        hgone | hgone
      · exact absurd (hgone.symm.trans hdropped) (by simp)
      · exact absurd (hgone.symm.trans halive) (by simp)

lemma released (ha : Account {} incidents last) (hroom : last.Roomy) (howed : last.owed = [])
    (hx : .loan x ∈ last.bonds) : Released incidents (last.estate x.engine) x := by
  have hsound := ha.sound hroom
  have hpaid : ∀ {before : List Incident} {s : Scene}, Account {} before s →
      (incurred before).filter x.hears = [] → releasesOf x.engine x.object before = [] := by
    intro before s hbefore hnone
    have hnothing : (paid before).filter x.hears = [] := by
      rw [List.filter_eq_nil_iff] at hnone ⊢
      exact fun d hd => hnone d (hbefore.balance.mem_iff.mpr (List.mem_append_left _ hd))
    rw [releasesOf_eq, hnothing]
    rfl
  refine ⟨?_, fun hended => ?_⟩
  · rintro before after s rfl hbefore hdropped halive
    refine hpaid hbefore ?_
    rcases hsound.loans x hx with ⟨-, hnone⟩ | ⟨-, hrepaid⟩
    · rw [incurred, List.flatMap_append, List.filter_append, List.append_eq_nil_iff] at hnone
      exact hnone.1
    · exact hrepaid.patient ha hroom hbefore hdropped halive
  · rcases hsound.loans x hx with ⟨howing, -⟩ | ⟨-, s, i, p, howing, hends, hreturned, hdischarges⟩
    · rcases hended with hdropped | hdead
      · exact absurd (howing.engine.symm.trans hdropped) (by simp)
      · exact absurd (hdead.symm.trans howing.alive) (by simp)
    · obtain ⟨before, after, next, hsplit, hbefore, hstep, -, hearlier, hlater, hprompt⟩ :=
        hdischarges.settled ha howed
      refine ⟨before, i, after, s, next, hsplit, hbefore, hstep, howing.engine, howing.alive, ?_, ?_,
        releasesOf_of_returned hreturned hlater, fun mid rest s' hafter hmid hless =>
          releasesOf_of_returned hreturned (hprompt mid rest s' hafter hmid hless)⟩
      · exact (hends.after howing hstep).imp id And.left
      · rw [releasesOf_eq, hearlier]
        rfl

end Loan

-- Every buffer that is made of memory of the host's, with a hook, is given back once: in the
-- collection that frees it or else when its engine goes.
theorem external_memory_released_once {σ : Type} {host : Host σ} {ledger : σ → List Entry}
    (hh : host.Ledgered ledger) (s : σ) (hs : ledger s = []) (w : World σ)
    (hw : Bookkept ledger host { host := s } w) (hroom : w.Roomy) :
    ∃ incidents bonds, Account {} incidents (w.scene ledger [] [] bonds) ∧
      (paid incidents).map Debt.visit = (ledger w.host).filterMap Entry.ran? ∧
      ∀ e r hook memory, .lent e r hook memory ∈ ledger w.host →
        Released incidents ⟨(w.engine e).heap, (w.engine e).dropped⟩ ⟨e, r, hook, memory⟩ := by
  obtain ⟨incidents, bonds, ha⟩ := hw.account hh hs
  have hroom' := hroom.scene ledger [] [] bonds
  refine ⟨incidents, bonds, ha, ?_, fun e r hook memory hlent => ?_⟩
  · exact ha.ran.symm
  · have hx := (ha.sound hroom').lent e r hook memory hlent
    have hreleased := Loan.released ha hroom' rfl hx
    rwa [World.estate_scene] at hreleased

-- Two buffers, and a weak reference to one of them whose hook collects.
def longLoan : Loan := ⟨⟨0⟩, .first 1, ⟨⟨1⟩, 0⟩, ⟨4096, #[1, 2, 3]⟩⟩

def shortLoan : Loan := ⟨⟨0⟩, .first 2, ⟨⟨1⟩, 0⟩, ⟨8192, #[4, 5]⟩⟩

def Loan.making (x : Loan) : Action :=
  .operate ⟨0⟩ (.newExternalArrayBuffer (some x.memory.bytes) (some x.hook) x.memory.address)

def Loan.noted (x : Loan) (w : World (List Entry)) : World (List Entry) :=
  ((x.making.perform restless w).2).noting (.lent x.engine x.object x.hook x.memory)

def watching : Action := .operate ⟨0⟩ (.newWeakReference (.transient shortLoan.object) (some ⟨⟨2⟩, 0⟩))

def bothLent : World (List Entry) :=
  shortLoan.noted ((longLoan.noted
    (World.after restless { host := [] } (hosted ++ [.operate ⟨0⟩ .pushScope]))).after restless
      [.operate ⟨0⟩ .pushScope])

def vacated : World (List Entry) :=
  ((watching.perform restless bothLent).2.noting (.given ⟨0⟩ (.first 0))).after restless
    [.operate ⟨0⟩ .popScope, .request ⟨0⟩ .collect, .teardown ⟨0⟩, .drop ⟨0⟩, .dropEngine ⟨0⟩]

lemma vacated_bookkept : Bookkept id restless { host := [] } vacated := by
  have hopened : Bookkept id restless { host := [] }
      (World.after restless { host := [] } (hosted ++ [.operate ⟨0⟩ .pushScope])) :=
    .after .start _ (by simp [hosted, Action.releases, Action.entrusts])
  have hlong : Bookkept id restless { host := [] } (longLoan.noted _) :=
    .lend _ longLoan.making ⟨0⟩ longLoan.memory longLoan.hook _ rfl (by cbv) (by cbv) (by cbv) hopened
  have hpushed : Bookkept id restless { host := [] } ((longLoan.noted _).after restless
      [.operate ⟨0⟩ .pushScope]) :=
    hlong.after _ (by simp [Action.releases, Action.entrusts])
  have hshort : Bookkept id restless { host := [] } bothLent :=
    .lend _ shortLoan.making ⟨0⟩ shortLoan.memory shortLoan.hook _ rfl (by cbv) (by cbv) (by cbv) hpushed
  have hwatched : Bookkept id restless { host := [] }
      ((watching.perform restless bothLent).2.noting (.given ⟨0⟩ (.first 0))) :=
    .entrust _ watching ⟨0⟩ (.first 0) _ (by cbv) (by cbv) hshort
  exact hwatched.after _ (by simp [Action.releases, Action.entrusts])

theorem external_memory_released_once_restless :
    vacated.host = [.lent ⟨0⟩ longLoan.object longLoan.hook longLoan.memory,
      .lent ⟨0⟩ shortLoan.object shortLoan.hook shortLoan.memory, .given ⟨0⟩ (.first 0),
      .ran (.reclaim ⟨⟨2⟩, 0⟩ {}), .ran (.release shortLoan.hook shortLoan.memory),
      .ran (.release longLoan.hook longLoan.memory)] ∧
    (vacated.engine ⟨0⟩).dropped = true ∧
    ∃ incidents bonds, Account {} incidents (vacated.scene id [] [] bonds) ∧
      (paid incidents).map Debt.visit = vacated.host.filterMap Entry.ran? ∧
      Released incidents ⟨(vacated.engine ⟨0⟩).heap, (vacated.engine ⟨0⟩).dropped⟩ longLoan ∧
      Released incidents ⟨(vacated.engine ⟨0⟩).heap, (vacated.engine ⟨0⟩).dropped⟩ shortLoan := by
  have hbook : vacated.host = [.lent ⟨0⟩ longLoan.object longLoan.hook longLoan.memory,
      .lent ⟨0⟩ shortLoan.object shortLoan.hook shortLoan.memory, .given ⟨0⟩ (.first 0),
      .ran (.reclaim ⟨⟨2⟩, 0⟩ {}), .ran (.release shortLoan.hook shortLoan.memory),
      .ran (.release longLoan.hook longLoan.memory)] := by cbv
  have hroom : vacated.Roomy := World.roomy_of_all (by cbv)
  obtain ⟨incidents, bonds, ha, hran, hreleased⟩ :=
    external_memory_released_once restless_ledgered [] rfl vacated vacated_bookkept hroom
  refine ⟨hbook, by cbv, incidents, bonds, ha, hran, hreleased _ _ _ _ ?_, hreleased _ _ _ _ ?_⟩
  · exact hbook ▸ List.mem_cons_self
  · exact hbook ▸ List.mem_cons_of_mem _ List.mem_cons_self

end HostBoundary
