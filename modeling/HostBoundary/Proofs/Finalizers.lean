import HostBoundary.Proofs.ClassRegistration
import HostBoundary.Proofs.Ledgers

namespace HostBoundary

variable {σ : Type} {w w' : World σ} {e : EngineId} {n : EnvironmentId} {data : CallbackData}
  {function : NativeFunction} {flags : Flags} {f r : ObjectRef} {host : Host σ}
  {d : ClassDefinition} {parent : Option ClassId} {c : ClassId} {hook : ReclaimHook} {h : Heap}
  {field : Heap.FieldIndex} {s s' : Scene} {xs incidents : List Incident} {g : Ward} {x : Farewell}

namespace Environment

-- A new class with a constructor is made, and there is room for it.
structure Founds (n : EnvironmentId) (d : ClassDefinition) (parent : Option ClassId) (w : World σ)
    (c : ClassId) (w' : World σ) : Prop where
  has : w.Has n
  engine : w.HasEngine (w.environment n).engine
  templates : (w.heapOf n).templates.slots.size < 2 ^ 32
  members : (w.environment n).tables.members.size < 2 ^ 32
  new : ∀ name, d.name = some name → (w.environment n).classes.lookup name = none
  constructible : d.constructor ≠ none
  made : createClass n d parent w = (.ok c, w')

lemma Founds.finalizer (hfounds : Founds n d parent w c w') :
    ∃ compiled data function flags, w'.class? c = some compiled ∧ compiled.finalizer = d.finalizer ∧
      (w'.heapOf n).constructor? compiled.template = some data ∧
      (w'.environment n).tables.lookup? data =
        some (.member (.construct function flags d.finalizer)) := by
  obtain ⟨hn, he, htemplates, hmembers, hnew, hconstructible, hmade⟩ := hfounds
  obtain ⟨⟨function, flags⟩, hconstructor⟩ := Option.ne_none_iff_exists'.mp hconstructible
  obtain ⟨compiled, t, hclass, hfinalizer, ht, hbare, hext, -⟩ :=
    createClass_made hn he htemplates hnew hmade
  have hregistered : (d.registered (w.environment n).tables) =
      ((w.environment n).tables.register (.member (.construct function flags d.finalizer))).map
        some id := by
    rw [ClassDefinition.registered, hconstructor]
    rfl
  rw [hregistered] at hext hbare
  have hdata : t.constructor = some _ := congrArg Template.constructor hbare
  have hlookup := hext _ _ ((w.environment n).tables.lookup?_register
    (.member (.construct function flags d.finalizer)) hmembers)
  exact ⟨compiled, _, function, flags, hclass, hfinalizer,
    Option.bind_eq_some_iff.mpr ⟨t, ht, hdata⟩, hlookup⟩

end Environment

lemma World.Evolves.finalizer? {t : TemplateRef}
     {finalizer : Option ReclaimHook}
    (hev : w.Evolves w') (hdata : (w.engine e).heap.constructor? t = some data)
    (hlookup : (w.environment n).tables.lookup? data =
      some (.member (.construct function flags finalizer)))
    (hdispatcher : w'.dispatcher? e = some n)
    (hbody : (w'.engine e).heap.body? f = some (.function (.template t)))
    (hconstructor : (w'.engine e).heap.constructor? t ≠ none) : w'.finalizer? e f = finalizer := by
  obtain ⟨found, hfound⟩ := Option.ne_none_iff_exists'.mp hconstructor
  have hsame : found = data := by
    cases he : w.engines[e.index]? with
    | none =>
      have hdefault : w.engine e = default := by
        simp [World.engine, Array.getD_eq_getD_getElem?, he]
      rw [hdefault] at hdata
      exact absurd hdata (by simp [show (default : Engine).heap.constructor? t = none from rfl])
    | some engine =>
      obtain ⟨engine', he', hl⟩ := hev.engines e.index engine he
      rw [w.engine_of_getElem? e engine he] at hdata
      rw [w'.engine_of_getElem? e engine' he'] at hfound
      exact hl.keepsTemplates.constructor t data found hdata hfound
  subst hsame
  have hregistration : w'.registration? e found =
      some (n, .member (.construct function flags finalizer)) := by
    rw [World.registration?, hdispatcher, Option.bind_some, hev.lookup? n found _ hlookup]
    rfl
  rw [World.finalizer?, Engine.callback?_of_template w' e f t found hbody hfound, Option.bind_some,
    hregistration]
  rfl

-- Whatever a constructor of the class makes has the finalizer, if native calls go to the environment
-- of the class then.
def Environment.Endows (host : Host σ) (n : EnvironmentId) (compiled : CompiledClass)
    (hook : ReclaimHook) (founded w : World σ) : Prop :=
  ∀ (action : Action) (function : ObjectRef) (values : List Value) (w₁ : World σ) (r : ObjectRef)
    (w₂ : World σ), action.constructs w = (some ((founded.environment n).engine, function, values), w₁) →
      founded.Evolves w₁ → w₁.dispatcher? (founded.environment n).engine = some n →
      (w₁.engine (founded.environment n).engine).heap.body? function =
        some (.function (.template compiled.template)) →
      Engine.construct host (founded.environment n).engine function values w₁ = (.ok r, w₂) →
        action.Bears host w (founded.environment n).engine r hook

lemma Environment.Founds.endows {w₀ founded : World σ} (hfounds : Founds n d parent w₀ c founded)
    (hhook : d.finalizer = some hook) (w : World σ) :
    ∃ compiled, founded.class? c = some compiled ∧ compiled.finalizer = some hook ∧
      Endows host n compiled hook founded w := by
  obtain ⟨compiled, data, _, _, hclass, hsame, hdata, hlookup⟩ := hfounds.finalizer
  refine ⟨compiled, hclass, hsame.trans hhook, ?_⟩
  intro action function values w₁ r w₂ haction hev hdispatcher hbody hmade
  have hconstructor : (w₁.engine (founded.environment n).engine).heap.constructor?
      compiled.template ≠ none := by
    obtain ⟨found, _, _, _, htarget, -⟩ := Engine.construct_of_ok hmade
    obtain ⟨_, -, ⟨hnative, -⟩ | ⟨t, htemplate, hfound, -⟩⟩ := Engine.constructTarget_of_ok htarget
    · exact absurd (hbody.symm.trans hnative) (by simp)
    · obtain rfl : compiled.template = t := by simpa using hbody.symm.trans htemplate
      rw [hfound]
      exact Option.some_ne_none found
  have hf := hev.finalizer? hdata hlookup hdispatcher hbody hconstructor
  exact .construct _ function values hook r w₁ w₂ haction (hf.trans hhook) hmade

def Entry.gives (e : EngineId) (slot : PersistentRef) : Entry → Bool
  | .given d other => d = e && other = slot
  | _ => false

lemma any_gives {book : List Entry} {slot : PersistentRef} :
    book.any (Entry.gives e slot) = true ↔ .given e slot ∈ book := by
  rw [List.any_eq_true]
  refine ⟨?_, fun hgiven => ⟨_, hgiven, by simp [Entry.gives]⟩⟩
  rintro ⟨entry, hentry, hgives⟩
  cases entry with
  | given d other =>
    obtain ⟨rfl, rfl⟩ : d = e ∧ other = slot := by simpa [Entry.gives] using hgives
    exact hentry
  | _ => exact absurd hgives (by simp [Entry.gives])

def Debt.finalizes (book : List Entry) (e : EngineId) (r : ObjectRef) : Debt → Bool
  | .reclaim x => x.engine = e && x.target = r && !book.any (Entry.gives e x.slot)
  | .release _ => false

def finalizationsOf (book : List Entry) (e : EngineId) (r : ObjectRef) (incidents : List Incident) :
    List (ReclaimHook × Fields) :=
  ((paid incidents).filter (Debt.finalizes book e r)).filterMap fun
    | .reclaim x => some (x.hook, x.fields)
    | .release _ => none

lemma Heap.isAlive_of_field? {field : FieldIndex} (hword : h.field? r field ≠ none) :
    h.isAlive r = true := by
  rw [isAlive_iff, ← Option.ne_none_iff_exists']
  intro hnone
  rw [field?, hnone] at hword
  exact hword rfl

lemma Heap.field?_drainReleases (h : Heap) (r : ObjectRef) (field : FieldIndex) :
    h.drainReleases.2.field? r field = h.field? r field := by
  have hfields : ∀ o, (drained o).fields = o.fields := by
    intro o
    unfold drained
    split <;> rfl
  rw [field?, field?, object?_drainReleases, Option.bind_map]
  simp only [Function.comp_def, hfields]

lemma Heap.field?_setField (h : Heap) (r : ObjectRef) (field other : FieldIndex) (word : Pointer) :
    (h.setField r other word).2.field? r field =
      (h.field? r field).map fun old => if field = other then word else old := by
  unfold setField
  split
  · simp only [field?, object?_modifyObject, if_true]
    cases h.object? r with
    | none => rfl
    | some o => cases ho : o.fields <;> cases field <;> cases other <;> simp [ho]
  · rename_i hnone
    rw [Option.not_isSome_iff_eq_none] at hnone
    simp [field?, hnone]

def Bond.ward? : Bond → Option Ward
  | .ward g => some g
  | .loan _ => none

namespace Scene

variable {s s' : Scene} {i : Incident} {xs : List Incident} {e : EngineId} {r : ObjectRef}

lemma wardKeys_inj (hn : s.Named) {g' : Ward} (hg : .ward g ∈ s.bonds) (hg' : .ward g' ∈ s.bonds)
    (hengine : g.engine = g'.engine) (hobject : g.object = g'.object) : g = g' := by
  have hkeys : s.wardKeys = (s.bonds.filterMap Bond.ward?).map fun g => (g.engine, g.object) := by
    rw [wardKeys, List.map_filterMap]
    congr 1
    funext bond
    cases bond <;> rfl
  have hnodup := (List.nodup_append.mp hn.nodup).2.1
  rw [hkeys] at hnodup
  exact List.inj_on_of_nodup_map hnodup (List.mem_filterMap.mpr ⟨_, hg, rfl⟩)
    (List.mem_filterMap.mpr ⟨_, hg', rfl⟩) (Prod.ext hengine hobject)

section

variable (hs : s.Sound xs)

include hs

lemma Sound.eq_farewell (hg : .ward g ∈ s.bonds) (hx : .reclaim x ∈ incurred xs)
    (hengine : x.engine = g.engine) (hslot : x.slot = g.slot) :
    (s.heap g.engine).isAlive g.object = false ∧ x.target = g.object := by
  have hmem : .reclaim x ∈ (incurred xs).filter g.hears :=
    List.mem_filter.mpr ⟨hx, by simp [Ward.hears, hengine, hslot]⟩
  rcases (hs.wards g hg).2.2 with hw | ⟨hdead, s', debts, -, -, hdischarges⟩
  · rw [hw.waiting] at hmem
    cases hmem
  · rw [hdischarges.filter_incurred] at hmem
    obtain rfl := Debt.reclaim.inj (List.mem_singleton.mp hmem)
    exact ⟨hdead, rfl⟩

-- A slot whose hook was run and that is not the host's was kept for an instance, and the instance is
-- gone.
lemma Sound.ward_of_finalizes {book : List Entry} (hbook : ∀ entry ∈ s.book, entry ∈ book)
    (hx : .reclaim x ∈ incurred xs) (hf : Debt.finalizes book e r (.reclaim x) = true) :
    ∃ g, .ward g ∈ s.bonds ∧ g.engine = e ∧ g.object = r ∧ g.slot = x.slot ∧
      (s.heap e).isAlive r = false := by
  obtain ⟨⟨rfl, rfl⟩, hnot⟩ : (x.engine = e ∧ x.target = r) ∧ book.any (Entry.gives e x.slot) = false := by
    simpa [Debt.finalizes] using hf
  rcases (hs.settled.slot x hx).2.2 with hgiven | ⟨g, hg, hengine, hslot⟩
  · rw [any_gives.mpr (hbook _ hgiven)] at hnot
    cases hnot
  · obtain ⟨hdead, htarget⟩ := hs.eq_farewell hg hx hengine.symm hslot.symm
    refine ⟨g, hg, hengine, htarget.symm, hslot, ?_⟩
    rw [← hengine, htarget]
    exact hdead

lemma Sound.finalizationsOf_eq_nil {book : List Entry} (hbook : ∀ entry ∈ s.book, entry ∈ book)
    (halive : (s.heap e).isAlive r = true) : finalizationsOf book e r xs = [] := by
  have hnone : (paid xs).filter (Debt.finalizes book e r) = [] := by
    rw [List.filter_eq_nil_iff]
    intro d hd hf
    have hincurred := hs.balance.mem_iff.mpr (List.mem_append_left _ hd)
    cases d with
    | release p => exact absurd hf (by simp [Debt.finalizes])
    | reclaim x =>
      obtain ⟨g, -, -, -, -, hdead⟩ := hs.ward_of_finalizes hbook hincurred hf
      exact absurd (hdead.symm.trans halive) (by simp)
  rw [finalizationsOf, hnone]
  rfl

lemma Sound.finalizes_eq (hg : .ward g ∈ s.bonds) {d : Debt} (hd : d ∈ incurred xs) :
    Debt.finalizes s.book g.engine g.object d = g.hears d := by
  cases d with
  | release p => rfl
  | reclaim x =>
    rw [Bool.eq_iff_iff]
    constructor
    · intro hf
      have hengine : x.engine = g.engine := by
        simp only [Debt.finalizes, Bool.and_eq_true, decide_eq_true_eq] at hf
        exact hf.1.1
      obtain ⟨g', hg', hengine', hobject, hslot, -⟩ := hs.ward_of_finalizes (fun _ => id) hd hf
      obtain rfl := wardKeys_inj hs.named hg hg' hengine'.symm hobject.symm
      simp [Ward.hears, hengine, hslot]
    · intro hhears
      obtain ⟨hengine, hslot⟩ : x.engine = g.engine ∧ x.slot = g.slot := by
        simpa [Ward.hears] using hhears
      obtain ⟨-, htarget⟩ := hs.eq_farewell hg hd hengine hslot
      have hfree : s.book.any (Entry.gives g.engine x.slot) = false := by
        rw [Bool.eq_false_iff]
        intro hany
        rw [any_gives, hslot] at hany
        exact (hs.wards g hg).1 hany
      simp [Debt.finalizes, hengine, htarget, hfree]

lemma Sound.finalizationsOf_eq (hg : .ward g ∈ s.bonds) {ys : List Incident} {debts : List Debt}
    (hys : paid ys ⊆ paid xs) (hdebts : (paid ys).filter g.hears = debts) :
    finalizationsOf s.book g.engine g.object ys = debts.filterMap fun
      | .reclaim x => some (x.hook, x.fields)
      | .release _ => none := by
  rw [finalizationsOf, ← hdebts]
  congr 1
  refine List.filter_congr fun d hd => hs.finalizes_eq hg ?_
  exact hs.balance.mem_iff.mpr (List.mem_append_left _ (hys hd))

end

lemma Step.field?_eq (hstep : s.Step i s') (hs : s.Formed) (halive : (s.heap e).isAlive r = true)
    (halive' : (s'.heap e).isAlive r = true) (hset : ∀ word, i ≠ .deed e (.assign r field word)) :
    (s'.heap e).field? r field = (s.heap e).field? r field := by
  cases hstep.turn e with
  | idle hestate => exact congrArg (·.heap.field? r field) hestate
  | deed d hfair hestate _ _ hassigned =>
    have hheap : s'.heap e = (s.heap e).enact d := congrArg Estate.heap hestate
    rw [hheap]
    by_cases hassigns : d.Assigns r
    · have hi := hassigned r hassigns
      cases d with
      | assign target other word =>
        obtain rfl : target = r := hassigns
        have hother : field ≠ other := by
          rintro rfl
          exact hset word hi
        change ((s.heap e).setField target other word).2.field? target field = _
        simp [Heap.field?_setField, hother]
      | _ => exact hassigns.elim
    · obtain ⟨o, ho⟩ := (Heap.isAlive_iff _ _).mp halive
      obtain ⟨o', ho', -, hfields⟩ := Heap.Deed.object_enact hfair (hs.objects e) ho
      rw [Heap.field?, Heap.field?, ho, ho', Option.bind_some, Option.bind_some, hfields hassigns]
  | collect _ hestate =>
    have hheap : s'.heap e = (s.heap e).collect.2 := congrArg Estate.heap hestate
    rw [hheap] at halive' ⊢
    rw [Heap.field?, Heap.object?_collect_of_alive _ r halive', Heap.field?]
  | drop _ _ hestate =>
    have hheap : s'.heap e = (s.heap e).drainReleases.2 := congrArg Estate.heap hestate
    rw [hheap, Heap.field?_drainReleases]
  | spawn limits hbefore =>
    have hmissing : (s.heap e).isAlive r = false := by rw [heap, hbefore]; rfl
    exact absurd (halive.symm.trans hmissing) (by simp)

lemma Step.field?_assign {word : Pointer} (hstep : s.Step (.deed e (.assign r field word)) s')
    (hword : (s.heap e).field? r field ≠ none) : (s'.heap e).field? r field = some word := by
  obtain ⟨old, hold⟩ := Option.ne_none_iff_exists'.mp hword
  cases hstep with
  | deed =>
    have hindex := index_lt_of_isAlive (Heap.isAlive_of_field? hword)
    have hestate := estate_enact_self hindex (.assign r field word)
    rw [show Scene.heap _ e = _ from congrArg Estate.heap hestate]
    change ((s.heap e).setField r field word).2.field? r field = _
    simp [Heap.field?_setField, hold]

end Scene

lemma Account.field?_eq (ha : Account s xs s') (hroom : s'.Roomy) (hs : s.Formed)
    (halive : (s.heap e).isAlive r = true) (halive' : (s'.heap e).isAlive r = true)
    (hset : ∀ word, .deed e (.assign r field word) ∉ xs) :
    (s'.heap e).field? r field = (s.heap e).field? r field := by
  induction ha with
  | nil => rfl
  | @cons s₁ s₂ s₃ i later hstep hrest ih =>
    have hnext := hrest.roomy hroom
    have hformed := hstep.formed hnext hs
    have hthere : (s₂.heap e).isAlive r = true := by
      by_contra hdead
      obtain ⟨_, hadvance⟩ := hstep.objects hnext hs e
      have hissued := hadvance.keeps r ((hs.objects e).issued_of_contains halive)
      have hgone := hrest.stays_dead hroom hformed hissued (by simpa using hdead)
      exact absurd (hgone.symm.trans halive') (by simp)
    have hlater := ih hroom hformed hthere halive'
      fun word hmem => hset word (List.mem_cons_of_mem _ hmem)
    rw [hlater]
    exact hstep.field?_eq hs halive hthere fun word heq => hset word (heq ▸ List.mem_cons_self)

-- The words of an object at the end of an account are those that were set last.
structure LastSet (incidents : List Incident) (s : Scene) (e : EngineId) (r : ObjectRef) : Prop where
  unset : ∀ field first rest s₀, incidents = first ++ rest → Account {} first s₀ →
    (s₀.heap e).isAlive r = true → (∀ word, .deed e (.assign r field word) ∉ rest) →
      (s.heap e).field? r field = (s₀.heap e).field? r field
  set : ∀ field word first rest s₀, incidents = first ++ .deed e (.assign r field word) :: rest →
    Account {} first s₀ → (s₀.heap e).field? r field ≠ none →
      (∀ other, .deed e (.assign r field other) ∉ rest) → (s.heap e).field? r field = some word

lemma Account.lastSet (ha : Account {} incidents s) (hroom : s.Roomy)
    (halive : (s.heap e).isAlive r = true) : LastSet incidents s e r := by
  have hunset : ∀ field first rest s₀, incidents = first ++ rest → Account {} first s₀ →
      (s₀.heap e).isAlive r = true → (∀ word, .deed e (.assign r field word) ∉ rest) →
        (s.heap e).field? r field = (s₀.heap e).field? r field := by
    rintro field first rest s₀ rfl hfirst halive₀ hset
    have hrest := ha.rest hfirst
    exact hrest.field?_eq hroom (hfirst.sound (hrest.roomy hroom)).formed halive₀ halive hset
  refine ⟨hunset, ?_⟩
  rintro field word first rest s₀ rfl hfirst hword hset
  cases ha.rest hfirst with
  | @cons _ s₁ _ _ _ hstep hrest =>
    have hafter := hstep.field?_assign hword
    have halive₁ : (s₁.heap e).isAlive r = true :=
      Heap.isAlive_of_field? (hafter ▸ Option.some_ne_none word)
    rw [← hafter]
    exact hunset field (first ++ [.deed e (.assign r field word)]) rest s₁ (by simp)
      (hfirst.append (.single hstep)) halive₁ hset

lemma Account.book (ha : Account s xs s') {entry : Entry} (hentry : entry ∈ s.book) :
    entry ∈ s'.book := by
  induction ha with
  | nil => exact hentry
  | cons hstep _ ih => exact ih (hstep.book hentry)

-- The finalizer of an instance in an account, and the heap that the account leaves: it is run once,
-- by when the instance is not there any more.
structure Finalized (book : List Entry) (incidents : List Incident) (last : Heap) (e : EngineId)
    (r : ObjectRef) (f : ReclaimHook) : Prop where
  patient : ∀ before after s, incidents = before ++ after → Account {} before s →
    (s.heap e).isAlive r = true → finalizationsOf book e r before = []
  once : last.isAlive r = false → ∃ before debts after s next,
    incidents = before ++ .collect e debts :: after ∧ Account {} before s ∧
    s.Step (.collect e debts) next ∧ (s.heap e).isAlive r = true ∧ (next.heap e).isAlive r = false ∧
    finalizationsOf book e r before = [] ∧
    finalizationsOf book e r after = [(f, (s.heap e).fieldsOf r)] ∧
    (∀ mid rest s', after = mid ++ rest → Account next mid s' → s'.owed.length ≤ s.owed.length →
      finalizationsOf book e r mid = [(f, (s.heap e).fieldsOf r)]) ∧
    LastSet before s e r

lemma Ward.finalized {last : Scene} (ha : Account {} incidents last) (hroom : last.Roomy)
    (howed : last.owed = []) (hg : .ward g ∈ last.bonds) :
    Finalized last.book incidents (last.heap g.engine) g.engine g.object g.hook := by
  have hsound := ha.sound hroom
  refine ⟨?_, fun hdead => ?_⟩
  · rintro before after s rfl hbefore halive
    have hrest := ha.rest hbefore
    exact (hbefore.sound (hrest.roomy hroom)).finalizationsOf_eq_nil (fun _ => hrest.book) halive
  · rcases (hsound.wards g hg).2.2 with hw | ⟨-, s, debts, halive, hgone, hdischarges⟩
    · exact absurd (hdead.symm.trans hw.alive) (by simp)
    · obtain ⟨before, after, next, hsplit, hbefore, hstep, -, hearlier, hlater, hprompt⟩ :=
        hdischarges.settled ha howed
      subst hsplit
      have hrest := ha.rest hbefore
      have hnext : (next.heap g.engine).isAlive g.object = false := by
        cases hstep with
        | collect =>
          have hestate := Scene.estate_enact_self (Scene.index_lt_of_isAlive halive) (.op .collect)
          exact (congrArg (·.heap.isAlive g.object) hestate).trans hgone
      refine ⟨before, debts, after, s, next, rfl, hbefore, hstep, halive, hnext, ?_, ?_, ?_, ?_⟩
      · exact hsound.finalizationsOf_eq hg (by simp [paid_append]) hearlier
      · refine hsound.finalizationsOf_eq hg (fun d hd => ?_) hlater
        simp [paid_append, paid_cons, hd]
      · rintro mid rest s' rfl hmid hless
        refine hsound.finalizationsOf_eq hg (fun d hd => ?_) (hprompt mid rest s' rfl hmid hless)
        simp [paid_append, paid_cons, hd]
      · exact hbefore.lastSet (hrest.roomy hroom) halive

lemma Heap.Bears.isAlive {h' : Heap} (hb : h.Bears r h') (hwf : h.WellFormed)
    (hroom : h'.objects.slots.size < 2 ^ 32) : h'.isAlive r = true := by
  obtain ⟨h₁, o, hl, -, hallocate, -⟩ := hb
  have hsize : h₁.objects.slots.size ≤ h'.objects.slots.size := by
    have hopens := (h₁.opens_allocate o).size
    rwa [hallocate] at hopens
  have hbefore := Nat.lt_of_le_of_lt hsize hroom
  have hself := Arena.get?_insert_self h₁.objects (hl.leads.wellFormed hwf hbefore) hbefore o
  have hthere : (h₁.allocate o).2.isAlive (h₁.allocate o).1 = true := by
    rw [Heap.isAlive, allocate_objects, Arena.contains]
    exact congrArg Option.isSome hself
  rwa [hallocate] at hthere

lemma Environment.newInstance_alive {compiled : CompiledClass} {f : ReclaimHook}
    (hwf : (w.heapOf n).WellFormed) (hclass : w.class? c = some compiled)
    (hf : compiled.finalizer = some f) (hmade : (newInstance n c w).1 = some (.transient r))
    (hroom : ((newInstance n c w).2.engine (w.environment n).engine).heap.objects.slots.size < 2 ^ 32) :
    ((newInstance n c w).2.engine (w.environment n).engine).heap.isAlive r = true := by
  rcases newInstance_cases n c w with ⟨h, -, -, hnone⟩ | ⟨he, _, _, r', h, -, -, hnew, hr, hreplaces⟩
  · rw [hnone compiled f hclass hf] at hmade
    cases hmade
  · obtain rfl : r' = r := by
      rw [hr] at hmade
      exact Handle.transient.inj (Option.some.inj hmade)
    rw [hreplaces.heap, World.engine_modifyEngine, if_pos ⟨rfl, he⟩] at hroom ⊢
    dsimp only at hroom ⊢
    rw [Heap.hold_objects] at hroom
    rw [Heap.isAlive, Heap.hold_objects]
    exact (Heap.bears_newInstance hnew).isAlive hwf hroom

-- The finalizer of a class is run once for each instance that is there when the call that made it
-- returns: in the collection that frees it, with its words as they were set last.
theorem finalizer_runs_once {host : Host σ} {ledger : σ → List Entry} (hh : host.Ledgered ledger)
    (s : σ) (hs : ledger s = []) (w : World σ) (hw : Bookkept ledger host { host := s } w)
    (hroom : w.Roomy) :
    (∀ (action : Action) n c compiled f r, action.instance? = some (n, c) →
      w.class? c = some compiled → compiled.finalizer = some f →
      (Environment.newInstance n c w).1 = some (.transient r) → (action.perform host w).2.Roomy →
        action.Bears host w (w.environment n).engine r f ∧
        ((action.perform host w).2.engine (w.environment n).engine).heap.isAlive r = true) ∧
    (∀ n d parent w₀ c founded f, Environment.Founds n d parent w₀ c founded → d.finalizer = some f →
      ∃ compiled, founded.class? c = some compiled ∧ compiled.finalizer = some f ∧
        Environment.Endows host n compiled f founded w) ∧
    ∃ incidents bonds, Account {} incidents (w.scene ledger [] [] bonds) ∧
      (paid incidents).map Debt.visit = (ledger w.host).filterMap Entry.ran? ∧
      ∀ e r f, .born e r f ∈ ledger w.host →
        Finalized (ledger w.host) incidents (w.engine e).heap e r f := by
  obtain ⟨incidents, bonds, ha⟩ := hw.account hh hs
  have hroom' := hroom.scene ledger [] [] bonds
  have hsound := ha.sound hroom'
  refine ⟨?_, fun n d parent w₀ c founded f hfounds hf => hfounds.endows hf w,
    incidents, bonds, ha, ha.ran.symm, fun e r f hborn => ?_⟩
  · intro action n c compiled f r haction hclass hf hmade hafter
    refine ⟨.plain n c compiled f r haction hclass hf hmade, ?_⟩
    have hwf := hsound.formed.objects (w.environment n).engine
    rw [World.heap_scene] at hwf
    rw [Action.perform_of_instance? haction] at hafter ⊢
    exact Environment.newInstance_alive hwf hclass hf hmade (hafter _).1
  · obtain ⟨slot, hg⟩ := hsound.born e r f hborn
    have hfinalized := Ward.finalized ha hroom' rfl hg
    rwa [World.heap_scene] at hfinalized

-- Two instances of a class, one of them by its constructor and held weakly, with a hook that is
-- changed.
def mourner : ReclaimHook := ⟨⟨4⟩, 9⟩

def mourned : ClassDefinition :=
  { name := some "A", constructor := some (⟨⟨3⟩, none⟩, 0), finalizer := some mourner }

def byConstructor : Action := .operate ⟨0⟩ (.newInstanceWithConstructor ⟨0⟩ [])

def withoutConstructor : Action := .operate ⟨0⟩ (.newInstance ⟨0⟩)

def founded : World (List Entry) :=
  (Environment.createClass ⟨0⟩ mourned none (World.after restless { host := [] } hosted)).2

def classReady : World (List Entry) :=
  World.after restless { host := [] }
    (hosted ++ [.operate ⟨0⟩ (.createClass none mourned), .operate ⟨0⟩ .pushScope])

def firstBorn : World (List Entry) :=
  (byConstructor.perform restless classReady).2.noting (.born ⟨0⟩ (.first 3) mourner)

def bothBorn : World (List Entry) :=
  ((withoutConstructor.perform restless firstBorn).2.noting (.born ⟨0⟩ (.first 4) mourner)).after restless
    [.operate ⟨0⟩ (.setField .data (.transient (.first 3)) 5),
      .operate ⟨0⟩ (.setField .data (.transient (.first 3)) 6),
      .operate ⟨0⟩ (.setField .extra (.transient (.first 4)) 7)]

def holding : Action := .operate ⟨0⟩ (.newWeakReference (.transient (.first 3)) (some ⟨⟨2⟩, 0⟩))

def oneHeld : World (List Entry) :=
  (holding.perform restless bothBorn).2.noting (.given ⟨0⟩ (.first 2))

def weakening : Action := .operate ⟨0⟩ (.makeWeak (.persistent (.first 2)) (some ⟨⟨2⟩, 1⟩))

def bothGone : World (List Entry) :=
  (weakening.perform restless oneHeld).2.after restless [.operate ⟨0⟩ .popScope, .request ⟨0⟩ .collect]

lemma bothGone_bookkept : Bookkept id restless { host := [] } bothGone := by
  have hopened : Bookkept id restless { host := [] } classReady :=
    .after .start _ (by simp [hosted, Action.releases, Action.entrusts])
  have hbears : byConstructor.Bears restless classReady ⟨0⟩ (.first 3) mourner :=
    .construct ⟨0⟩ (.first 2) [] mourner (.first 3) (byConstructor.constructs classReady).2
      (Engine.construct restless ⟨0⟩ (.first 2) [] (byConstructor.constructs classReady).2).2
      (Prod.ext (by cbv) rfl) (by cbv) (Prod.ext (by cbv) rfl)
  have hfirst : Bookkept id restless { host := [] } firstBorn :=
    .bear _ byConstructor ⟨0⟩ (.first 3) mourner _ hbears (by decide +kernel) rfl hopened
  have hsecond : Bookkept id restless { host := [] }
      ((withoutConstructor.perform restless firstBorn).2.noting (.born ⟨0⟩ (.first 4) mourner)) :=
    .bear _ withoutConstructor ⟨0⟩ (.first 4) mourner _
      (.plain ⟨0⟩ ⟨0⟩ _ mourner (.first 4) rfl (by cbv) (by cbv) (by cbv)) (by cbv) rfl hfirst
  have hset : Bookkept id restless { host := [] } bothBorn :=
    hsecond.after _ (by simp [Action.releases, Action.entrusts])
  have hheld : Bookkept id restless { host := [] } oneHeld :=
    .entrust _ holding ⟨0⟩ (.first 2) _ (by cbv) (by cbv) hset
  have hgiven : ∀ e slot, weakening.releases oneHeld = some (e, slot) →
      .given e slot ∈ oneHeld.host := by
    intro e slot hreleases
    have hslot : weakening.releases oneHeld = some (⟨0⟩, .first 2) := by decide +kernel
    obtain ⟨rfl, rfl⟩ := Prod.mk.inj (Option.some.inj (hreleases.symm.trans hslot))
    exact List.mem_append_right _ List.mem_cons_self
  have hweakened : Bookkept id restless { host := [] } (weakening.perform restless oneHeld).2 :=
    .act oneHeld weakening hgiven rfl hheld
  exact hweakened.after _ (by simp [Action.releases, Action.entrusts])

theorem finalizer_runs_once_weakly_held :
    bothGone.host = [.born ⟨0⟩ (.first 3) mourner, .born ⟨0⟩ (.first 4) mourner, .given ⟨0⟩ (.first 2),
      .ran (.reclaim mourner ⟨6, 0⟩), .ran (.reclaim mourner ⟨0, 7⟩), .ran (.reclaim ⟨⟨2⟩, 1⟩ ⟨6, 0⟩)] ∧
    (bothGone.engine ⟨0⟩).heap.isAlive (.first 3) = false ∧
    (bothGone.engine ⟨0⟩).heap.isAlive (.first 4) = false ∧
    (∃ compiled, founded.class? ⟨0⟩ = some compiled ∧ compiled.finalizer = some mourner ∧
      Environment.Endows restless ⟨0⟩ compiled mourner founded bothGone) ∧
    ∃ incidents bonds, Account {} incidents (bothGone.scene id [] [] bonds) ∧
      (paid incidents).map Debt.visit = bothGone.host.filterMap Entry.ran? ∧
      Finalized bothGone.host incidents (bothGone.engine ⟨0⟩).heap ⟨0⟩ (.first 3) mourner ∧
      Finalized bothGone.host incidents (bothGone.engine ⟨0⟩).heap ⟨0⟩ (.first 4) mourner := by
  have hbook : bothGone.host = [.born ⟨0⟩ (.first 3) mourner, .born ⟨0⟩ (.first 4) mourner,
      .given ⟨0⟩ (.first 2), .ran (.reclaim mourner ⟨6, 0⟩), .ran (.reclaim mourner ⟨0, 7⟩),
      .ran (.reclaim ⟨⟨2⟩, 1⟩ ⟨6, 0⟩)] := by cbv
  have hfounds : Environment.Founds ⟨0⟩ mourned none (World.after restless { host := [] } hosted) ⟨0⟩
      founded := by
    refine ⟨by decide, by decide, by decide, by decide, ?_, by decide,
      Prod.ext (by decide +kernel) rfl⟩
    rintro name -
    rfl
  obtain ⟨-, hclass, incidents, bonds, ha, hran, hfinalized⟩ :=
    finalizer_runs_once restless_ledgered [] rfl bothGone bothGone_bookkept (World.roomy_of_all (by cbv))
  refine ⟨hbook, by cbv, by cbv, hclass _ _ _ _ _ _ _ hfounds rfl, incidents, bonds, ha, hran,
    hfinalized _ _ _ ?_, hfinalized _ _ _ ?_⟩
  · exact hbook ▸ List.mem_cons_self
  · exact hbook ▸ List.mem_cons_of_mem _ List.mem_cons_self

lemma Engine.construct_of_invoke {w₁ w₂ : World σ} {target : ObjectRef} {args : List Value}
    {value : Value}
    (htarget : constructTarget e f w = (.ok (data, target), w₁))
    (hregistration : w₁.registration? e data = some (n, .member (.construct function flags (some hook))))
    (hinvoke : Environment.invoke host n function flags (some (.transient target)) args
      (w₁.entered e n) = (.ok value, w₂)) :
    construct host e f args w = (.ok target, (left e n (.ok (.object target),
      w₂.modifyEngine (w₂.environment n).engine ({ · with
        heap := ((w₂.engine (w₂.environment n).engine).heap.hold target (some hook)).2 }))).2) := by
  have hdispatch : dispatch host e data ⟨.construct, .object target, args⟩ w₁ =
      left e n (.ok (.object target), w₂.modifyEngine (w₂.environment n).engine ({ · with
        heap := ((w₂.engine (w₂.environment n).engine).heap.hold target (some hook)).2 })) := by
    rw [dispatch_of_registration _ _ e n data _ _ hregistration, inScope_apply,
      Environment.run_construct, hinvoke]
  simp only [construct, bind_apply, htarget, hdispatch]
  rw [left_apply]
  rfl

-- A host whose functions do a list of things, and which takes hooks down.
def scribing (actions : EnvironmentId → List Action) : Host (List Entry) :=
  { scribe with function := fun _ n _ _ w => (none, w.after scribe (actions n)) }

lemma visit_scribing (actions : EnvironmentId → List Action) (code : Code) (n : EnvironmentId)
    (this : Option Handle) (args : List Tagged) (w : World (List Entry)) :
    ((scribing actions).visit (.function code n this args) w).2 = w.after scribe (actions n) := rfl

-- The scope is closed that an instance is in while its constructor runs, and so it is gone before it
-- gets its finalizer.
def unsettling (n : EnvironmentId) : List Action :=
  [.operate n .popScope, .operate n .popScope, .request ⟨0⟩ .collect]

lemma unsettling_ledgered : (scribing unsettling).Ledgered id := by
  refine .nested _ (fun _ _ => scribe) (fun _ _ => scribe_ledgered) fun visit w _ _ => ?_
  cases visit with
  | function code n this args =>
    refine ⟨w.host, (List.append_nil _).symm, ?_⟩
    rw [visit_scribing]
    exact .after .start _ (by simp [unsettling, Action.releases, Action.entrusts])
  | reclaim | release => exact ⟨_, rfl, .start⟩
  | _ => exact ⟨w.host, (List.append_nil _).symm, .start⟩

def unsettled : World (List Entry) :=
  World.after (scribing unsettling) { host := [] } (hosted ++ [.operate ⟨0⟩ (.createClass none mourned),
    .operate ⟨0⟩ .pushScope, .operate ⟨0⟩ .pushScope])

lemma unsettled_bookkept : Bookkept id (scribing unsettling) { host := [] } unsettled :=
  .after .start _ (by simp [hosted, Action.releases, Action.entrusts])

def unsettledTarget : Except Throw (CallbackData × ObjectRef) × World (List Entry) :=
  Engine.constructTarget ⟨0⟩ (.first 2) (byConstructor.constructs unsettled).2

def unsettledBody : Completion × World (List Entry) :=
  Environment.invoke (scribing unsettling) ⟨0⟩ ⟨⟨3⟩, none⟩ 0 (some (.transient (.first 3))) []
    (unsettledTarget.2.entered ⟨0⟩ ⟨0⟩)

theorem instance_lost_in_constructor :
    let done := (byConstructor.perform (scribing unsettling) unsettled).2
    (scribing unsettling).Ledgered id ∧ Bookkept id (scribing unsettling) { host := [] } unsettled ∧
    byConstructor.Bears (scribing unsettling) unsettled ⟨0⟩ (.first 3) mourner ∧
    (done.engine ⟨0⟩).heap.isAlive (.first 3) = false ∧ done.host = [] ∧
    (done.after (scribing unsettling) [.request ⟨0⟩ .collect]).host = [] := by
  intro done
  have hfound : byConstructor.constructs unsettled =
      (some (⟨0⟩, .first 2, []), (byConstructor.constructs unsettled).2) :=
    Prod.ext (by decide +kernel) rfl
  have htarget : unsettledTarget = (.ok (⟨12884901888⟩, .first 3), unsettledTarget.2) :=
    Prod.ext (by decide +kernel) rfl
  have hregistration : unsettledTarget.2.registration? ⟨0⟩ ⟨12884901888⟩ =
      some (⟨0⟩, .member (.construct ⟨⟨3⟩, none⟩ 0 (some mourner))) := by decide +kernel
  have hbody : unsettledBody = (.ok .undefined, unsettledBody.2) := Prod.ext (by cbv) rfl
  have hmade := Engine.construct_of_invoke htarget hregistration hbody
  have hdone : done = _ := Action.perform_of_constructs hfound hmade
  refine ⟨unsettling_ledgered, unsettled_bookkept, ?_, ?_, ?_, ?_⟩
  · exact .construct ⟨0⟩ (.first 2) [] mourner (.first 3) _ _ hfound (by decide +kernel) hmade
  · rw [hdone]
    cbv
  · rw [hdone]
    cbv
  · rw [hdone]
    cbv

end HostBoundary
