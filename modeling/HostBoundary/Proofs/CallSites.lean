import HostBoundary.Proofs.HeapRuns

namespace HostBoundary.Heap

-- The places in a heap from which native code is called: a function or class, and the two
-- sides of an accessor.
inductive Site where
  | function (r : ObjectRef)
  | getter (r : ObjectRef) (key : Key)
  | setter (r : ObjectRef) (key : Key)

def callback? (h : Heap) : Site → Option CallbackData
  | .function r =>
    ((h.object? r).bind (·.function?)).bind fun
      | .native data => some data
      | .template t => h.constructor? t
  | .getter r key =>
    ((h.object? r).bind (·.own? key)).bind fun p =>
      match p.slot with
      | .accessor getter _ => getter
      | .data _ => none
  | .setter r key =>
    ((h.object? r).bind (·.own? key)).bind fun p =>
      match p.slot with
      | .accessor _ setter => setter
      | .data _ => none

section Objects

variable (h : Heap)

lemma object?_modifyObject (r s : ObjectRef) (f : HeapObject → HeapObject) :
    (h.modifyObject r f).object? s = if s = r then (h.object? s).map f else h.object? s :=
  Arena.get?_modify h.objects r s f

-- What an object is once the hook of its memory has been taken.
def drained (o : HeapObject) : HeapObject :=
  match o.body with
  | .arrayBuffer backing => { o with body := .arrayBuffer backing.taken }
  | _ => o

lemma calm_drained (o : HeapObject) : o.Calm (drained o) := by
  unfold drained
  split
  · rename_i hb
    exact .of_properties rfl (by simp [HeapObject.role, hb])
  · exact .refl o

lemma entries_drainReleases :
    h.drainReleases.2.objects.entries = h.objects.entries.map drained := by
  simp only [drainReleases, Arena.entries, Array.toList_map, List.filterMap_map, List.map_filterMap]
  rfl

lemma object?_drainReleases (r : ObjectRef) :
    h.drainReleases.2.object? r = (h.object? r).map drained := by
  simp only [drainReleases, object?, Arena.get?, Array.getElem?_map]
  cases h.objects.slots[r.position]? with
  | none => rfl
  | some slot =>
    dsimp only [Option.map_some]
    split <;> rfl

lemma eq_drained_of_drainReleases (ho : h.drainReleases.2.object? r = some o') :
    ∃ o, h.object? r = some o ∧ drained o = o' :=
  Option.map_eq_some_iff.mp ((h.object?_drainReleases r).symm.trans ho)

-- One mild operation, as seen from an object that is there before and after it.
lemma apply_faithful (op : Operation) (hm : op.Mild h) (hwf : h.WellFormed) (r : ObjectRef)
    (o o' : HeapObject) (ho : h.object? r = some o) (ho' : (h.apply op).2.object? r = some o') :
    o.Faithful o' := by
  have hsame : h.object? r = some o' → o.Faithful o' := fun hsome =>
    Option.some.inj (ho.symm.trans hsome) ▸ .refl o
  cases op with
  | allocate x =>
    simp only [apply, Prod.map, id, object?, allocate_objects] at ho'
    rw [h.objects.get?_insert_of_get? hwf x o r ho] at ho'
    exact Option.some.inj ho' ▸ .refl o
  | mutate s change =>
    simp only [apply, object?_modifyObject] at ho'
    split at ho'
    · rename_i hrs
      subst hrs
      rw [ho, Option.map_some] at ho'
      exact Option.some.inj ho' ▸ hm o ho
    · exact hsame ho'
  | collect =>
    simp only [apply, Prod.map, id, object?_collect] at ho'
    exact hsame (Option.filter_eq_some_iff.mp ho').1
  | drainReleases =>
    obtain ⟨before, hb, rfl⟩ := h.eq_drained_of_drainReleases ho'
    exact Option.some.inj (hb.symm.trans ho) ▸ (calm_drained before).faithful
  | root | pushScope | popScope | persist | target | weaken =>
    exact hsame (by simpa [apply, object?] using ho')
  | setGlobal | dispose | addTemplate | mutateTemplate | discardTemplate | enqueue | dequeue =>
    exact hsame ho'

end Objects

namespace Leads

variable {h h' : Heap}

lemma objects (hl : h.Leads h') : ∃ fresh, Arena.Progress h.objects h'.objects fresh := by
  obtain ⟨ops, rfl⟩ := hl.exists_after
  exact ⟨_, after_objects h ops⟩

-- The same for a whole run. That the object was there all along is what keeps an unrelated
-- object of the same slot out.
lemma faithful (hl : h.Leads h') (hwf : h.WellFormed)
    (hsize : h'.objects.slots.size < 2 ^ 32) (r : ObjectRef) (o o' : HeapObject)
    (ho : h.object? r = some o) (ho' : h'.object? r = some o') : o.Faithful o' := by
  induction hl generalizing o' with
  | refl => exact Option.some.inj (ho.symm.trans ho') ▸ .refl o
  | @tail middle last hrun hstep ih =>
    obtain ⟨op, hm, rfl⟩ := hstep
    obtain ⟨_, hpast⟩ := Leads.objects hrun
    have hnow := apply_objects middle op
    have hmid : middle.objects.slots.size < 2 ^ 32 := Nat.lt_of_le_of_lt hnow.size hsize
    have halive : middle.isAlive r = true := by
      by_contra hdead
      exact hpast.stays_invalid hnow hwf hsize (isAlive_of_object? h r o ho) hdead
        (isAlive_of_object? _ r o' ho')
    obtain ⟨between, hb⟩ := (isAlive_iff middle r).mp halive
    exact (ih hmid between hb).trans
      (apply_faithful middle op hm (hpast.wellFormed hwf hmid) r between o' hb ho')

end Leads

section Templates

-- Every template is where it was with the constructor it had, or is gone for good.
def KeepsTemplates (h h' : Heap) : Prop :=
  ∀ (i : Nat) slot, h.templates.slots[i]? = some slot →
    ∃ slot', h'.templates.slots[i]? = some slot' ∧
      (slot'.entry = none ∨ slot'.current = slot.current ∧
        slot'.entry.map (·.constructor) = slot.entry.map (·.constructor))

lemma KeepsTemplates.of_eq {h h' : Heap} (heq : h'.templates = h.templates) : h.KeepsTemplates h' :=
  fun _ slot hs => ⟨slot, heq ▸ hs, .inr ⟨rfl, rfl⟩⟩

lemma KeepsTemplates.trans {a b c : Heap} (hab : a.KeepsTemplates b) (hbc : b.KeepsTemplates c) :
    a.KeepsTemplates c := by
  intro i slot hs
  obtain ⟨middle, hm, hmid⟩ := hab i slot hs
  obtain ⟨last, hlast, hend⟩ := hbc i middle hm
  refine ⟨last, hlast, ?_⟩
  rcases hend with hgone | ⟨hcurrent, hentry⟩
  · exact .inl hgone
  · rcases hmid with hempty | ⟨hc, he⟩
    · rw [hempty] at hentry
      exact .inl (Option.map_eq_none_iff.mp hentry)
    · exact .inr ⟨hcurrent.trans hc, hentry.trans he⟩

variable (h : Heap)

lemma keepsTemplates_addTemplate (t : Template) : h.KeepsTemplates (h.addTemplate t).2 := by
  intro i slot hs
  have hlt : i < h.templates.slots.size := (Array.getElem?_eq_some_iff.mp hs).1
  refine ⟨slot, ?_, .inr ⟨rfl, rfl⟩⟩
  simp only [addTemplate, Arena.slots_append, if_neg (Nat.ne_of_lt hlt)]
  exact hs

lemma keepsTemplates_modifyTemplate (r : TemplateRef) (f : Template → Template)
    (hf : ∀ t, h.template? r = some t → (f t).constructor = t.constructor) :
    h.KeepsTemplates (h.modifyTemplate r f) := by
  intro i slot hs
  simp only [modifyTemplate, Arena.slots_modify, hs, Option.map_some, Option.some.injEq,
    exists_eq_left']
  right
  split
  · rename_i hat
    refine ⟨rfl, ?_⟩
    cases he : slot.entry with
    | none => rfl
    | some t =>
      have ht : h.template? r = some t :=
        (Arena.get?_eq_some_iff _ r t).mpr ⟨slot, hat.1 ▸ hs, hat.2, he⟩
      simp [hf t ht]
  · exact ⟨rfl, rfl⟩

lemma keepsTemplates_discardTemplate (r : TemplateRef) :
    h.KeepsTemplates (h.discardTemplate r) := by
  intro i slot hs
  simp only [discardTemplate, Arena.retire, Array.getElem?_modify, hs, Option.map_some]
  split
  · split
    · exact ⟨_, rfl, .inl rfl⟩
    · exact ⟨_, rfl, .inr ⟨rfl, rfl⟩⟩
  · exact ⟨_, rfl, .inr ⟨rfl, rfl⟩⟩

@[simp] lemma root_templates (r : ObjectRef) : (h.root r).templates = h.templates := by
  unfold root
  split <;> rfl

@[simp] lemma allocate_templates (object : HeapObject) :
    (h.allocate object).2.templates = h.templates := by
  simp [allocate]

@[simp] lemma pushScope_templates : h.pushScope.templates = h.templates := by
  unfold pushScope
  split <;> rfl

@[simp] lemma popScope_templates : h.popScope.2.templates = h.templates := by
  unfold popScope
  repeat' split
  all_goals rfl

@[simp] lemma persist_templates (target : ObjectRef) :
    (h.persist target).2.templates = h.templates := by
  unfold persist
  split <;> rfl

@[simp] lemma target_templates (slot : PersistentRef) :
    (h.target slot).2.templates = h.templates := by
  unfold target
  repeat' split
  all_goals simp

@[simp] lemma weaken_templates (slot : PersistentRef) (hook : Option ReclaimHook) :
    (h.weaken slot hook).2.templates = h.templates := by
  unfold weaken
  split <;> rfl

lemma apply_keepsTemplates (op : Operation) (hm : op.Mild h) : h.KeepsTemplates (h.apply op).2 := by
  cases op with
  | addTemplate t => exact h.keepsTemplates_addTemplate t
  | mutateTemplate r change => exact h.keepsTemplates_modifyTemplate r change hm
  | discardTemplate r => exact h.keepsTemplates_discardTemplate r
  | allocate | root | pushScope | popScope | persist | target | weaken =>
    exact .of_eq (by simp [apply])
  | collect => exact .of_eq (by simp [apply, collect_eq])
  | mutate | setGlobal | dispose | enqueue | dequeue | drainReleases => exact .of_eq rfl

lemma Leads.keepsTemplates {h h' : Heap} (hl : h.Leads h') : h.KeepsTemplates h' := by
  induction hl with
  | refl => exact .of_eq rfl
  | tail _ hstep ih =>
    obtain ⟨op, hm, rfl⟩ := hstep
    exact ih.trans (apply_keepsTemplates _ op hm)

lemma KeepsTemplates.constructor {h h' : Heap} (hk : h.KeepsTemplates h') (t : TemplateRef)
    (data data' : CallbackData) (hbefore : h.constructor? t = some data)
    (hafter : h'.constructor? t = some data') : data' = data := by
  obtain ⟨template, ht, hd⟩ := Option.bind_eq_some_iff.mp hbefore
  obtain ⟨template', ht', hd'⟩ := Option.bind_eq_some_iff.mp hafter
  obtain ⟨slot, hs, -, he⟩ := (Arena.get?_eq_some_iff _ t template).mp ht
  obtain ⟨slot', hs', -, he'⟩ := (Arena.get?_eq_some_iff _ t template').mp ht'
  obtain ⟨found, hfound, hkept⟩ := hk _ slot hs
  obtain rfl : slot' = found := Option.some.inj (hs'.symm.trans hfound)
  rcases hkept with hgone | ⟨-, hsame⟩
  · simp [he'] at hgone
  · rw [he, he'] at hsame
    simp only [Option.map_some, Option.some.injEq, hd, hd'] at hsame
    exact hsame

end Templates

lemma Leads.callback {h h' : Heap} (hl : h.Leads h') (hwf : h.WellFormed)
    (hsize : h'.objects.slots.size < 2 ^ 32) (site : Site) (data data' : CallbackData)
    (hbefore : h.callback? site = some data) (hafter : h'.callback? site = some data') :
    data' = data := by
  cases site with
  | function r =>
    obtain ⟨f, hf, hd⟩ := Option.bind_eq_some_iff.mp hbefore
    obtain ⟨f', hf', hd'⟩ := Option.bind_eq_some_iff.mp hafter
    obtain ⟨o, ho, hof⟩ := Option.bind_eq_some_iff.mp hf
    obtain ⟨o', ho', hof'⟩ := Option.bind_eq_some_iff.mp hf'
    have hfunction := (hl.faithful hwf hsize r o o' ho ho').function
    obtain rfl : f' = f := by
      rw [hof, hof'] at hfunction
      exact Option.some.inj hfunction
    cases f' with
    | native d => exact (Option.some.inj hd').symm.trans (Option.some.inj hd)
    | template t => exact hl.keepsTemplates.constructor t data data' hd hd'
  | getter r key | setter r key =>
    obtain ⟨p, hp, hd⟩ := Option.bind_eq_some_iff.mp hbefore
    obtain ⟨p', hp', hd'⟩ := Option.bind_eq_some_iff.mp hafter
    obtain ⟨o, ho, hown⟩ := Option.bind_eq_some_iff.mp hp
    obtain ⟨o', ho', hown'⟩ := Option.bind_eq_some_iff.mp hp'
    have hkept := (hl.faithful hwf hsize r o o' ho ho').accessor
    obtain ⟨key', slot, enumerable⟩ := p'
    obtain rfl : key' = key := by simpa using List.find?_some hown'
    cases slot with
    | data v => simp at hd'
    | accessor getter setter =>
      have hsame := hkept _ _ _ _ hown'
      obtain rfl := Option.some.inj (hown.symm.trans hsame)
      exact Option.some.inj (hd'.symm.trans hd)

end HostBoundary.Heap
