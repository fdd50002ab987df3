import HostBoundary.Environment.Reference
import HostBoundary.Proofs.Lending
import HostBoundary.Proofs.Microtasks
import HostBoundary.Proofs.Rounding

namespace HostBoundary

open Heap

variable {σ α β : Type} {host : Host σ} {n : EnvironmentId} {e : EngineId} {h h' h'' : Heap} {a : α}
  {f : Heap → α × Heap} {r : ObjectRef} {o : HeapObject} {elements : Array Value} {tagged : Tagged}
  {v : Value} {flags : Flags} {i : Nat}

lemma World.modifyEngine_heap (w : World σ) (e : EngineId) (h h' : Heap) :
    (w.setHeap e h).modifyEngine e ({ · with heap := h' }) = w.setHeap e h' := by
  have hsame : (w.engines.modify e.index ({ · with heap := h })).modify e.index
      ({ · with heap := h' }) = w.engines.modify e.index ({ · with heap := h' }) :=
    modify_modify _ _ _ _
  simp only [World.modifyEngine, hsame]

lemma View.In.modifyHeap {w : World σ} (hw : (View.environment n e).In w) (h : Heap) :
    (View.environment n e).In (w.setHeap e h) ∧ ((w.setHeap e h).engine e).heap = h := by
  refine ⟨⟨(World.hasEngine_modifyEngine ..).mpr hw.1, hw.2⟩, ?_⟩
  rw [World.heap_modifyEngine hw.1]

namespace Act

-- The act takes the heap of an environment's engine from `h` to `h'`, changes nothing else and
-- gives `a`.
def Turns (n : EnvironmentId) (e : EngineId) (act : Act σ α) (h : Heap) (a : α) (h' : Heap) :
    Prop :=
  ∀ w : World σ, (View.environment n e).In w → (w.engine e).heap = h →
    act w = (a, w.modifyEngine e ({ · with heap := h' }))

lemma turns_pure (a : α) : Turns n e (pure a : Act σ α) h a h := by
  rintro w - rfl
  rw [World.modifyEngine_self]
  rfl

lemma Turns.bind {act : Act σ α} {next : α → Act σ β} {b : β} (hact : Turns n e act h a h')
    (hnext : Turns n e (next a) h' b h'') : Turns n e (act >>= next) h b h'' := by
  intro w hw hheap
  obtain ⟨hw', hheap'⟩ := hw.modifyHeap h'
  change next (act w).1 (act w).2 = _
  rw [hact w hw hheap, hnext _ hw' hheap', World.modifyEngine_heap]

lemma turns_onHeap (hf : f h = (a, h')) : Turns n e (onHeap e f : Act σ α) h a h' := by
  rintro w - rfl
  simp only [onHeap, hf]

lemma turns_heap : Turns n e (heap e : Act σ Heap) h h h := by
  rintro w - rfl
  rw [World.modifyEngine_self]
  rfl

end Act

namespace Heap

-- What was on the heap is there as it was, and at most `k` slots have been added.
structure Adds (h h' : Heap) (k : Nat) : Prop where
  object : ∀ r o, h.object? r = some o → h'.object? r = some o
  limits : h'.limits = h.limits
  wellFormed : h'.objects.WellFormed
  size : h'.objects.slots.size ≤ h.objects.slots.size + k

namespace Adds

variable {k l : Nat}

lemma refl (hwf : h.WellFormed) : h.Adds h 0 :=
  ⟨fun _ _ ho => ho, rfl, hwf, Nat.le_refl _⟩

lemma trans (hab : h.Adds h' k) (hbc : h'.Adds h'' l) : h.Adds h'' (k + l) where
  object r o ho := hbc.object r o (hab.object r o ho)
  limits := hbc.limits.trans hab.limits
  wellFormed := hbc.wellFormed
  size := by
    have := hab.size
    have := hbc.size
    omega

lemma mono (hab : h.Adds h' k) (hkl : k ≤ l) : h.Adds h' l :=
  { hab with size := Nat.le_trans hab.size (Nat.add_le_add_left hkl _) }

end Adds

end Heap

lemma Arena.size_insert_le {store : Store} (a : Arena store α) (x : α) :
    (a.insert x).2.slots.size ≤ a.slots.size + 1 := by
  unfold insert append
  repeat' split
  all_goals simp

namespace Heap

lemma adds_allocate (hwf : h.WellFormed) (hroom : h.objects.slots.size < 2 ^ 32)
    (o : HeapObject) :
    h.Adds (h.allocate o).2 1 ∧ (h.allocate o).2.object? (h.allocate o).1 = some o ∧
      h.object? (h.allocate o).1 = none := by
  refine ⟨⟨fun r x hx => ?_, root_limits _ _, ?_, ?_⟩, ?_, ?_⟩
  · rw [object?, allocate_objects]
    exact h.objects.get?_insert_of_get? hwf o x r hx
  · rw [allocate_objects]
    exact h.objects.insert_wellFormed o hwf hroom
  · rw [allocate_objects]
    exact h.objects.size_insert_le o
  · rw [object?, allocate_objects]
    exact h.objects.get?_insert_self hwf hroom o
  · refine Option.not_isSome_iff_eq_none.mp fun hold => ?_
    exact (h.objects.insert_advance o hwf hroom).unissued _ List.mem_cons_self
      (hwf.issued_of_contains hold)

end Heap

namespace Act

section Loops

variable {base : Heap} {R : α → β → Prop} {cost : α → Nat} {k : Nat}

end Loops

end Act

open Act (Turns turns_pure turns_heap)

namespace Environment

lemma turns_engineOf : Turns n e (engineOf n : Act σ EngineId) h e h := by
  rintro w hw rfl
  rw [World.modifyEngine_self]
  exact congrArg (·, w) hw.2.2

lemma turns_onHeap (hf : f h = (a, h')) : Turns n e (onHeap n f : Act σ α) h a h' :=
  turns_engineOf.bind (Act.turns_onHeap hf)

lemma turns_heapOf : Turns n e (heapOf n : Act σ Heap) h h h := turns_engineOf.bind turns_heap

end Environment

namespace Heap

lemma keyOf_ofInt (h : Heap) (hi : i < Key.maxIndex) :
    h.keyOf (.ofInt i) = .index (UInt32.ofNat i) := by
  have hmax : i < 2 ^ 32 - 1 := hi
  unfold Value.ofInt
  split
  · rename_i hsmall
    have hint : (Int32.ofInt (i : Int)).toInt = i := Int32.toInt_ofInt_of_le hsmall.1 hsmall.2
    simp [keyOf, hint]
  · have hbits : (i : Int).natAbs < 2 ^ 52 := by omega
    have hfinite := (Binary64.nearest_ofInt (Nat.le_of_lt (Nat.lt_trans hbits (by decide)))).finite
    obtain ⟨hintegral, htrunc⟩ := Binary64.trunc_of_scaled hfinite (Binary64.scaled_ofInt hbits)
    have hbound : (i : Int) < Key.maxIndex := Int.ofNat_lt.mpr hi
    simp [keyOf, hintegral, htrunc, hbound]

lemma lookup_of_foundIn {key : Key} {found : Found} (ho : h.object? r = some o)
    (hfound : h.foundIn o key = some found) : h.lookup r key = found := by
  simp only [lookup, maxPrototypes, lookupFrom, ho, hfound]

end Heap

namespace Heap

structure Differs (h : Heap) (r : ObjectRef) (h' : Heap) : Prop where
  others : ∀ s, s ≠ r → h'.object? s = h.object? s
  limits : h'.limits = h.limits
  shape : h.objects.SameShape h'.objects

namespace Differs

variable {r : ObjectRef}

lemma refl (h : Heap) (r : ObjectRef) : h.Differs r h := ⟨fun _ _ => rfl, rfl, .refl _⟩

lemma trans (hab : h.Differs r h') (hbc : h'.Differs r h'') : h.Differs r h'' where
  others s hs := (hbc.others s hs).trans (hab.others s hs)
  limits := hbc.limits.trans hab.limits
  shape := ⟨hab.shape.free ▸ hbc.shape.free, fun i => (hbc.shape.slots i).trans (hab.shape.slots i)⟩

end Differs

lemma differs_modifyObject (h : Heap) (r : ObjectRef) (f : HeapObject → HeapObject) :
    h.Differs r (h.modifyObject r f) where
  others s hs := by rw [object?_modifyObject, if_neg hs]
  limits := rfl
  shape := Arena.sameShape_modify _ _ _

end Heap

namespace Engine

lemma turns_setElement (v : Value) (ho : h.object? r = some (.ofBody (.array elements)))
    (hi : i < elements.size) (hlimit : elements.size ≤ h.limits.maxArrayLength)
    (hwords : elements.size < 2 ^ 32) :
    ∃ h', Turns n e (setProperty host e r (.ofInt i) v) h (.ok ()) h' ∧ h.Differs r h' ∧
      h'.object? r = some (.ofBody (.array (elements.setIfInBounds i v))) := by
  have halive : h.isAlive r = true := (h.isAlive_iff r).mpr ⟨_, ho⟩
  have hkey : h.keyOf (.ofInt i) = .index (UInt32.ofNat i) :=
    h.keyOf_ofInt (show i < 2 ^ 32 - 1 by omega)
  have hplan : h.storePlan r (.index (UInt32.ofNat i)) = .define := by
    simp [storePlan, Heap.maxPrototypes, storePlanFrom, ho, HeapObject.ofBody,
      HeapObject.own?]
  have hindex : (UInt32.ofNat i).toNat = i := UInt32.toNat_ofNat_of_lt' (show i < 2 ^ 32 by omega)
  have hstore : h.storeOwn r (.index (UInt32.ofNat i)) v =
      some (h.modifyObject r ({ · with body := .array (elements.setIfInBounds i v) })) := by
    have hfree : ¬ h.limits.maxArrayLength ≤ i := by omega
    simp [storeOwn, ho, HeapObject.ofBody, hindex, hfree, Nat.not_le.mpr hi]
  refine ⟨h.modifyObject r ({ · with body := .array (elements.setIfInBounds i v) }),
    turns_heap.bind ?_, h.differs_modifyObject r _, ?_⟩
  · simp only [halive, hkey, hplan]
    refine (Act.turns_onHeap (a := true) ?_).bind (turns_pure _)
    simp only [hstore]
  · rw [Heap.object?_modifyObject, if_pos rfl, ho]
    rfl

end Engine

namespace Environment

lemma turns_fill (host : Host σ) (rest done : List Value)
    (ho : h.object? r =
      some (.ofBody (.array (done ++ List.replicate rest.length Value.undefined).toArray)))
    (hlimit : done.length + rest.length ≤ h.limits.maxArrayLength)
    (hwords : done.length + rest.length < 2 ^ 32) :
    ∃ h', Turns n e (fill host n r done.length rest) h true h' ∧ h.Differs r h' ∧
      h'.object? r = some (.ofBody (.array (done ++ rest).toArray)) := by
  induction rest generalizing h done with
  | nil => exact ⟨h, turns_pure _, .refl h r, by simpa using ho⟩
  | cons value rest ih =>
    simp only [List.length_cons] at ho hlimit hwords
    have hsize : (done ++ List.replicate (rest.length + 1) Value.undefined).toArray.size =
        done.length + (rest.length + 1) := by simp
    have hset : (done ++ List.replicate (rest.length + 1) Value.undefined).toArray.setIfInBounds
        done.length value =
          ((done ++ [value]) ++ List.replicate rest.length Value.undefined).toArray := by
      rw [List.setIfInBounds_toArray, List.set_append_right _ _ (Nat.le_refl _), Nat.sub_self,
        List.replicate_succ, List.set_cons_zero, List.append_assoc, List.singleton_append]
    obtain ⟨h₁, hwrite, hfirst, hwritten⟩ :=
      Engine.turns_setElement (i := done.length) value ho (by omega) (by omega) (by omega)
    rw [hset] at hwritten
    rw [← hfirst.limits] at hlimit
    obtain ⟨h', hfill, hrest, hdone⟩ := ih (done ++ [value]) hwritten
      (by simpa [Nat.add_assoc, Nat.add_comm 1] using hlimit)
      (by simpa [Nat.add_assoc, Nat.add_comm 1] using hwords)
    rw [List.length_append] at hfill
    exact ⟨h', turns_engineOf.bind (hwrite.bind ((turns_pure true).bind hfill)),
      hfirst.trans hrest, by simpa using hdone⟩

lemma turns_arrayOf (host : Host σ) (values : List Value) (hwf : h.WellFormed)
    (hroom : h.objects.slots.size < 2 ^ 32) (hlimit : values.length ≤ h.limits.maxArrayLength)
    (hwords : values.length < 2 ^ 32) :
    ∃ r h', Turns n e (arrayOf host n values) h (some (wrap r)) h' ∧ h.Adds h' 1 ∧
      h.object? r = none ∧ h'.object? r = some (.ofBody (.array values.toArray)) := by
  obtain ⟨empty, hempty⟩ : ∃ empty, empty = HeapObject.ofBody
      (.array ([] ++ List.replicate values.length Value.undefined).toArray) := ⟨_, rfl⟩
  obtain ⟨hadds, hnew, hfresh⟩ := Heap.adds_allocate hwf hroom empty
  have hmade : h.newArray values.length = h.allocate empty := by
    rw [hempty, newArray, Nat.min_eq_left hlimit, List.nil_append, List.toArray_replicate]
  generalize h.allocate empty = made at hadds hnew hfresh hmade
  rw [← hadds.limits] at hlimit
  obtain ⟨h', hfill, hdiffers, hdone⟩ := turns_fill host (n := n) (e := e) values []
    (hempty ▸ hnew) (by simpa using hlimit) (by simpa using hwords)
  have hmake : Turns n e (onHeap n (·.newArray values.length) : Act σ ObjectRef) h made.1 made.2 :=
    turns_onHeap hmade
  refine ⟨made.1, h', hmake.bind (hfill.bind (turns_pure _)), ⟨fun r o ho => ?_, ?_, ?_, ?_⟩, hfresh, hdone⟩
  · have hother : r ≠ made.1 := fun heq => by
      rw [heq, hfresh] at ho
      exact nomatch ho
    rw [hdiffers.others r hother]
    exact hadds.object r o ho
  · exact hdiffers.limits.trans hadds.limits
  · exact hdiffers.shape.wellFormed hadds.wellFormed
  · exact Nat.le_trans (Arena.Progress.of_sameShape hdiffers.shape.symm).size hadds.size

end Environment

end HostBoundary
