import HostBoundary.Proofs.Passages

namespace HostBoundary

variable {buffer handle : Handle} {r : ObjectRef} {o : HeapObject}
  {f : Heap → Option ObjectRef × Heap}

namespace Element

@[simp] lemma length_littleEndian (size n : Nat) : (littleEndian size n).length = size := by
  induction size generalizing n with
  | zero => rfl
  | succ size ih => simp [littleEndian, ih]

@[simp] lemma length_encode (kind : ElementKind) (x : Binary64) :
    (encode kind x).length = kind.size := by
  cases kind <;> simp [encode, narrow, ElementKind.size]

end Element

def TypedArrayView.start (view : TypedArrayView) (i : Nat) : Nat := view.byteOffset + i * view.kind.size

lemma TypedArrayView.stop_le {view : TypedArrayView} {i : Nat} (hi : i < view.length) :
    view.start i + view.kind.size ≤ view.byteOffset + view.length * view.kind.size := by
  have hstep : i * view.kind.size + view.kind.size ≤ view.length * view.kind.size := by
    rw [← Nat.succ_mul]
    exact Nat.mul_le_mul_right _ hi
  unfold start
  omega

namespace Heap

def overwrite (all : Array UInt8) (start : Nat) (bytes : List UInt8) : Array UInt8 :=
  bytes.zipIdx.foldl (fun all (byte, i) => all.setIfInBounds (start + i) byte) all

section Overwrite

variable (all : Array UInt8) (start : Nat) (bytes : List UInt8)

@[simp] lemma size_overwrite : (overwrite all start bytes).size = all.size := size_write _ _ _

lemma getElem?_overwrite (j : Nat) : (overwrite all start bytes)[j]? =
    if start ≤ j ∧ j < start + bytes.length ∧ j < all.size then bytes[j - start]? else all[j]? := by
  -- The bytes that are still to be written are numbered from `k` on.
  have hrest : ∀ (k : Nat) (all : Array UInt8),
      ((bytes.zipIdx k).foldl (fun all (byte, i) => all.setIfInBounds (start + i) byte) all)[j]? =
        if start + k ≤ j ∧ j < start + k + bytes.length ∧ j < all.size then bytes[j - (start + k)]?
        else all[j]? := by
    induction bytes with
    | nil => intro k all; simp; omega
    | cons byte rest ih =>
      intro k all
      rw [List.zipIdx_cons, List.foldl_cons, ih, Array.size_setIfInBounds,
        Array.getElem?_setIfInBounds, List.length_cons]
      rcases Nat.lt_trichotomy j (start + k) with hlt | heq | hgt
      · rw [if_neg (by omega), if_neg (by omega), if_neg (by omega)]
      · subst heq
        by_cases hsize : start + k < all.size <;> simp [hsize]
      · have hnext : j - (start + k) = j - (start + (k + 1)) + 1 := by omega
        rw [hnext, List.getElem?_cons_succ, if_neg (show ¬ start + k = j by omega)]
        exact if_congr (by omega) rfl rfl
  exact hrest 0 all

variable {all start bytes}

lemma extract_overwrite_self (hfits : start + bytes.length ≤ all.size) :
    ((overwrite all start bytes).extract start (start + bytes.length)).toList = bytes := by
  refine List.ext_getElem? fun i => ?_
  rw [Array.getElem?_toList, Array.getElem?_extract, size_overwrite, getElem?_overwrite]
  by_cases hi : i < bytes.length
  · rw [if_pos (by omega), if_pos (by omega), Nat.add_sub_cancel_left]
  · rw [if_neg (by omega), List.getElem?_eq_none (by omega)]

lemma extract_overwrite_of_disjoint {a b : Nat} (hd : b ≤ start ∨ start + bytes.length ≤ a) :
    (overwrite all start bytes).extract a b = all.extract a b := by
  refine Array.ext_getElem? fun i => ?_
  rw [Array.getElem?_extract, Array.getElem?_extract, size_overwrite, getElem?_overwrite]
  split
  · exact if_neg (by omega)
  · rfl

end Overwrite

variable {h : Heap}

section Elements

variable {view : TypedArrayView} {bytes : Array UInt8} {i : Nat}

lemma elementBytes_of_contents (hc : h.contents? view.buffer = some bytes)
    (hstop : view.start i + view.kind.size ≤ bytes.size) : h.elementBytes view i =
      some (bytes.extract (view.start i) (view.start i + view.kind.size)).toList := by
  obtain ⟨o, backing, ho, hb, rfl⟩ := (contents?_eq_some_iff h _ _).mp hc
  have hstop' : view.byteOffset + i * view.kind.size + view.kind.size ≤ backing.bytes.size := hstop
  simp [elementBytes, body?, ho, hb, hstop', TypedArrayView.start]

lemma bytes_withBytes (backing : Backing) (bytes : Array UInt8) :
    (backing.withBytes bytes).bytes = bytes := by
  cases backing <;> rfl

-- A write to an element that there is changes the bytes of the buffer there.
lemma object?_storeElement {backing : Backing} (value : Value)
    (ho : h.object? view.buffer = some o) (hb : o.body = .arrayBuffer backing)
    (hi : i < view.length) (hstop : view.start i + view.kind.size ≤ backing.bytes.size) :
    (h.storeElement view i value).object? view.buffer =
      some { o with body := .arrayBuffer (backing.withBytes
        (overwrite backing.bytes (view.start i) (Element.encode view.kind value.toNumber))) } := by
  have hstop' : view.byteOffset + i * view.kind.size + view.kind.size ≤ backing.bytes.size := hstop
  rw [storeElement, if_neg (Nat.not_le.mpr hi), object?_modifyObject, if_pos rfl, ho]
  simp only [Option.map_some, hb, if_pos hstop']
  rfl

lemma contents?_storeElement (value : Value) (hc : h.contents? view.buffer = some bytes)
    (hi : i < view.length) (hstop : view.start i + view.kind.size ≤ bytes.size) :
    (h.storeElement view i value).contents? view.buffer =
      some (overwrite bytes (view.start i) (Element.encode view.kind value.toNumber)) := by
  obtain ⟨o, backing, ho, hb, rfl⟩ := (contents?_eq_some_iff h _ _).mp hc
  exact (contents?_eq_some_iff _ _ _).mpr ⟨_, _, object?_storeElement value ho hb hi hstop, rfl,
    bytes_withBytes _ _⟩

end Elements

def Addressable (h : Heap) (buffer : Handle) : Prop :=
  ∀ r bytes, h.denoted? buffer = some r → h.contents? r = some bytes → bytes.size < 2 ^ 64

def Spans (h : Heap) (buffer : Handle) (stop : Nat) : Prop :=
  ∃ r bytes, h.denoted? buffer = some r ∧ h.contents? r = some bytes ∧ stop ≤ bytes.size

@[simp] lemma contents?_lent (rs : List ObjectRef) (r : ObjectRef) :
    (h.lent rs).contents? r = h.contents? r := by
  simp [contents?, body?, object?]

@[simp] lemma typedArray?_lent (rs : List ObjectRef) (r : ObjectRef) :
    (h.lent rs).typedArray? r = h.typedArray? r := by
  simp [typedArray?, body?, object?]

lemma fits_typedArray_iff (hwords : h.Addressable buffer)
    (hr : h.denoted? buffer = some r) (kind : ElementKind) (offset count : Nat) :
    TypedArrayView.Fits h ⟨kind, r, offset * kind.size, count⟩ ↔
      h.Spans buffer ((offset + count) * kind.size) := by
  have hstop : (offset + count) * kind.size = offset * kind.size + count * kind.size :=
    Nat.add_mul ..
  refine ⟨fun ⟨bytes, hc, _, hrange, _⟩ => ⟨r, bytes, hr, hc, hstop ▸ hrange⟩, ?_⟩
  rintro ⟨r', bytes, hr', hc, hrange⟩
  obtain rfl : r' = r := Option.some.inj (hr'.symm.trans hr)
  have hword := hwords _ _ hr hc
  refine ⟨bytes, hc, Nat.mul_mod_left _ _, hstop ▸ hrange, ?_⟩
  rw [hstop] at hrange
  exact Nat.lt_of_le_of_lt hrange hword

lemma fits_dataView_iff (hwords : h.Addressable buffer)
    (hr : h.denoted? buffer = some r) (offset length : Nat) :
    DataView.Fits h ⟨r, offset, length⟩ ↔ h.Spans buffer (offset + length) := by
  refine ⟨fun ⟨bytes, hc, hrange, _⟩ => ⟨r, bytes, hr, hc, hrange⟩, ?_⟩
  rintro ⟨r', bytes, hr', hc, hrange⟩
  obtain rfl : r' = r := Option.some.inj (hr'.symm.trans hr)
  exact ⟨bytes, hc, hrange, Nat.lt_of_le_of_lt hrange (hwords _ _ hr hc)⟩

end Heap

variable {σ τ : Type} {host : Host σ} {diary : σ → List (World Unit)} {n : EnvironmentId}

namespace Environment

variable {w : World τ}

lemma resolve_apply (handle : Handle) (w : World τ) :
    resolve n handle w =
      ((w.heapOf n).denoted? handle, w.lend n ((w.heapOf n).lendings handle)) := by
  change (((w.heapOf n).resolveHandle handle).1, w.setHeap (w.environment n).engine
    ((w.heapOf n).resolveHandle handle).2) = _
  rw [Heap.resolveHandle_eq]
  rfl

lemma hasEngine_of_denoted
    (hr : (w.heapOf n).denoted? handle = some r) : w.HasEngine (w.environment n).engine := by
  by_contra he
  have hnone : ∀ r, (default : Engine).heap.isAlive r = false := fun _ => rfl
  rw [World.heapOf, World.engine_of_missing he] at hr
  cases handle <;> simp [Heap.denoted?, hnone] at hr

lemma allocated_lent
    {rs : List ObjectRef} (hr : (w.heapOf n).denoted? handle = some r)
    (hf : f ((w.heapOf n).lent rs) =
      (some (((w.heapOf n).lent rs).allocate o).1, (((w.heapOf n).lent rs).allocate o).2))
    (hwf : (w.heapOf n).WellFormed) (hroom : (w.heapOf n).Roomy) :
    ∃ v, (allocated? n f (w.lend n rs)).1 = some (wrap v) ∧
      ((allocated? n f (w.lend n rs)).2.engine (w.environment n).engine).heap.object? v = some o := by
  have he : (w.lend n rs).HasEngine (w.environment n).engine :=
    (World.hasEngine_modifyEngine ..).mpr (hasEngine_of_denoted hr)
  have hheap := w.heapOf_lend n rs
  have hobjects := Heap.objects_lent (w.heapOf n) rs
  obtain ⟨-, hself, -⟩ := Heap.adds_allocate (h := (w.heapOf n).lent rs) (by rwa [Heap.WellFormed, hobjects])
    (hobjects ▸ hroom) o
  have hdone : allocated? n f (w.lend n rs) = (some (wrap (((w.heapOf n).lent rs).allocate o).1),
      (w.lend n rs).setHeap (w.environment n).engine
        (((w.heapOf n).lent rs).allocate o).2) := by
    change ((f ((w.lend n rs).heapOf n)).1.map wrap,
      (w.lend n rs).setHeap (w.environment n).engine
        (f ((w.lend n rs).heapOf n)).2) = _
    rw [hheap, hf]
    rfl
  rw [hdone]
  refine ⟨_, rfl, ?_⟩
  rw [World.heap_modifyEngine he]
  exact hself

lemma allocated_of_none (w : World τ)
    (hf : (f (w.heapOf n)).1 = none) : (allocated? n f w).1 = none := by
  change (f (w.heapOf n)).1.map wrap = none
  rw [hf]
  rfl

lemma made_iff {found : Option ObjectRef} {made : Option Handle} {possible : Prop}
    {fits : ObjectRef → Prop} {shown : ObjectRef → ObjectRef → Prop}
    (hfits : ∀ r, found = some r → (fits r ↔ possible)) (hfound : possible → ∃ r, found = some r)
    (hmade : ∀ r, found = some r → fits r → ∃ v, made = some (wrap v) ∧ shown r v)
    (hnone : (∀ r, found = some r → ¬ fits r) → made = none) :
    ((∃ handle, made = some handle) ↔ possible) ∧
      ∀ handle, made = some handle → ∃ r v, found = some r ∧ handle = wrap v ∧ shown r v := by
  by_cases hp : possible
  · obtain ⟨r, hr⟩ := hfound hp
    obtain ⟨v, hv, hshown⟩ := hmade r hr ((hfits r hr).mpr hp)
    refine ⟨iff_of_true ⟨_, hv⟩ hp, fun handle hhandle => ⟨r, v, hr, ?_, hshown⟩⟩
    exact Option.some.inj (hhandle.symm.trans hv)
  · have hgone := hnone fun r hr hf => hp ((hfits r hr).mp hf)
    refine ⟨iff_of_false (by simp [hgone]) hp, fun handle hhandle => ?_⟩
    exact absurd (hgone.symm.trans hhandle) (by simp)

section Making

variable {buffer : Handle} {kind : ElementKind} {offset count : Nat}

lemma newTypedArrayOnBuffer_of_not_fits
    (hf : ∀ r, (w.heapOf n).denoted? buffer = some r →
      ¬ TypedArrayView.Fits (w.heapOf n) ⟨kind, r, offset * kind.size, count⟩) :
    (newTypedArrayOnBuffer n kind buffer offset count w).1 = none := by
  simp only [newTypedArrayOnBuffer, Engine.bind_apply, resolve_apply]
  cases hr : (w.heapOf n).denoted? buffer with
  | none => rfl
  | some r =>
    cases hword : Heap.word? (offset * kind.size) with
    | none => rfl
    | some byteOffset =>
      obtain rfl : offset * kind.size = byteOffset :=
        Option.some.inj (Option.ite_none_right_eq_some.mp hword).2
      refine allocated_of_none _ ?_
      rw [World.heapOf_lend]
      have hlent : ¬ TypedArrayView.Fits ((w.heapOf n).lent ((w.heapOf n).lendings buffer))
          ⟨kind, r, offset * kind.size, count⟩ := by
        simpa only [TypedArrayView.Fits, Heap.contents?_lent] using hf r hr
      exact congrArg Prod.fst (Heap.newTypedArray_of_not_fits hlent)

lemma newDataView_of_not_fits
    (hf : ∀ r, (w.heapOf n).denoted? buffer = some r →
      ¬ DataView.Fits (w.heapOf n) ⟨r, offset, count⟩) :
    (newDataView n buffer offset count w).1 = none := by
  simp only [newDataView, Engine.bind_apply, resolve_apply]
  cases hr : (w.heapOf n).denoted? buffer with
  | none => rfl
  | some r =>
    refine allocated_of_none _ ?_
    rw [World.heapOf_lend]
    have hlent : ¬ DataView.Fits ((w.heapOf n).lent ((w.heapOf n).lendings buffer))
        ⟨r, offset, count⟩ := by
      simpa only [DataView.Fits, Heap.contents?_lent] using hf r hr
    exact congrArg Prod.fst (Heap.newDataView_of_not_fits hlent)

variable {r : ObjectRef} (hr : (w.heapOf n).denoted? buffer = some r)
  (hwf : (w.heapOf n).WellFormed) (hroom : (w.heapOf n).Roomy)

include hr hwf hroom

lemma newTypedArrayOnBuffer_of_fits
    (hf : TypedArrayView.Fits (w.heapOf n) ⟨kind, r, offset * kind.size, count⟩) :
    ∃ v, (newTypedArrayOnBuffer n kind buffer offset count w).1 = some (wrap v) ∧
      ((newTypedArrayOnBuffer n kind buffer offset count w).2.engine
        (w.environment n).engine).heap.typedArray? v =
          some ⟨kind, r, offset * kind.size, count⟩ := by
  have hword : Heap.word? (offset * kind.size) = some (offset * kind.size) := by
    obtain ⟨-, -, -, -, hend⟩ := hf
    dsimp only at hend
    exact if_pos (by omega)
  have hlent : TypedArrayView.Fits ((w.heapOf n).lent ((w.heapOf n).lendings buffer))
      ⟨kind, r, offset * kind.size, count⟩ := by
    simpa only [TypedArrayView.Fits, Heap.contents?_lent] using hf
  obtain ⟨v, hv, ho⟩ := allocated_lent
    (f := (·.newTypedArray kind r (offset * kind.size) count)) hr
    (Heap.newTypedArray_of_fits hlent) hwf hroom
  simp only [newTypedArrayOnBuffer, Engine.bind_apply, resolve_apply, hr, hword]
  exact ⟨v, hv, (Heap.typedArray?_eq_some_iff _ _ _).mpr ⟨_, ho, rfl⟩⟩

lemma newDataView_of_fits (hf : DataView.Fits (w.heapOf n) ⟨r, offset, count⟩) :
    ∃ v, (newDataView n buffer offset count w).1 = some (wrap v) ∧
      ((newDataView n buffer offset count w).2.engine (w.environment n).engine).heap.dataView? v =
        some ⟨r, offset, count⟩ := by
  have hlent : DataView.Fits ((w.heapOf n).lent ((w.heapOf n).lendings buffer))
      ⟨r, offset, count⟩ := by
    simpa only [DataView.Fits, Heap.contents?_lent] using hf
  obtain ⟨v, hv, ho⟩ := allocated_lent (f := (·.newDataView r offset count)) hr
    (Heap.newDataView_of_fits hlent) hwf hroom
  simp only [newDataView, Engine.bind_apply, resolve_apply, hr]
  exact ⟨v, hv, (Heap.dataView?_eq_some_iff _ _ _).mpr ⟨_, ho, rfl⟩⟩

end Making

section Pointer

variable {handle : Handle} {a : ObjectRef} {view : TypedArrayView} {i : Nat}

lemma inspect_of_denoted {α : Type} (f : Heap → ObjectRef → Option α)
    (ha : (w.heapOf n).denoted? handle = some a) :
    (inspect n handle f w).1 = f ((w.heapOf n).lent ((w.heapOf n).lendings handle)) a := by
  have hheap := w.heapOf_lend n ((w.heapOf n).lendings handle)
  simp only [inspect, Engine.bind_apply, resolve_apply, ha, ← hheap]
  rfl

lemma typedArrayPointer_of_fits (ha : (w.heapOf n).denoted? handle = some a)
    (hview : (w.heapOf n).typedArray? a = some view) (hf : view.Fits (w.heapOf n))
    (hi : i < view.length) : (typedArrayPointer n handle i w).1 = some (view.start i) := by
  obtain ⟨bytes, hc, -⟩ := hf
  have hview' := (Heap.typedArray?_lent (h := w.heapOf n) ((w.heapOf n).lendings handle) a).trans hview
  have hc' := (Heap.contents?_lent (h := w.heapOf n) ((w.heapOf n).lendings handle) _).trans hc
  rw [typedArrayPointer, inspect_of_denoted _ ha]
  simp only [hview', hc', Option.bind_eq_bind, Option.bind_some, if_neg (Nat.not_le.mpr hi)]
  rfl

end Pointer

end Environment

namespace TypedArrayView.Fits

variable {h : Heap} {view : TypedArrayView} {i : Nat}

lemma element (hf : view.Fits h) (hi : i < view.length) :
    (∃ slice, h.elementBytes view i = some slice ∧ slice.length = view.kind.size) ∧
      (∀ value, (h.storeElement view i value).elementBytes view i =
        some (Element.encode view.kind value.toNumber)) ∧
      (Heap.word? (i * view.kind.size)).bind (fun size => Heap.word? (view.byteOffset + size)) =
        some (view.start i) := by
  obtain ⟨bytes, hc, -, hrange, hword⟩ := hf
  have hstop := view.stop_le hi
  have hinside : view.start i + view.kind.size ≤ bytes.size := Nat.le_trans hstop hrange
  refine ⟨⟨_, Heap.elementBytes_of_contents hc hinside, ?_⟩, fun value => ?_, ?_⟩
  · simp
    omega
  · have hc' := Heap.contents?_storeElement value hc hi hinside
    have hlength := Element.length_encode view.kind value.toNumber
    rw [Heap.elementBytes_of_contents hc' (by rwa [Heap.size_overwrite]), ← hlength,
      Heap.extract_overwrite_self (hlength ▸ hinside)]
  · have hsize : i * view.kind.size < 2 ^ 64 := by
      unfold start at hstop
      omega
    rw [Heap.word?, if_pos hsize, Option.bind_some, Heap.word?]
    exact if_pos (by unfold start at hstop; omega)

end TypedArrayView.Fits

-- A view can be made over part of a buffer exactly if the part is there, and every view that there
-- is lies in a buffer that is there, with each of its elements.
theorem views_stay_in_buffers (hh : host.Heedful diary nowhere) (w : World σ)
    (hw : w.Charted diary nowhere host) (m : World τ) (hm : m.seen ∈ w.moments diary)
    (e : EngineId) (he : m.HasEngine e) (hroom : (m.engine e).heap.Roomy) :
    (∀ n buffer, (m.environment n).engine = e → (m.engine e).heap.Addressable buffer →
      (∀ kind offset count,
        ((∃ handle, (Environment.newTypedArrayOnBuffer n kind buffer offset count m).1 =
            some handle) ↔ (m.engine e).heap.Spans buffer ((offset + count) * kind.size)) ∧
        ∀ handle, (Environment.newTypedArrayOnBuffer n kind buffer offset count m).1 = some handle →
          ∃ r v, (m.engine e).heap.denoted? buffer = some r ∧ handle = Environment.wrap v ∧
            ((Environment.newTypedArrayOnBuffer n kind buffer offset count m).2.engine
              e).heap.typedArray? v = some ⟨kind, r, offset * kind.size, count⟩) ∧
      ∀ offset length,
        ((∃ handle, (Environment.newDataView n buffer offset length m).1 = some handle) ↔
          (m.engine e).heap.Spans buffer (offset + length)) ∧
        ∀ handle, (Environment.newDataView n buffer offset length m).1 = some handle →
          ∃ r v, (m.engine e).heap.denoted? buffer = some r ∧ handle = Environment.wrap v ∧
            ((Environment.newDataView n buffer offset length m).2.engine e).heap.dataView? v =
              some ⟨r, offset, length⟩) ∧
    (∀ a view, (m.engine e).heap.typedArray? a = some view →
      (∃ bytes, (m.engine e).heap.contents? view.buffer = some bytes ∧
        view.byteOffset + view.length * view.kind.size ≤ bytes.size) ∧
      ∀ i < view.length,
        (∃ slice, (m.engine e).heap.elementBytes view i = some slice ∧
          slice.length = view.kind.size) ∧
        (∀ value, ((m.engine e).heap.storeElement view i value).elementBytes view i =
          some (Element.encode view.kind value.toNumber)) ∧
        (∀ n handle, (m.environment n).engine = e → (m.engine e).heap.denoted? handle = some a →
          (Environment.typedArrayPointer n handle i m).1 = some (view.start i)) ∧
        (Heap.word? (i * view.kind.size)).bind (fun size => Heap.word? (view.byteOffset + size)) =
          some (view.start i)) ∧
    ∀ d view, (m.engine e).heap.dataView? d = some view →
      ∃ bytes, (m.engine e).heap.contents? view.buffer = some bytes ∧
        view.byteOffset + view.byteLength ≤ bytes.size := by
  obtain ⟨hwf, hshape⟩ := hw.shapely hh hm he hroom
  refine ⟨?_, fun a view hview => ?_, fun d view hview => ?_⟩
  · rintro n buffer rfl hwords
    have hfound : ∀ {stop : Nat}, (m.heapOf n).Spans buffer stop →
        ∃ r, (m.heapOf n).denoted? buffer = some r := fun ⟨r, _, hr, _⟩ => ⟨r, hr⟩
    refine ⟨fun kind offset count => ?_, fun offset length => ?_⟩
    · exact Environment.made_iff (fun r hr => Heap.fits_typedArray_iff hwords hr kind offset count)
        hfound (fun r hr => Environment.newTypedArrayOnBuffer_of_fits hr hwf hroom)
        Environment.newTypedArrayOnBuffer_of_not_fits
    · exact Environment.made_iff (fun r hr => Heap.fits_dataView_iff hwords hr offset length)
        hfound (fun r hr => Environment.newDataView_of_fits hr hwf hroom)
        Environment.newDataView_of_not_fits
  · have hf := hshape.typedArray a view hview
    refine ⟨?_, fun i hi => ?_⟩
    · obtain ⟨bytes, hc, -, hrange, -⟩ := hf
      exact ⟨bytes, hc, hrange⟩
    · obtain ⟨hread, hwrite, hword⟩ := hf.element hi
      refine ⟨hread, hwrite, ?_, hword⟩
      rintro n handle rfl ha
      exact Environment.typedArrayPointer_of_fits ha hview hf hi
  · obtain ⟨bytes, hc, hrange, -⟩ := hshape.dataView d view hview
    exact ⟨bytes, hc, hrange⟩

def framed : World Unit :=
  World.after Host.inert { host := () } [.newEngine {}, .attach ⟨0⟩,
    .operate ⟨0⟩ (.newArrayBuffer 8),
    .operate ⟨0⟩ (.newTypedArrayOnBuffer .uint16 (.transient (.first 1)) 1 3)]

lemma framed_charted : framed.Charted (fun _ => []) nowhere Host.inert :=
  World.charted_after Host.inert rfl _

lemma framed_buffer : (framed.engine ⟨0⟩).heap.denoted? (.transient (.first 1)) = some (.first 1) ∧
    (framed.engine ⟨0⟩).heap.contents? (.first 1) = some (Array.replicate 8 0) := by
  constructor <;> decide +kernel

lemma framed_addressable : (framed.engine ⟨0⟩).heap.Addressable (.transient (.first 1)) := by
  intro r bytes hr hc
  obtain rfl := Option.some.inj (hr.symm.trans framed_buffer.1)
  obtain rfl := Option.some.inj (hc.symm.trans framed_buffer.2)
  decide

lemma framed_roomy : (framed.engine ⟨0⟩).heap.Roomy :=
  show _ < _ by decide +kernel

lemma framed_view :
    (framed.engine ⟨0⟩).heap.typedArray? (.first 2) = some ⟨.uint16, .first 1, 2, 3⟩ := by
  decide +kernel

theorem views_stay_in_buffers_framed :
    (framed.engine ⟨0⟩).heap.typedArray? (.first 2) = some ⟨.uint16, .first 1, 2, 3⟩ ∧
    (∃ handle, (Environment.newTypedArrayOnBuffer ⟨0⟩ .float64 (.transient (.first 1)) 0 1
      framed).1 = some handle) ∧
    (¬ ∃ handle, (Environment.newDataView ⟨0⟩ (.transient (.first 1)) 1 8 framed).1 = some handle) ∧
    (Environment.typedArrayPointer ⟨0⟩ (.transient (.first 2)) 2 framed).1 = some 6 := by
  obtain ⟨hmake, hall, -⟩ := views_stay_in_buffers Host.inert_heedful framed framed_charted framed
    (by simp [World.moments]) ⟨0⟩ (by decide +kernel) framed_roomy
  obtain ⟨htyped, hdata⟩ := hmake ⟨0⟩ (.transient (.first 1)) (by decide +kernel) framed_addressable
  refine ⟨framed_view, (htyped .float64 0 1).1.mpr ⟨_, _, framed_buffer.1, framed_buffer.2, by decide⟩,
    fun hmade => ?_, ?_⟩
  · obtain ⟨r, bytes, hr, hc, hstop⟩ := (hdata 1 8).1.mp hmade
    obtain rfl := Option.some.inj (hr.symm.trans framed_buffer.1)
    obtain rfl := Option.some.inj (hc.symm.trans framed_buffer.2)
    exact absurd hstop (by decide)
  · exact ((hall _ _ framed_view).2 2 (by decide)).2.2.1 ⟨0⟩ _ (by decide +kernel)
      (by decide +kernel)

end HostBoundary
