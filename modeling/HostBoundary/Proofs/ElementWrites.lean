import HostBoundary.Proofs.PropertyMap
import HostBoundary.Proofs.Views

namespace HostBoundary

variable {r : ObjectRef} {o : HeapObject}

namespace Heap

variable {h : Heap} {a : ObjectRef} {view : TypedArrayView} {i : UInt32}

lemma storePlan_of_tidy (ho : h.object? r = some o) (ht : o.Tidy) (hne : o.body ≠ .plain)
    (key : Key) : h.storePlan r key = .define :=
  storePlan_of_open ho (ht.prototype hne) (ht.accessors hne key)

lemma storeOwn_of_typedArray (hview : h.typedArray? a = some view) (value : Value) :
    h.storeOwn a (.index i) value = some (h.storeElement view i.toNat value) := by
  obtain ⟨o, ho, hb⟩ := (typedArray?_eq_some_iff h a view).mp hview
  simp only [storeOwn, ho, hb]

lemma foundIn_of_typedArray (hb : o.body = .typedArray view) :
    (view.length ≤ i.toNat → h.foundIn o (.index i) = some (.value .undefined)) ∧
      ∀ slice, i.toNat < view.length → h.elementBytes view i.toNat = some slice →
        h.foundIn o (.index i) = some (.value (Element.decode view.kind slice)) := by
  refine ⟨fun hi => ?_, fun slice hi hslice => ?_⟩
  · simp only [foundIn, computed?, hb, if_pos hi]
  · simp only [foundIn, computed?, hb, if_neg (Nat.not_le.mpr hi), hslice, Option.map_some]

lemma object?_storeElement_ne (hr : r ≠ view.buffer) (k : Nat) (value : Value) :
    (h.storeElement view k value).object? r = h.object? r := by
  unfold storeElement
  split
  · rfl
  · rw [object?_modifyObject, if_neg hr]

lemma storeElement_eq (k : Nat) (value : Value) :
    h.storeElement view k value = { h with objects := (h.storeElement view k value).objects } := by
  unfold storeElement
  split <;> rfl

lemma typedArray?_storeElement {b : ObjectRef} (hc : h.contents? view.buffer = some bytes)
    (hb : h.typedArray? b = some other) (k : Nat) (value : Value) :
    (h.storeElement view k value).typedArray? b = some other := by
  have hne : b ≠ view.buffer := by
    rintro rfl
    obtain ⟨o, ho, hbody⟩ := (typedArray?_eq_some_iff h _ _).mp hb
    obtain ⟨o', backing, ho', hbody', -⟩ := (contents?_eq_some_iff h _ _).mp hc
    obtain rfl := Option.some.inj (ho.symm.trans ho')
    exact absurd (hbody.symm.trans hbody') (by simp)
  obtain ⟨o, ho, hbody⟩ := (typedArray?_eq_some_iff h _ _).mp hb
  exact (typedArray?_eq_some_iff _ _ _).mpr ⟨o, (object?_storeElement_ne hne k value).trans ho, hbody⟩

variable {other : TypedArrayView} {bytes : Array UInt8} {k j : Nat}

lemma stop_le_of_fits (hf : other.Fits h) (hc : h.contents? view.buffer = some bytes)
    (hbuffer : other.buffer = view.buffer) (hj : j < other.length) :
    other.start j + other.kind.size ≤ bytes.size := by
  obtain ⟨bytes', hc', -, hrange, -⟩ := hf
  rw [hbuffer] at hc'
  obtain rfl := Option.some.inj (hc'.symm.trans hc)
  exact Nat.le_trans (TypedArrayView.stop_le hj) hrange

-- Over another buffer, or another part of the same one, an element keeps its bytes.
lemma elementBytes_storeElement_of_disjoint (value : Value)
    (hc : h.contents? view.buffer = some bytes) (hk : k < view.length)
    (hstop : view.start k + view.kind.size ≤ bytes.size) (hf : other.Fits h) (hj : j < other.length)
    (hd : other.buffer ≠ view.buffer ∨ other.start j + other.kind.size ≤ view.start k ∨
      view.start k + view.kind.size ≤ other.start j) :
    (h.storeElement view k value).elementBytes other j = h.elementBytes other j := by
  by_cases hbuffer : other.buffer = view.buffer
  · have hin := stop_le_of_fits hf hc hbuffer hj
    have hc' := contents?_storeElement value hc hk hstop
    rw [← hbuffer] at hc hc'
    rw [elementBytes_of_contents hc hin, elementBytes_of_contents hc' (by rwa [size_overwrite]),
      extract_overwrite_of_disjoint]
    rw [Element.length_encode]
    exact hd.resolve_left (by simp [hbuffer])
  · simp only [elementBytes, body?, object?_storeElement_ne hbuffer]

-- The number at one place of a view was replaced: what the buffer held and holds now, and that all
-- else is as it was.
structure Replaced (h : Heap) (view : TypedArrayView) (k : Nat) (x : Binary64)
    (bytes bytes' : Array UInt8) (h' : Heap) : Prop where
  before : h.contents? view.buffer = some bytes
  after : h'.contents? view.buffer = some bytes'
  inside : (bytes'.extract (view.start k) (view.start k + view.kind.size)).toList =
    Element.write view.kind
      (bytes.extract (view.start k) (view.start k + view.kind.size)).toList x
  outside : ∀ j, j < view.start k ∨ view.start k + view.kind.size ≤ j → bytes'[j]? = bytes[j]?
  buffer : ∃ o backing, h.object? view.buffer = some o ∧ o.body = .arrayBuffer backing ∧
    h'.object? view.buffer = some { o with body := .arrayBuffer (backing.withBytes bytes') }
  others : ∀ r, r ≠ view.buffer → h'.object? r = h.object? r
  rest : h' = { h with objects := h'.objects }

lemma replaced_storeElement (value : Value) (hc : h.contents? view.buffer = some bytes)
    (hk : k < view.length) (hstop : view.start k + view.kind.size ≤ bytes.size) :
    h.Replaced view k value.toNumber bytes
      (overwrite bytes (view.start k) (Element.encode view.kind value.toNumber))
      (h.storeElement view k value) where
  before := hc
  after := contents?_storeElement value hc hk hstop
  inside := by
    have hlength := Element.length_encode view.kind value.toNumber
    have hrest : ((bytes.extract (view.start k) (view.start k + view.kind.size)).toList).drop
        view.kind.size = [] := List.drop_eq_nil_of_le (by simp)
    rw [Element.write, hrest, List.append_nil]
    nth_rewrite 1 [← hlength]
    exact extract_overwrite_self (hlength ▸ hstop)
  outside j hj := by
    rw [getElem?_overwrite, Element.length_encode]
    exact if_neg (by omega)
  buffer := by
    obtain ⟨o, backing, ho, hb, rfl⟩ := (contents?_eq_some_iff h _ _).mp hc
    exact ⟨o, backing, ho, hb, object?_storeElement value ho hb hk hstop⟩
  others r hr := object?_storeElement_ne hr k value
  rest := storeElement_eq k value

end Heap

variable {σ τ : Type} {host : Host σ} {diary : σ → List (World Unit)}

section Reads

variable {w : World τ} {handlers : Host τ} {e : EngineId} {a : ObjectRef} {view : TypedArrayView}
  {i : UInt32}

lemma Engine.reads_of_foundIn {v : Value} (ho : (w.engine e).heap.object? a = some o)
    (hv : (w.engine e).heap.foundIn o (.index i) = some (.value v)) :
    Reads handlers w e a (.index i) v :=
  reads_of_answer (Heap.isAlive_of_object? _ a o ho) (by rw [Heap.lookup_of_foundIn ho hv]; rfl)

lemma Engine.reads_element {slice : List UInt8}
    (hview : (w.engine e).heap.typedArray? a = some view) (hi : i.toNat < view.length)
    (hslice : (w.engine e).heap.elementBytes view i.toNat = some slice) :
    Reads handlers w e a (.index i) (Element.decode view.kind slice) := by
  obtain ⟨o, ho, hb⟩ := (Heap.typedArray?_eq_some_iff _ a view).mp hview
  exact reads_of_foundIn ho ((Heap.foundIn_of_typedArray hb).2 slice hi hslice)

end Reads

-- A write to an index of a typed array succeeds and replaces the bytes of that one element, if it
-- is there, by those of the number.
theorem element_writes_touch_one_element (hh : host.Heedful diary nowhere) (w : World σ)
    (hw : w.Charted diary nowhere host) (handlers : Host τ) (m : World τ)
    (hm : m.seen ∈ w.moments diary) (e : EngineId) (he : m.HasEngine e)
    (hroom : (m.engine e).heap.Roomy) (a : ObjectRef) (view : TypedArrayView)
    (hview : (m.engine e).heap.typedArray? a = some view) (i : UInt32) (key v : Value)
    (hkey : (m.engine e).heap.keyOf key = .index i) :
    ∃ m', Engine.setProperty handlers e a key v m = (.ok (), m') ∧
      (view.length ≤ i.toNat → m' = m ∧ Engine.Reads handlers m' e a (.index i) .undefined) ∧
      (i.toNat < view.length → ∃ bytes bytes',
        (m.engine e).heap.Replaced view i.toNat v.toNumber bytes bytes' (m'.engine e).heap ∧
        m' = m.modifyEngine e ({ · with heap := (m'.engine e).heap }) ∧
        Engine.Reads handlers m' e a (.index i) (Element.decode view.kind (Element.write view.kind
          (bytes.extract (view.start i.toNat) (view.start i.toNat + view.kind.size)).toList
          v.toNumber)) ∧
        ∀ b other (k : UInt32), (m.engine e).heap.typedArray? b = some other →
          k.toNat < other.length →
          (other.buffer ≠ view.buffer ∨
              other.start k.toNat + other.kind.size ≤ view.start i.toNat ∨
              view.start i.toNat + view.kind.size ≤ other.start k.toNat →
            ∃ x, Engine.Reads handlers m e b (.index k) x ∧
              Engine.Reads handlers m' e b (.index k) x) ∧
          (other.buffer = view.buffer → Engine.Reads handlers m' e b (.index k) (Element.decode other.kind
            (bytes'.extract (other.start k.toNat)
              (other.start k.toNat + other.kind.size)).toList))) := by
  obtain ⟨-, hshape⟩ := hw.shapely hh hm he hroom
  replace hshape : (m.engine e).heap.Shapely := hshape
  obtain ⟨o, ho, hb⟩ := (Heap.typedArray?_eq_some_iff _ a view).mp hview
  have hplan := Heap.storePlan_of_tidy ho (hshape.tidy a o ho) (by simp [hb]) (.index i)
  have hstore := Heap.storeOwn_of_typedArray (i := i) hview v
  rw [← hkey] at hplan hstore
  have hset : Engine.setProperty handlers e a key v m = _ :=
    Engine.setProperty_of_stored (Heap.isAlive_of_object? _ a o ho) hplan hstore
  have hheap : ((m.modifyEngine e ({ · with
      heap := (m.engine e).heap.storeElement view i.toNat v })).engine e).heap =
        (m.engine e).heap.storeElement view i.toNat v := by
    rw [World.heap_modifyEngine he]
  generalize hm' : m.modifyEngine e ({ · with
    heap := (m.engine e).heap.storeElement view i.toNat v }) = m' at hset hheap
  refine ⟨m', hset, fun hi => ?_, fun hi => ?_⟩
  · have hsame : (m.engine e).heap.storeElement view i.toNat v = (m.engine e).heap := if_pos hi
    rw [hsame, World.modifyEngine_self] at hm'
    subst hm'
    exact ⟨rfl, Engine.reads_of_foundIn ho ((Heap.foundIn_of_typedArray hb).1 hi)⟩
  · have hfits := hshape.typedArray a view hview
    obtain ⟨bytes, hc, -⟩ := hshape.typedArray a view hview
    have hstop := Heap.stop_le_of_fits hfits hc rfl hi
    have hwritten := Heap.replaced_storeElement v hc hi hstop
    have hkept := fun b other (hother : (m.engine e).heap.typedArray? b = some other) =>
      Heap.typedArray?_storeElement hc hother i.toNat v
    rw [← hheap] at hwritten hkept
    -- Every element over the buffer is read in what the buffer holds now.
    have hread : ∀ b other (k : UInt32), (m.engine e).heap.typedArray? b = some other →
        k.toNat < other.length → other.buffer = view.buffer → Engine.Reads handlers m' e b (.index k) _ :=
      fun b other k hother hk hbuffer => by
        have hin := Heap.stop_le_of_fits (hshape.typedArray b other hother) hc hbuffer hk
        exact Engine.reads_element (hkept b other hother) hk (Heap.elementBytes_of_contents
          (hbuffer ▸ hwritten.after) (by rwa [Heap.size_overwrite]))
    refine ⟨bytes, _, hwritten, by rw [hheap, hm'], ?_, fun b other k hother hk =>
      ⟨fun hd => ?_, hread b other k hother hk⟩⟩
    · rw [← hwritten.inside]
      exact hread a view i hview hi rfl
    · have hfits := hshape.typedArray b other hother
      obtain ⟨slice, hslice, -⟩ := (hfits.element hk).1
      have hsame := Heap.elementBytes_storeElement_of_disjoint v hc hi hstop hfits hk hd
      exact ⟨_, Engine.reads_element hother hk hslice,
        Engine.reads_element (hkept b other hother) hk (hheap ▸ hsame.trans hslice)⟩

theorem element_writes_touch_one_element_framed :
    ∃ m' bytes bytes',
      Engine.setProperty Host.inert ⟨0⟩ (.first 2) (.int 1) (.int 258) framed = (.ok (), m') ∧
      (framed.engine ⟨0⟩).heap.Replaced ⟨.uint16, .first 1, 2, 3⟩ 1 (Value.int 258).toNumber bytes
        bytes' (m'.engine ⟨0⟩).heap ∧
      ∃ x, Engine.Reads Host.inert framed ⟨0⟩ (.first 2) (.index 2) x ∧
        Engine.Reads Host.inert m' ⟨0⟩ (.first 2) (.index 2) x := by
  obtain ⟨m', hset, -, hwritten⟩ := element_writes_touch_one_element Host.inert_heedful framed
    framed_charted Host.inert framed (by simp [World.moments]) ⟨0⟩ (by decide +kernel) framed_roomy
    (.first 2)
    ⟨.uint16, .first 1, 2, 3⟩ framed_view 1 (.int 1) (.int 258) (by decide +kernel)
  obtain ⟨bytes, bytes', hreplaced, -, -, hothers⟩ := hwritten (by decide)
  obtain ⟨happart, -⟩ := hothers (.first 2) ⟨.uint16, .first 1, 2, 3⟩ 2 framed_view (by decide)
  exact ⟨m', bytes, bytes', hset, hreplaced, happart (.inr (.inr (by decide)))⟩

-- The largest word is no index but a name, under which a typed array of three elements has a
-- property like any other object.
theorem largest_word_is_no_index :
    (framed.engine ⟨0⟩).heap.typedArray? (.first 2) = some ⟨.uint16, .first 1, 2, 3⟩ ∧
    (Environment.setIndex Host.inert ⟨0⟩ (.transient (.first 2)) 4294967295 (.int 5) framed).1 =
      true ∧
    (Environment.getIndex Host.inert ⟨0⟩ (.transient (.first 2)) 4294967295 0
      (Environment.setIndex Host.inert ⟨0⟩ (.transient (.first 2)) 4294967295 (.int 5)
        framed).2).1 = some (.int 5) := by
  refine ⟨framed_view, ?_, ?_⟩ <;> decide +kernel

end HostBoundary
