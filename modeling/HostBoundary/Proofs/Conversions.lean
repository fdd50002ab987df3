import HostBoundary.Heap.Failure
import HostBoundary.Proofs.SafeRuns

namespace HostBoundary

namespace Units

-- A character is no surrogate, so the units of a text pair up as they were made.
lemma decode_ofChar_append (c : Char) (rest : Units) :
    decode (ofChar c ++ rest) = some c :: decode rest := by
  have hvalid : c.toNat < 0xD800 ∨ 0xDFFF < c.toNat ∧ c.toNat < 0x110000 := c.valid
  unfold ofChar
  split
  · rename_i hsmall
    have hu : (UInt16.ofNat c.toNat).toNat = c.toNat := UInt16.toNat_ofNat_of_lt' hsmall
    have hlead : isLead (UInt16.ofNat c.toNat) = false := by
      simp only [isLead, hu, Bool.and_eq_false_iff, decide_eq_false_iff_not]
      omega
    have htrail : isTrail (UInt16.ofNat c.toNat) = false := by
      simp only [isTrail, hu, Bool.and_eq_false_iff, decide_eq_false_iff_not]
      omega
    have hsingle : single (UInt16.ofNat c.toNat) = some c := by
      simp [single, hlead, htrail, hu]
    cases rest with
    | nil => simp [decode, hsingle]
    | cons v rest => simp [decode, hlead, hsingle]
  · rename_i hlarge
    have hl : (UInt16.ofNat (0xD800 + (c.toNat - 0x10000) / 0x400)).toNat =
        0xD800 + (c.toNat - 0x10000) / 0x400 := by
      refine UInt16.toNat_ofNat_of_lt' ?_
      simp only [UInt16.size]
      omega
    have ht : (UInt16.ofNat (0xDC00 + (c.toNat - 0x10000) % 0x400)).toNat =
        0xDC00 + (c.toNat - 0x10000) % 0x400 := by
      refine UInt16.toNat_ofNat_of_lt' ?_
      simp only [UInt16.size]
      omega
    have hlead : isLead (UInt16.ofNat (0xD800 + (c.toNat - 0x10000) / 0x400)) = true := by
      simp only [isLead, hl, Bool.and_eq_true, decide_eq_true_eq]
      omega
    have htrail : isTrail (UInt16.ofNat (0xDC00 + (c.toNat - 0x10000) % 0x400)) = true := by
      simp only [isTrail, ht, Bool.and_eq_true, decide_eq_true_eq]
      omega
    have hsum : 0x10000 + (0xD800 + (c.toNat - 0x10000) / 0x400 - 0xD800) * 0x400 +
        (0xDC00 + (c.toNat - 0x10000) % 0x400 - 0xDC00) = c.toNat := by omega
    simp only [List.cons_append, List.nil_append, decode, hlead, htrail, Bool.and_self, if_true,
      pair, hl, ht, hsum, Char.ofNat_toNat]

lemma decode_ofString (text : String) : decode (ofString text) = text.toList.map some := by
  unfold ofString
  induction text.toList with
  | nil => rfl
  | cons c rest ih =>
    rw [List.flatMap_cons, decode_ofChar_append, ih, List.map_cons]

lemma toStringLossy_ofString (text : String) : (ofString text).toStringLossy = text := by
  simp [toStringLossy, decode_ofString]

end Units

namespace Heap

variable {h h' h'' : Heap}

-- Heaps that differ in their roots only.
structure Alike (h h' : Heap) : Prop where
  objects : h'.objects = h.objects
  persistents : h'.persistents = h.persistents
  global : h'.global = h.global

namespace Alike

lemma refl (h : Heap) : h.Alike h := ⟨rfl, rfl, rfl⟩

lemma trans (hab : h.Alike h') (hbc : h'.Alike h'') : h.Alike h'' :=
  ⟨hbc.objects.trans hab.objects, hbc.persistents.trans hab.persistents,
    hbc.global.trans hab.global⟩

lemma root (h : Heap) (r : ObjectRef) : h.Alike (h.root r) := by
  unfold Heap.root
  split <;> exact ⟨rfl, rfl, rfl⟩

lemma pushScope (h : Heap) : h.Alike h.pushScope := by
  unfold Heap.pushScope
  split <;> exact ⟨rfl, rfl, rfl⟩

lemma popScope (h : Heap) : h.Alike h.popScope.2 := by
  unfold Heap.popScope
  repeat' split
  all_goals exact ⟨rfl, rfl, rfl⟩

variable (ha : h.Alike h')

include ha

lemma isAlive (r : ObjectRef) : h'.isAlive r = h.isAlive r := by
  rw [Heap.isAlive, ha.objects, Heap.isAlive]

lemma toTagged (flags : Flags) (value : Value) :
    h'.toTagged flags value = h.toTagged flags value := by
  cases value with
  | object r => simp only [Heap.toTagged, Heap.kind?, Heap.body?, Heap.object?, ha.objects]
  | _ => rfl

lemma toTaggedAll (flags : Flags) (values : List Value) :
    h'.toTaggedAll flags values = h.toTaggedAll flags values := by
  have hsame : h'.toTagged flags = h.toTagged flags := funext (ha.toTagged flags)
  rw [Heap.toTaggedAll, hsame, Heap.toTaggedAll]

lemma resolveHandle (handle : Handle) :
    (h'.resolveHandle handle).1 = (h.resolveHandle handle).1 := by
  cases handle with
  | transient target => simp only [Heap.resolveHandle, ha.isAlive]
  | persistent slot =>
    simp only [Heap.resolveHandle, target, ha.persistents]
    split
    · rfl
    · simp only [ha.isAlive]
      split <;> rfl

end Alike

lemma alike_resolveHandle (h : Heap) (handle : Handle) : h.Alike (h.resolveHandle handle).2 := by
  cases handle with
  | transient target => exact .refl h
  | persistent slot =>
    simp only [resolveHandle, target]
    split
    · exact .refl h
    · split
      · split
        · exact .refl h
        · exact .root h _
      · exact .refl h

lemma alike_ofTagged (h : Heap) (value : Tagged) : h.Alike (h.ofTagged value).2 := by
  cases value with
  | object kind handle =>
    have ha := h.alike_resolveHandle handle
    simp only [ofTagged]
    split <;> rename_i heq <;> rw [heq] at ha <;> exact ha
  | _ => exact .refl h

def valueOf? (h : Heap) (value : Tagged) : Option Value := (h.ofTagged value).1.toOption

lemma Alike.valueOf? (ha : h.Alike h') (value : Tagged) : h'.valueOf? value = h.valueOf? value := by
  cases value with
  | object kind handle =>
    have hsame := ha.resolveHandle handle
    simp only [Heap.valueOf?, ofTagged]
    rcases hr : h.resolveHandle handle with ⟨found, middle⟩
    rcases hr' : h'.resolveHandle handle with ⟨found', middle'⟩
    obtain rfl : found' = found := by simpa [hr, hr'] using hsame
    cases found' <;> rfl
  | _ => rfl

lemma ofTaggedAll_eq (h : Heap) (values : List Tagged) :
    (h.ofTaggedAll values).1.toOption = values.mapM h.valueOf? ∧
    h.Alike (h.ofTaggedAll values).2 := by
  induction values generalizing h with
  | nil => exact ⟨rfl, .refl h⟩
  | cons first rest ih =>
    have ha := h.alike_ofTagged first
    have hfirst : h.valueOf? first = (h.ofTagged first).1.toOption := rfl
    rcases hstep : h.ofTagged first with ⟨result, middle⟩
    rw [hstep] at ha hfirst
    cases result with
    | error e =>
      rw [List.mapM_cons, hfirst]
      simp only [ofTaggedAll, hstep]
      exact ⟨rfl, ha⟩
    | ok value =>
      obtain ⟨hrest, ha'⟩ := ih middle
      rw [List.mapM_cons, hfirst, ← funext ha.valueOf?]
      simp only [ofTaggedAll, hstep]
      rcases htail : middle.ofTaggedAll rest with ⟨tail, last⟩
      rw [htail] at hrest ha'
      rw [← hrest]
      cases tail <;> exact ⟨rfl, ha.trans ha'⟩

-- A value that came from the host can go back to it: it is no symbol and no big integer, and
-- an object is one that is there.
lemma exists_toTagged (h : Heap) (flags : Flags) {tagged : Tagged} {value : Value}
    (hv : h.valueOf? tagged = some value) : ∃ answer, h.toTagged flags value = .ok answer := by
  cases tagged with
  | object kind handle =>
    simp only [valueOf?, ofTagged] at hv
    rcases hr : h.resolveHandle handle with ⟨found, middle⟩
    rw [hr] at hv
    cases found with
    | none => exact absurd hv (by simp [Except.toOption])
    | some r =>
      obtain rfl : Value.object r = value := Option.some.inj hv
      have halive : h.isAlive r = true := h.isAlive_of_resolveHandle handle r (by rw [hr])
      obtain ⟨object, ho⟩ := (isAlive_iff h r).mp halive
      exact ⟨.object object.body.kind (.transient r), by simp [toTagged, kind?, body?, ho]⟩
  | uint u =>
    obtain rfl : Value.ofInt u.toNat = value := Option.some.inj hv
    unfold Value.ofInt
    split <;> exact ⟨_, rfl⟩
  | _ =>
    obtain rfl := Option.some.inj hv
    exact ⟨_, rfl⟩

lemma exists_toTaggedAll (h : Heap) (flags : Flags) {args : List Tagged} {values : List Value}
    (hv : args.mapM h.valueOf? = some values) :
    ∃ answers, h.toTaggedAll flags values = .ok answers := by
  induction args generalizing values with
  | nil =>
    obtain rfl : [] = values := Option.some.inj hv
    exact ⟨[], rfl⟩
  | cons first rest ih =>
    rw [List.mapM_cons] at hv
    obtain ⟨value, hfirst, hv⟩ := Option.bind_eq_some_iff.mp hv
    obtain ⟨others, hrest, hv⟩ := Option.bind_eq_some_iff.mp hv
    obtain rfl : value :: others = values := Option.some.inj hv
    obtain ⟨answer, hanswer⟩ := h.exists_toTagged flags hfirst
    obtain ⟨answers, hanswers⟩ := ih hrest
    refine ⟨answer :: answers, ?_⟩
    rw [toTaggedAll] at hanswers ⊢
    rw [List.mapM_cons, hanswer, hanswers]
    rfl

section Failure

variable (name : ErrorName) (message : String)

lemma ownText_errorObject :
    (errorObject name message).ownText "name" = name.text ∧
    (errorObject name message).ownText "message" = message := by
  constructor <;>
    simp [errorObject, HeapObject.ownText, HeapObject.ownData?, HeapObject.defineHidden,
      HeapObject.define, HeapObject.defineIn, HeapObject.ofBody, Value.text,
      Units.toStringLossy_ofString]

lemma report_newError (h : Heap) (hwf : h.WellFormed)
    (hsize : h.objects.slots.size < 2 ^ 32) (ha : (h.newError name message).2.Alike h') :
    (h'.throwing (h.newError name message).1).report = errorText name.text message := by
  have hobject : h'.object? (h.objects.insert (errorObject name message)).1 =
      some (errorObject name message) := by
    rw [object?, ha.objects, newError, allocate_objects]
    exact h.objects.get?_insert_self hwf hsize _
  have hvalue : (h.newError name message).1 =
      .object (h.objects.insert (errorObject name message)).1 := rfl
  obtain ⟨hname, hmessage⟩ := ownText_errorObject name message
  have hdisplay : h'.displayObject maxDisplayDepth (h.objects.insert (errorObject name message)).1 =
      errorText name.text message := by
    have hbody : (errorObject name message).body = .error := rfl
    rw [displayObject, hobject]
    simp only [hbody]
    rw [hname, hmessage]
  rw [hvalue]
  exact hdisplay

end Failure

end Heap

end HostBoundary
