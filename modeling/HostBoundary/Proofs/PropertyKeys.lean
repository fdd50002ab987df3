import HostBoundary.Proofs.Conversions
import HostBoundary.Proofs.Listing
import HostBoundary.Proofs.WholeNumbers

namespace HostBoundary

-- Decimal notation without a sign, and without a zero before another digit.
structure Decimally (text : String) (n : Nat) : Prop where
  nonempty : text ≠ ""
  digits : ∀ c ∈ text.toList, c.isDigit = true
  leading : text.toList.head? = some '0' → text = "0"
  value : Nat.ofDigitChars 10 text.toList 0 = n

lemma toDigits_of_isDigit {c : Char} (hc : c.isDigit = true) :
    c.toNat - '0'.toNat < 10 ∧ Nat.toDigits 10 (c.toNat - '0'.toNat) = [c] := by
  rw [Char.isDigit, Bool.and_eq_true_iff, decide_eq_true_iff, decide_eq_true_iff] at hc
  have hlow : 48 ≤ c.toNat := UInt32.le_iff_toNat_le.mp hc.1
  have hhigh : c.toNat ≤ 57 := UInt32.le_iff_toNat_le.mp hc.2
  have hlt : c.toNat - '0'.toNat < 10 := by
    change c.toNat - 48 < 10
    omega
  refine ⟨hlt, ?_⟩
  rw [Nat.toDigits_of_lt_base hlt, List.singleton_inj, ← Char.toNat_inj,
    Nat.toNat_digitChar_of_lt_ten hlt]
  exact Nat.add_sub_cancel' hlow

-- Reading on after a digit that counts is writing the number read so far and the rest behind it.
lemma toDigits_append {n : Nat} (hn : 0 < n) {cs : List Char} (hcs : ∀ c ∈ cs, c.isDigit = true) :
    Nat.toDigits 10 n ++ cs = Nat.toDigits 10 (Nat.ofDigitChars 10 cs n) := by
  induction cs generalizing n with
  | nil => exact List.append_nil _
  | cons c cs ih =>
    obtain ⟨hc, hcs⟩ := List.forall_mem_cons.mp hcs
    obtain ⟨hlt, hdigit⟩ := toDigits_of_isDigit hc
    have hsnoc := Nat.toDigits_append_toDigits (by decide) hn hlt
    rw [hdigit] at hsnoc
    rw [Nat.ofDigitChars_cons, ← ih (by omega) hcs, ← hsnoc, List.append_assoc, List.singleton_append]

lemma head?_toDigits {n : Nat} (hn : 0 < n) : (Nat.toDigits 10 n).head? ≠ some '0' := by
  induction n using Nat.strongRecOn with
  | ind n ih =>
    rw [Nat.toDigits_eq_if (by decide)]
    split
    next hlt =>
      intro h
      have hzero := Nat.toNat_digitChar_of_lt_ten hlt
      rw [Option.some.inj h] at hzero
      change 48 = 48 + n at hzero
      omega
    next hge =>
      rw [List.head?_append_of_ne_nil _ Nat.toDigits_ne_nil]
      exact ih (n / 10) (by omega) (by omega)

lemma decimally_iff (text : String) (n : Nat) : Decimally text n ↔ text = toString n := by
  rw [← String.toList_inj, Nat.toString_eq_repr, Nat.toList_repr]
  constructor
  · intro h
    rw [← h.value]
    cases hcs : text.toList with
    | nil => exact absurd (String.toList_inj.mp hcs) h.nonempty
    | cons c cs =>
      have hdigits := h.digits
      rw [hcs] at hdigits
      obtain ⟨hc, hdigits⟩ := List.forall_mem_cons.mp hdigits
      obtain ⟨-, hdigit⟩ := toDigits_of_isDigit hc
      rw [Nat.ofDigitChars_cons]
      rcases Nat.eq_zero_or_pos (c.toNat - '0'.toNat) with hzero | hpos
      · rw [hzero] at hdigit
        obtain rfl := h.leading (by rw [hcs, ← List.singleton_inj.mp hdigit]; rfl)
        obtain ⟨rfl, rfl⟩ := List.cons.inj hcs
        rfl
      · rw [Nat.mul_zero, Nat.zero_add, ← toDigits_append hpos hdigits, hdigit]
        rfl
  · intro h
    refine ⟨?_, ?_, ?_, ?_⟩
    · rintro rfl
      exact Nat.toDigits_ne_nil h.symm
    · rw [h]
      exact fun c hc => Nat.isDigit_of_mem_toDigits (by decide) (by decide) hc
    · intro hzero
      rcases Nat.eq_zero_or_pos n with rfl | hpos
      · exact String.toList_inj.mp h
      · exact absurd (h ▸ hzero) (head?_toDigits hpos)
    · rw [h, Nat.ofDigitChars_toDigits (by decide) (by decide)]

namespace Key

lemma index_eq_ofName {n : Nat} (hn : n < maxIndex) : index (.ofNat n) = ofName (toString n) := by
  have hcanonical := canonical_index hn
  rw [Canonical, text, toNat_ofNat hn] at hcanonical
  exact hcanonical.symm

lemma ofName_eq_index_iff (name : String) (i : UInt32) :
    ofName name = .index i ↔ i.toNat < maxIndex ∧ name = toString i.toNat := by
  constructor
  · intro h
    unfold ofName at h
    split at h
    · split at h
      next n hn =>
        obtain rfl := index.inj h
        rw [toNat_ofNat hn.1]
        exact ⟨hn.1, hn.2.symm⟩
      next => cases h
    · cases h
  · rintro ⟨hi, rfl⟩
    rw [← index_eq_ofName hi, UInt32.ofNat_toNat]

end Key

-- The shortcut for numbers ends where the text would have led.
lemma Heap.keyOf_eq (h : Heap) (k : Value) : h.keyOf k = .ofName (h.display k) := by
  cases k with
  | int i =>
    have hhigh := i.toInt_lt
    rw [keyOf]
    split
    next hlow =>
      obtain ⟨n, hn⟩ := Int.eq_ofNat_of_zero_le hlow
      have htext : h.display (.int i) = toString (i.toInt) := rfl
      rw [htext, hn, Int.toNat_natCast, Key.index_eq_ofName (show n < 2 ^ 32 - 1 by omega)]
      rfl
    next => rfl
  | number x =>
    rw [keyOf]
    split
    next hindex =>
      simp only [Bool.and_eq_true_iff, decide_eq_true_iff] at hindex
      have hhigh : x.trunc < 2 ^ 32 - 1 := hindex.2
      have htext := Binary64.text_of_isIntegral hindex.1.1 hindex.1.2 (by omega)
      rw [Key.index_eq_ofName (show x.trunc.toNat < 2 ^ 32 - 1 by omega), ← htext]
      rfl
    next => rfl
  | _ => rfl

lemma Heap.display_text (h : Heap) (text : String) : h.display (.text text) = text :=
  Units.toStringLossy_ofString text

lemma Heap.keyOf_toValue (h : Heap) {key : Key} (hkey : key.Canonical) : h.keyOf key.toValue = key := by
  rw [keyOf_eq, Key.toValue, display_text, hkey]

lemma HeapObject.own?_eq_iff (key key' : Key) :
    (∀ o : HeapObject, o.own? key = o.own? key') ↔ key = key' := by
  constructor
  · intro h
    have hown := h { body := .plain, properties := [⟨key, .data .undefined, true⟩] }
    by_contra hne
    simp [own?, hne] at hown
  · rintro rfl o
    rfl

-- Values go by their texts when they are keys, and each text is a key of its own. The indices are
-- the texts in decimal notation of all numbers of 32 bits but the largest.
theorem property_keys_canonical :
    (∀ (h : Heap) (k : Value), h.keyOf k = .ofName (h.display k)) ∧
    Function.Injective Key.ofName ∧
    (∀ name i, Key.ofName name = .index i ↔ i.toNat < 2 ^ 32 - 1 ∧ Decimally name i.toNat) ∧
    (∀ (h : Heap) name, h.display (Key.ofName name).toValue = name) ∧
    (∀ (h : Heap) k, h.keyOf (h.keyOf k).toValue = h.keyOf k) ∧
    ∀ (h : Heap) k k',
      (h.keyOf k = h.keyOf k' ↔ h.display k = h.display k') ∧
      ((∀ o : HeapObject, o.own? (h.keyOf k) = o.own? (h.keyOf k')) ↔
        h.display k = h.display k') := by
  have hkeys : ∀ (h : Heap) k k', h.keyOf k = h.keyOf k' ↔ h.display k = h.display k' := by
    intro h k k'
    rw [h.keyOf_eq, h.keyOf_eq, Key.ofName_injective.eq_iff]
  refine ⟨Heap.keyOf_eq, Key.ofName_injective, fun name i => ?_, fun h name => ?_,
    fun h k => h.keyOf_toValue (h.canonical_keyOf k), fun h k k' => ⟨hkeys h k k', ?_⟩⟩
  · rw [Key.ofName_eq_index_iff, decimally_iff]
    rfl
  · rw [Key.toValue_ofName, h.display_text]
  · rw [HeapObject.own?_eq_iff, hkeys]

end HostBoundary
