import HostBoundary.Handle
import Mathlib

namespace HostBoundary

namespace SlotRef

variable {store : Store} (r : SlotRef store) (word : UInt64)

lemma ofParts?_eq_some_iff (index generation : UInt32) :
    ofParts? index generation = some r ↔ r.index = index ∧ r.generation = generation := by
  unfold ofParts?
  constructor
  · intro h
    split at h
    · obtain rfl := Option.some.inj h
      exact ⟨rfl, rfl⟩
    · cases h
  · rintro ⟨rfl, rfl⟩
    exact dif_pos ⟨r.positive, r.bounded⟩

-- Packing step by step: no bit is pushed out of the word and no two parts overlap.
lemma toNat_shifted_generation :
    (r.generation.toUInt64 <<< 32).toNat = r.generation.toNat * 2 ^ 32 := by
  have hbound := r.bounded
  simp only [maxGeneration] at hbound
  rw [UInt64.toNat_shiftLeft, UInt32.toNat_toUInt64, Nat.shiftLeft_eq]
  change _ * 2 ^ 32 % 2 ^ 64 = _
  omega

lemma toNat_bits : r.bits.toNat = r.generation.toNat * 2 ^ 32 + r.index.toNat := by
  rw [bits, UInt64.toNat_or, r.toNat_shifted_generation, UInt32.toNat_toUInt64, Nat.mul_comm,
    ← Nat.two_pow_add_eq_or_of_lt r.index.toNat_lt]

lemma toNat_bits_bounds : 2 ^ 32 ≤ r.bits.toNat ∧ r.bits.toNat < 2 ^ 63 := by
  have hbits := r.toNat_bits
  have hpositive := r.positive
  have hbound := r.bounded
  have hindex := r.index.toNat_lt
  simp only [maxGeneration] at hbound
  omega

lemma toNat_shifted_bits : (r.bits <<< 1).toNat = r.bits.toNat * 2 := by
  have hlt := r.toNat_bits_bounds.2
  rw [UInt64.toNat_shiftLeft, Nat.shiftLeft_eq]
  change _ * 2 % 2 ^ 64 = _
  omega

lemma toNat_tagged_bits : (r.bits <<< 1 ||| 1).toNat = r.bits.toNat * 2 + 1 := by
  rw [UInt64.toNat_or, r.toNat_shifted_bits, Nat.mul_comm]
  exact (Nat.two_pow_add_eq_or_of_lt (i := 1) (by decide) r.bits.toNat).symm

-- Unpacking keeps 32 bits on either side, which is the whole word.
lemma toNat_high_half : (word >>> 32).toUInt32.toNat = word.toNat / 2 ^ 32 := by
  have hword := word.toNat_lt
  rw [UInt64.toNat_toUInt32, UInt64.toNat_shiftRight, Nat.shiftRight_eq_div_pow]
  change word.toNat / 2 ^ 32 % 2 ^ 32 = _
  omega

lemma ofBits?_eq_some_iff : ofBits? word = some r ↔ r.bits = word := by
  have hindex := r.index.toNat_lt
  rw [ofBits?, ofParts?_eq_some_iff, ← UInt32.toNat_inj, ← UInt32.toNat_inj, ← UInt64.toNat_inj,
    r.toNat_bits, toNat_high_half, UInt64.toNat_toUInt32]
  omega

lemma ofBits?_eq_none (hword : word.toNat < 2 ^ 63) :
    (ofBits? word : Option (SlotRef store)) = none ↔ word.toNat < 2 ^ 32 := by
  simp only [ofBits?, ofParts?, toNat_high_half, maxGeneration]
  split
  · simp only [reduceCtorEq, false_iff]
    omega
  · simp only [true_iff]
    omega

end SlotRef

namespace Handle

variable (handle : Handle) (word : UInt64)

-- Generation, index and ownership side by side, from the highest bit down.
def number : Handle → Nat
  | .transient target => target.generation.toNat * 2 ^ 33 + target.index.toNat * 2
  | .persistent slot => slot.generation.toNat * 2 ^ 33 + slot.index.toNat * 2 + 1

lemma toNat_raw : handle.raw.toNat = handle.number := by
  cases handle with
  | transient r =>
    rw [raw, number, r.toNat_shifted_bits, r.toNat_bits]
    omega
  | persistent r =>
    rw [raw, number, r.toNat_tagged_bits, r.toNat_bits]
    omega

lemma toNat_reference : (word >>> 1).toNat = word.toNat / 2 := by
  rw [UInt64.toNat_shiftRight, Nat.shiftRight_eq_div_pow]
  rfl

-- The check for zero is covered by the one for the generation.
lemma ofRaw?_eq : ofRaw? word =
    if word.toNat % 2 = 0 then (SlotRef.ofBits? (word >>> 1)).map .transient
    else (SlotRef.ofBits? (word >>> 1)).map .persistent := by
  have htag : word &&& 1 = 0 ↔ word.toNat % 2 = 0 := by
    rw [← UInt64.toNat_inj, UInt64.toNat_and]
    change word.toNat &&& 1 = 0 ↔ _
    rw [Nat.and_one_is_mod]
  simp only [ofRaw?, htag]
  split
  next hzero =>
    rw [hzero]
    split <;> rfl
  next => rfl

lemma ofRaw?_eq_none : ofRaw? word = none ↔ word.toNat < 2 ^ 33 := by
  have hshift := toNat_reference word
  have hword := word.toNat_lt
  have hbits : ∀ {store : Store}, (SlotRef.ofBits? (word >>> 1) : Option (SlotRef store)) = none ↔
      word.toNat < 2 ^ 33 := by
    intro store
    rw [SlotRef.ofBits?_eq_none _ (by omega), hshift]
    omega
  rw [ofRaw?_eq]
  split <;> rw [Option.map_eq_none_iff, hbits]

lemma ofRaw?_eq_some_iff : ofRaw? word = some handle ↔ handle.raw = word := by
  have hbits : ∀ {store : Store} (r : SlotRef store),
      SlotRef.ofBits? (word >>> 1) = some r ↔ r.bits.toNat = word.toNat / 2 := by
    intro store r
    rw [SlotRef.ofBits?_eq_some_iff, ← UInt64.toNat_inj, toNat_reference]
  rw [← UInt64.toNat_inj, ofRaw?_eq]
  cases handle with
  | transient r =>
    rw [raw, r.toNat_shifted_bits]
    split <;> simp [hbits] <;> omega
  | persistent r =>
    rw [raw, r.toNat_tagged_bits]
    split <;> simp [hbits] <;> omega

lemma ofRaw?_raw : ofRaw? handle.raw = some handle :=
  (ofRaw?_eq_some_iff handle handle.raw).mpr rfl

end Handle

-- Handles and the words from 2 ^ 33 up stand for each other. Index, generation and ownership
-- fill the word without a bit to spare, and neither way is one lost.
theorem raw_handles_biject :
    (∀ handle : Handle, Handle.ofRaw? handle.raw = some handle ∧
      handle.raw.toNat.testBit 0 = handle.isPersistent ∧ handle.raw.toNat = handle.number) ∧
    (∀ word, (Handle.ofRaw? word = none ↔ word.toNat < 2 ^ 33) ∧
      ∀ handle, Handle.ofRaw? word = some handle ↔ handle.raw = word) ∧
    Function.Injective Handle.raw ∧
    (∀ (store : Store) (index generation : UInt32),
      (∃ r : SlotRef store, r.index = index ∧ r.generation = generation) ↔
        1 ≤ generation.toNat ∧ generation.toNat ≤ 2 ^ 31 - 1) ∧
    (∀ (store : Store) (r : SlotRef store),
      (r.generation.toUInt64 <<< 32).toNat = r.generation.toNat * 2 ^ 32 ∧
      r.bits.toNat = r.generation.toNat * 2 ^ 32 + r.index.toNat ∧
      (r.bits <<< 1).toNat = r.bits.toNat * 2 ∧ (r.bits <<< 1 ||| 1).toNat = r.bits.toNat * 2 + 1) ∧
    ∀ word : UInt64, (word >>> 1).toNat = word.toNat / 2 ∧
      (word >>> 1).toUInt32.toNat = word.toNat / 2 % 2 ^ 32 ∧
      (word >>> 1 >>> 32).toUInt32.toNat = word.toNat / 2 ^ 33 := by
  have hinjective : Function.Injective Handle.raw := fun a b hab =>
    Option.some.inj (a.ofRaw?_raw.symm.trans (hab ▸ b.ofRaw?_raw))
  refine ⟨fun handle => ⟨handle.ofRaw?_raw, ?_, handle.toNat_raw⟩,
    fun word => ⟨Handle.ofRaw?_eq_none word, fun handle => handle.ofRaw?_eq_some_iff word⟩,
    hinjective, fun store index generation => ⟨?_, fun h => ⟨⟨index, generation, h.1, h.2⟩, rfl, rfl⟩⟩,
    fun store r => ⟨r.toNat_shifted_generation, r.toNat_bits, r.toNat_shifted_bits,
      r.toNat_tagged_bits⟩,
    fun word => ⟨Handle.toNat_reference word, ?_, ?_⟩⟩
  · cases handle <;> simp [Handle.toNat_raw, Handle.number, Handle.isPersistent, Nat.testBit_zero] <;>
      omega
  · rintro ⟨r, -, rfl⟩
    exact ⟨r.positive, r.bounded⟩
  · rw [UInt64.toNat_toUInt32, Handle.toNat_reference]
  · rw [SlotRef.toNat_high_half, Handle.toNat_reference, Nat.div_div_eq_div_mul]

end HostBoundary
