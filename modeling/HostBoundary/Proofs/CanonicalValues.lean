import HostBoundary.Proofs.Conversions
import HostBoundary.Proofs.Rounding

namespace HostBoundary

namespace Units

inductive Paired : Units → Prop where
  | nil : Paired []
  | single (u : UInt16) (rest : Units) (hu : isLead u = false ∧ isTrail u = false)
      (hrest : Paired rest) : Paired (u :: rest)
  | pair (u v : UInt16) (rest : Units) (hu : isLead u = true) (hv : isTrail v = true)
      (hrest : Paired rest) : Paired (u :: v :: rest)

lemma decode_single (u : UInt16) (rest : Units) (hu : isLead u = false ∧ isTrail u = false) :
    decode (u :: rest) = some (Char.ofNat u.toNat) :: decode rest := by
  have hsingle : single u = some (Char.ofNat u.toNat) := by simp [single, hu]
  cases rest with
  | nil => simp [decode, hsingle]
  | cons v rest => simp [decode, hu, hsingle]

lemma ofChar_single (u : UInt16) (hu : isLead u = false ∧ isTrail u = false) :
    ofChar (Char.ofNat u.toNat) = [u] := by
  have hsize : u.toNat < 65536 := u.toNat_lt
  have hvalid : u.toNat.isValidChar := by
    simp only [isLead, isTrail, Bool.and_eq_false_iff, decide_eq_false_iff_not] at hu
    unfold Nat.isValidChar
    omega
  have hnat : (Char.ofNat u.toNat).toNat = u.toNat := by simp [Char.toNat_ofNat, hvalid]
  rw [ofChar, hnat, if_pos hsize, UInt16.ofNat_toNat]

lemma ofChar_pair (u v : UInt16) (hu : isLead u = true) (hv : isTrail v = true) :
    ofChar (pair u v) = [u, v] := by
  simp only [isLead, isTrail, Bool.and_eq_true, decide_eq_true_eq] at hu hv
  have hvalid : (0x10000 + (u.toNat - 0xD800) * 0x400 + (v.toNat - 0xDC00)).isValidChar := by
    unfold Nat.isValidChar
    omega
  have hnat : (pair u v).toNat = 0x10000 + (u.toNat - 0xD800) * 0x400 + (v.toNat - 0xDC00) := by
    simp [pair, Char.toNat_ofNat, hvalid]
  have hlead : 0xD800 + ((pair u v).toNat - 0x10000) / 0x400 = u.toNat := by omega
  have htrail : 0xDC00 + ((pair u v).toNat - 0x10000) % 0x400 = v.toNat := by omega
  rw [ofChar, if_neg (by omega), hlead, htrail, UInt16.ofNat_toNat, UInt16.ofNat_toNat]

lemma ofString_toStringLossy {units : Units} (h : Paired units) :
    ofString units.toStringLossy = units := by
  rw [ofString, toStringLossy, String.toList_ofList]
  induction h with
  | nil => rfl
  | single u rest hu _ ih =>
    rw [decode_single u rest hu, List.map_cons, List.flatMap_cons, ih, Option.getD_some,
      ofChar_single u hu, List.singleton_append]
  | pair u v rest hu hv _ ih =>
    rw [decode, hu, hv, Bool.and_self, if_pos rfl, List.map_cons, List.flatMap_cons, ih,
      Option.getD_some, ofChar_pair u v hu hv]
    rfl

end Units

namespace Tagged

-- The one form of a value among those that mean the same, with texts as the flags ask for.
def canon (flags : Flags) : Tagged → Tagged
  | .uint u => if u.toNat < 2 ^ 31 then .int (.ofNat u.toNat) else .float (.ofInt u.toNat)
  | .float x => ofNumber x
  | .utf8 text => if flags.utf8 then .utf8 text else .utf16 (.ofString text)
  | .utf16 units => if flags.utf8 then .utf8 units.toStringLossy else .utf16 units
  | v => v

-- What the form is. Numbers are integers of 32 bits wherever they equal one.
structure Canonizes (flags : Flags) (f : Tagged → Tagged) : Prop where
  null : f .null = .null
  boolean : ∀ b, f (.boolean b) = .boolean b
  int : ∀ i, f (.int i) = .int i
  uint : ∀ u : UInt32, u.toNat < 2 ^ 31 → ∃ i : Int32, i.toInt = u.toNat ∧ f (.uint u) = .int i
  wide : ∀ u : UInt32, 2 ^ 31 ≤ u.toNat →
    ∃ x : Binary64, x.Equals u.toNat ∧ f (.uint u) = .float x
  whole : ∀ (x : Binary64) (i : Int32), x.Equals i.toInt → f (.float x) = .int i
  float : ∀ x : Binary64, (∀ i : Int32, ¬ x.Equals i.toInt) → f (.float x) = .float x
  special : ∀ x : Binary64, x.isFinite = false ∨ x = .zero true → f (.float x) = .float x
  text : flags.utf8 = true → ∀ s, f (.utf8 s) = .utf8 s ∧ f (.utf16 (.ofString s)) = .utf8 s
  decoded : flags.utf8 = true → ∀ units : Units, f (.utf16 units) = .utf8 units.toStringLossy ∧
    (units.Paired → .ofString units.toStringLossy = units)
  units : flags.utf8 = false → ∀ s units,
    f (.utf8 s) = .utf16 (.ofString s) ∧ f (.utf16 units) = .utf16 units

variable (flags : Flags)

lemma word_iff {n : Int} : Binary64.Word n ↔ ∃ i : Int32, i.toInt = n := by
  constructor
  · rintro ⟨hlow, hhigh⟩
    exact ⟨.ofInt n, Int32.toInt_ofInt_of_le hlow hhigh⟩
  · rintro ⟨i, rfl⟩
    exact ⟨i.le_toInt, i.toInt_lt⟩

-- An unsigned integer beyond 32 signed bits is a double, and not one of those that are integers.
lemma ofNumber_wide {u : UInt32} (hu : 2 ^ 31 ≤ u.toNat) :
    (Binary64.ofInt u.toNat).Equals u.toNat ∧
      ofNumber (.ofInt u.toNat) = .float (.ofInt u.toNat) := by
  have hsize : u.toNat < 2 ^ 32 := u.toNat_lt
  have hnearest : (Binary64.ofInt u.toNat).Nearest u.toNat := Binary64.nearest_ofInt (by omega)
  refine ⟨⟨hnearest.finite, Binary64.scaled_ofInt (by omega), by omega⟩,
    ofNumber_of_not_equals fun n hn => hnearest.not_equals ?_ hn⟩
  rintro ⟨-, hhigh⟩
  omega

lemma canonizes_canon : Canonizes flags (canon flags) where
  null := rfl
  boolean _ := rfl
  int _ := rfl
  uint u hu := by
    refine ⟨.ofNat u.toNat, ?_, if_pos hu⟩
    rw [Int32.toInt_ofNat_of_lt (by omega)]
  wide u hu := ⟨_, (ofNumber_wide hu).1, if_neg (Nat.not_lt.mpr hu)⟩
  whole x i hx := by
    rw [canon, ofNumber_of_equals hx (word_iff.mpr ⟨i, rfl⟩), Int32.ofInt_toInt]
  float x hx := by
    refine ofNumber_of_not_equals fun n hn => ?_
    obtain ⟨i, rfl⟩ := word_iff.mp hn
    exact hx i
  special x hx := by
    refine ofNumber_of_not_equals fun n _ hequals => ?_
    rcases hx with hx | rfl
    · exact absurd (hequals.finite.symm.trans hx) (by simp)
    · have hzero : n = 0 := by
        have hscaled : (0 : Int) = n * Binary64.one := hequals.value
        rcases Int.mul_eq_zero.mp hscaled.symm with h | h
        · exact h
        · exact absurd h (Int.natCast_ne_zero.mpr (Nat.ne_of_gt Binary64.one_pos))
      exact absurd (hequals.sign hzero) (by decide)
  text hf s := ⟨if_pos hf, by rw [canon, if_pos hf, Units.toStringLossy_ofString]⟩
  decoded hf units := ⟨if_pos hf, Units.ofString_toStringLossy⟩
  units hf s units := ⟨if_neg (by simp [hf]), if_neg (by simp [hf])⟩

lemma canon_ofNumber (x : Binary64) : (ofNumber x).canon flags = ofNumber x := by
  by_cases hx : ∃ n, Binary64.Word n ∧ x.Equals n
  · obtain ⟨n, hn, hx⟩ := hx
    rw [ofNumber_of_equals hx hn]
    rfl
  · have hfloat : ofNumber x = .float x :=
      ofNumber_of_not_equals fun n hn hequals => hx ⟨n, hn, hequals⟩
    rw [hfloat, canon, hfloat]

lemma canon_canon (v : Tagged) : (v.canon flags).canon flags = v.canon flags := by
  cases v with
  | uint u =>
    by_cases hu : u.toNat < 2 ^ 31
    · simp only [canon, if_pos hu]
    · simp only [canon, if_neg hu, (ofNumber_wide (Nat.not_lt.mp hu)).2]
  | float x => exact canon_ofNumber flags x
  | utf8 text | utf16 units =>
    by_cases hf : flags.utf8 = true
    · simp only [canon, if_pos hf]
    · simp only [canon, if_neg hf]
  | _ => rfl

end Tagged

lemma Heap.toTagged_ofTagged (h : Heap) (flags : Flags) (v : Tagged) (hv : v.handle? = none) :
    ∃ x, h.ofTagged v = (.ok x, h) ∧ h.toTagged flags x = .ok (v.canon flags) := by
  cases v with
  | uint u =>
    refine ⟨_, rfl, ?_⟩
    unfold Value.ofInt
    by_cases hu : u.toNat < 2 ^ 31
    · rw [if_pos ⟨by omega, by omega⟩, Tagged.canon, if_pos hu]
      rfl
    · rw [if_neg fun hand => hu (by omega), Tagged.canon, if_neg hu]
      exact congrArg Except.ok (Tagged.ofNumber_wide (Nat.not_lt.mp hu)).2
  | utf8 text =>
    refine ⟨_, rfl, congrArg Except.ok ?_⟩
    rw [Tagged.ofUnits, Units.toStringLossy_ofString]
    rfl
  | object kind handle => exact absurd hv (by simp [Tagged.handle?])
  | _ => exact ⟨_, rfl, rfl⟩

-- A primitive value that goes to the engine and comes back has its canonical form, whatever the heap,
-- and a value that has it already comes back as it is.
theorem primitives_cross_canonically (flags : Flags) :
    Tagged.Canonizes flags (Tagged.canon flags) ∧
    (∀ v : Tagged, (v.canon flags).canon flags = v.canon flags) ∧
    ∀ (h : Heap) (v : Tagged), v.handle? = none →
      ∃ x, h.ofTagged v = (.ok x, h) ∧ h.toTagged flags x = .ok (v.canon flags) :=
  ⟨Tagged.canonizes_canon flags, Tagged.canon_canon flags, fun h v => h.toTagged_ofTagged flags v⟩

-- A surrogate that stands alone comes back where units are asked for, and not where text is.
theorem primitives_cross_canonically_of_lone_surrogate :
    ∃ x, (Heap.fresh {}).ofTagged (.utf16 [0xD800, 0x41]) = (.ok x, Heap.fresh {}) ∧
      (Heap.fresh {}).toTagged 0 x = .ok (.utf16 [0xD800, 0x41]) ∧
      (Heap.fresh {}).toTagged 1 x = .ok (.utf8 "\uFFFDA") := by
  obtain ⟨x, hx, hunits⟩ :=
    (primitives_cross_canonically 0).2.2 (Heap.fresh {}) (.utf16 [0xD800, 0x41]) rfl
  obtain ⟨y, hy, htext⟩ :=
    (primitives_cross_canonically 1).2.2 (Heap.fresh {}) (.utf16 [0xD800, 0x41]) rfl
  obtain rfl : x = y := by simpa using hx.symm.trans hy
  exact ⟨x, hx, hunits, htext⟩

end HostBoundary
