import HostBoundary.Number.Conversion
import HostBoundary.Proofs.Rounding

namespace HostBoundary

lemma toString_mul_pow {m : Nat} (hm : 0 < m) (e : Nat) :
    toString (m * Nat.pow 10 e) = toString m ++ DecimalLayout.zeros e := by
  apply String.toList_inj.mp
  simp only [Nat.toString_eq_repr, String.toList_append, Nat.toList_repr, DecimalLayout.zeros,
    String.toList_ofList]
  induction e with
  | zero => simp
  | succ e ih =>
    have hpos : 0 < m * Nat.pow 10 e := Nat.mul_pos hm (Nat.pow_pos (by decide))
    have hsnoc := Nat.toDigits_append_toDigits (b := 10) (by decide) hpos (d := 0) (by decide)
    rw [ih, Nat.add_zero, List.append_assoc] at hsnoc
    rw [List.replicate_succ', show m * Nat.pow 10 (e + 1) = 10 * (m * Nat.pow 10 e) by
      rw [Nat.pow_eq, Nat.pow_eq, Nat.pow_succ]; ring]
    exact hsnoc.symm

lemma Decimal.exists_stripZeros (digits m e : Nat) :
    ∃ m' e' : Nat, (Decimal.mk m e).stripZeros digits = ⟨m', e'⟩ ∧
      m' * Nat.pow 10 e' = m * Nat.pow 10 e := by
  induction digits generalizing m e with
  | zero => exact ⟨m, e, rfl, rfl⟩
  | succ more ih =>
    rw [Decimal.stripZeros]
    split
    next hzero =>
      obtain ⟨m', e', heq, hvalue⟩ := ih (m / 10) (e + 1)
      refine ⟨m', e', heq, hvalue.trans ?_⟩
      rw [Nat.pow_eq, Nat.pow_eq, Nat.pow_succ, Nat.mul_comm (10 ^ e), ← Nat.mul_assoc,
        Nat.div_mul_cancel (Nat.dvd_of_mod_eq_zero hzero)]
    next => exact ⟨m, e, rfl, rfl⟩

namespace Binary64

lemma magnitude_eq (x : Binary64) : x.magnitude =
    if x.exponent = 0 then x.fraction else (2 ^ 52 + x.fraction) * x.gap := rfl

section Whole

attribute [local irreducible] one

variable {x : Binary64} {n : Nat} (hx : x.magnitude = n * one) (hn : n < 2 ^ 53)

include hx hn

-- Up to 2 ^ 53 neighbours are at most one apart.
lemma gap_le_one : x.gap ≤ one := by
  have hone := one_eq
  generalize BinaryFormat.double.scale = scale at hone
  rcases Nat.lt_or_ge scale (x.exponent - 1) with hlarge | hsmall
  · have hgap : 2 * one ≤ x.gap := by
      rw [hone, gap, Nat.pow_eq, Nat.pow_eq, ← Nat.pow_succ']
      exact Nat.pow_le_pow_right Nat.zero_lt_two hlarge
    have hlow : 2 ^ 52 * x.gap ≤ x.magnitude := by
      rw [magnitude_eq, if_neg (by omega)]
      exact Nat.mul_le_mul_right _ (Nat.le_add_right ..)
    have hhigh : n * one < 2 ^ 53 * one := Nat.mul_lt_mul_of_pos_right hn one_pos
    omega
  · rw [hone]
    exact Nat.pow_le_pow_right Nat.zero_lt_two hsmall

-- So of the integers only the number itself rounds to it.
lemma roundsTo_iff (hpos : 0 < n) (m e : Nat) :
    x.roundsTo ⟨m, e⟩ = true ↔ m * Nat.pow 10 e = n := by
  have hgap := gap_le_one hx hn
  have hunit : 0 < x.gap := Nat.two_pow_pos _
  have hone := one_pos
  have hratio : (Decimal.mk m e).ratio = (m * Nat.pow 10 e, 1) := by simp [Decimal.ratio]
  simp only [roundsTo, hratio, hx]
  generalize m * Nat.pow 10 e = v
  have hpoint : v * 4 * one = 4 * (v * one) := by ring
  have hmagnitude : one ≤ n * one := Nat.le_mul_of_pos_left one hpos
  have horder : v = n ∨ v ≠ n ∧ (v * one + one ≤ n * one ∨ n * one + one ≤ v * one) := by
    rcases Nat.lt_trichotomy v n with h | h | h
    · exact .inr ⟨Nat.ne_of_lt h, .inl (Nat.succ_mul v one ▸ Nat.mul_le_mul_right one h)⟩
    · exact .inl h
    · exact .inr ⟨Nat.ne_of_gt h, .inr (Nat.succ_mul n one ▸ Nat.mul_le_mul_right one h)⟩
  rw [hpoint, Nat.mul_one, Nat.mul_one]
  split <;> split <;> simp only [Bool.and_eq_true_iff, decide_eq_true_iff] <;>
    rcases horder with rfl | h <;> omega

variable (hpos : 0 < n)

include hpos

lemma candidate_eq (tie : Tie) {count : Nat} (hcount : count ≤ digitCount n) :
    x.candidate tie count =
      if n % Nat.pow 10 (digitCount n - count) = 0 then
        some ⟨n / Nat.pow 10 (digitCount n - count), (digitCount n - count : Nat)⟩
      else none := by
  have hplace : x.decimalPlace - count = (digitCount n - count : Nat) := by
    have hquotient : x.magnitude / one = n := by rw [hx, Nat.mul_div_cancel _ one_pos]
    rw [decimalPlace, if_pos (hx ▸ Nat.le_mul_of_pos_left one hpos), hquotient]
    omega
  generalize digitCount n - count = e at hplace ⊢
  have hpow : 0 < Nat.pow 10 e := Nat.pow_pos (by decide)
  have hquotient : x.magnitude / (one * Nat.pow 10 e) = n / Nat.pow 10 e := by
    rw [hx, Nat.mul_comm n, Nat.mul_div_mul_left _ _ one_pos]
  have hdivmod := Nat.div_add_mod' n (Nat.pow 10 e)
  have hrest := Nat.mod_lt n hpow
  have hlower : x.roundsTo ⟨n / Nat.pow 10 e, e⟩ = decide (n % Nat.pow 10 e = 0) := by
    rw [Bool.eq_iff_iff, roundsTo_iff hx hn hpos, decide_eq_true_iff]
    omega
  have hupper : x.roundsTo ⟨n / Nat.pow 10 e + 1, e⟩ = false := by
    rw [Bool.eq_false_iff, ne_eq, roundsTo_iff hx hn hpos, Nat.succ_mul]
    omega
  delta candidate
  simp only [hplace, Int.natAbs_natCast, if_neg (Int.not_lt.mpr (Int.natCast_nonneg e)), hquotient,
    hlower, hupper]
  by_cases hexact : n % Nat.pow 10 e = 0
  · simp only [hexact, decide_true, if_true]
  · simp only [hexact, decide_false, if_false]

-- The first count that is tried with success leaves out nothing but zeros at the end.
lemma exists_shortest (tie : Tie) :
    ∃ m e : Nat, x.shortest tie = ⟨m, e⟩ ∧ m * Nat.pow 10 e = n := by
  have hdigits : 0 < digitCount n ∧ digitCount n ≤ 17 :=
    ⟨List.length_pos_iff.mpr Nat.toDigits_ne_nil,
      Nat.toDigits_length 10 n 17 (by decide) (Nat.lt_trans hn (by decide))⟩
  have hlast : x.candidate tie (digitCount n) = some ⟨n, 0⟩ := by
    rw [candidate_eq hx hn hpos tie (Nat.le_refl _), Nat.sub_self]
    simp [Nat.mod_one]
  have hfound : (((List.range (digitCount n)).map (· + 1)).findSome? (x.candidate tie)).isSome := by
    rw [List.findSome?_isSome_iff]
    exact ⟨digitCount n, List.mem_map.mpr ⟨digitCount n - 1, List.mem_range.mpr (by omega), by omega⟩,
      by rw [hlast]; rfl⟩
  obtain ⟨d, hd⟩ := Option.isSome_iff_exists.mp hfound
  obtain ⟨count, hmem, hcount⟩ := List.exists_of_findSome?_eq_some hd
  obtain ⟨i, hi, rfl⟩ := List.mem_map.mp hmem
  rw [candidate_eq hx hn hpos tie (List.mem_range.mp hi), Option.ite_none_right_eq_some] at hcount
  obtain ⟨hexact, hcount⟩ := hcount
  obtain rfl := Option.some.inj hcount
  obtain ⟨m, e, hstrip, hvalue⟩ := Decimal.exists_stripZeros 17
    (n / Nat.pow 10 (digitCount n - (i + 1))) (digitCount n - (i + 1))
  refine ⟨m, e, ?_, hvalue.trans (Nat.div_mul_cancel (Nat.dvd_of_mod_eq_zero hexact))⟩
  have hrange : List.range 17 =
      List.range (digitCount n) ++ (List.range (17 - digitCount n)).map (digitCount n + ·) := by
    rw [← List.range_add, Nat.add_sub_cancel' hdigits.2]
  rw [shortest, hrange, List.map_append, List.findSome?_append, hd]
  exact hstrip

lemma write_of_whole (hsign : x.negative = false) : numberLayout.write x = toString n := by
  obtain ⟨m, e, hshortest, hvalue⟩ := exists_shortest hx hn hpos numberLayout.tie
  have hm : 0 < m := Nat.pos_of_mul_pos_right (hvalue ▸ hpos)
  have hlength : 0 < (toString m).length := by
    rw [← String.length_toList, Nat.toString_eq_repr, Nat.toList_repr]
    exact List.length_pos_iff.mpr Nat.toDigits_ne_nil
  have hplain : numberLayout.plain (toString m) (e + (toString m).length : Nat) =
      toString m ++ DecimalLayout.zeros e := by
    rw [DecimalLayout.plain, if_neg (by omega), if_pos (by omega), Int.toNat_natCast,
      Nat.add_sub_cancel]
    exact String.append_empty
  simp only [DecimalLayout.write, hshortest, hsign]
  rw [← hvalue, toString_mul_pow hm, ← hplain]
  exact String.empty_append

end Whole

-- Zeros of either sign are written alike; all other whole numbers by their digits.
lemma text_of_isIntegral {x : Binary64} (hintegral : x.isIntegral = true) (hlow : 0 ≤ x.trunc)
    (hhigh : x.trunc < 2 ^ 53) : x.text = toString x.trunc.toNat := by
  obtain ⟨hfinite, hscaled⟩ := x.isIntegral_iff.mp hintegral
  have hproper : x.exponent ≠ 2047 := by simpa [isFinite] using hfinite
  have hnan : x.isNaN = false := by simp [isNaN, hproper]
  have hinfinite : x.isInfinite = false := by simp [isInfinite, hproper]
  rw [text, hnan, hinfinite, isZero, hfinite, Bool.true_and]
  rcases Int.lt_or_eq_of_le hlow with hpos | hzero
  · obtain ⟨n, hn⟩ := Int.eq_ofNat_of_zero_le hlow
    rw [hn] at hscaled hpos hhigh
    have hunit := one_pos
    have hscale : 0 < (n : Int) * one := Int.mul_pos hpos (Int.natCast_pos.mpr hunit)
    have hsign : x.negative = false := by
      rw [Bool.eq_false_iff]
      intro hnegative
      rw [scaled, if_pos hnegative] at hscaled
      omega
    rw [scaled, hsign, if_neg Bool.false_ne_true, ← Int.natCast_mul, Int.natCast_inj] at hscaled
    rw [beq_eq_false_iff_ne.mpr (by omega), hn, Int.toNat_natCast]
    exact write_of_whole hscaled (by omega) (by omega) hsign
  · rw [← hzero, Int.zero_mul, scaled_eq_zero_iff] at hscaled
    rw [hscaled, ← hzero]
    rfl

end Binary64

end HostBoundary
