import HostBoundary.Tagged
import Mathlib

namespace HostBoundary

variable {n : Int} {x : Binary64}

lemma div_le_roundHalfEven (num den : Nat) :
    num / den ≤ roundHalfEven num den ∧ roundHalfEven num den ≤ num / den + 1 := by
  unfold roundHalfEven
  dsimp only
  repeat' split
  all_goals omega

section Half

variable (num : Nat) {den : Nat} (hden : 0 < den)

include hden

lemma roundHalfEven_cases :
    ∃ q r, num = q * den + r ∧ r < den ∧
      (roundHalfEven num den = q ∧ 2 * r ≤ den ∨ roundHalfEven num den = q + 1 ∧ den ≤ 2 * r) ∧
      (2 * r = den → roundHalfEven num den % 2 = 0) := by
  refine ⟨num / den, num % den, (Nat.div_add_mod' num den).symm, Nat.mod_lt _ hden, ?_⟩
  unfold roundHalfEven
  dsimp only
  split
  · exact ⟨.inl ⟨rfl, by omega⟩, by omega⟩
  · split
    · exact ⟨.inr ⟨rfl, by omega⟩, by omega⟩
    · refine ⟨?_, fun _ => by omega⟩
      rcases Nat.mod_two_eq_zero_or_one (num / den) with h | h
      · exact .inl ⟨by rw [h, Nat.add_zero], by omega⟩
      · exact .inr ⟨by rw [h], by omega⟩

-- No other multiple is closer, and where one is as close the even one has been taken.
lemma roundHalfEven_closest (k : Nat) :
    (roundHalfEven num den * den).dist num ≤ (k * den).dist num ∧
    (k ≠ roundHalfEven num den → (k * den).dist num = (roundHalfEven num den * den).dist num →
      roundHalfEven num den % 2 = 0) := by
  obtain ⟨q, r, hnum, hr, hcases, heven⟩ := roundHalfEven_cases num hden
  have hnext : (q + 1) * den = q * den + den := Nat.succ_mul q den
  have hk : k < q ∧ k * den + den ≤ q * den ∨ k = q ∨ k = q + 1 ∨
      q + 1 < k ∧ q * den + den + den ≤ k * den := by
    rcases lt_trichotomy k q with h | h | h
    · exact .inl ⟨h, Nat.succ_mul k den ▸ Nat.mul_le_mul_right den h⟩
    · exact .inr (.inl h)
    · rcases Nat.eq_or_lt_of_le h with h | h
      · exact .inr (.inr (.inl h.symm))
      · refine .inr (.inr (.inr ⟨h, ?_⟩))
        rw [← hnext, ← Nat.succ_mul]
        exact Nat.mul_le_mul_right den h
  unfold Nat.dist
  generalize roundHalfEven num den = kept at hcases heven ⊢
  rcases hk with ⟨hk, hle⟩ | rfl | rfl | ⟨hk, hle⟩ <;>
    rcases hcases with ⟨rfl, hhalf⟩ | ⟨rfl, hhalf⟩ <;> omega

end Half

namespace BinaryFormat

variable (f : BinaryFormat) (num den : Nat)

def shift : Nat := (num * Nat.pow 2 f.scale / den).log2 - f.fraction

def kept : Nat := roundHalfEven (num * Nat.pow 2 f.scale) (den * Nat.pow 2 (f.shift num den))

variable {num den}

lemma le_quotient (hshift : 0 < f.shift num den) :
    Nat.pow 2 f.fraction * Nat.pow 2 (f.shift num den) ≤ num * Nat.pow 2 f.scale / den := by
  have heq : f.shift num den = (num * Nat.pow 2 f.scale / den).log2 - f.fraction := rfl
  generalize num * Nat.pow 2 f.scale / den = quotient at heq ⊢
  calc Nat.pow 2 f.fraction * Nat.pow 2 (f.shift num den)
      = Nat.pow 2 (f.fraction + f.shift num den) := (Nat.pow_add ..).symm
    _ = Nat.pow 2 quotient.log2 := by congr 1; omega
    _ ≤ quotient := Nat.log2_self_le (by rintro rfl; simp at heq; omega)

-- A significand has one bit more than the fraction, unless it is subnormal. The bound is
-- reached when rounding carries.
lemma kept_bounds (num den : Nat) : f.kept num den ≤ 2 * Nat.pow 2 f.fraction ∧
    (f.shift num den = 0 ∨ Nat.pow 2 f.fraction ≤ f.kept num den) := by
  obtain ⟨hlow, hhigh⟩ :=
    div_le_roundHalfEven (num * Nat.pow 2 f.scale) (den * Nat.pow 2 (f.shift num den))
  rw [← Nat.div_div_eq_div_mul] at hlow hhigh
  change _ ≤ f.kept num den at hlow
  change f.kept num den ≤ _ at hhigh
  constructor
  · have hlt : num * Nat.pow 2 f.scale / den <
        Nat.pow 2 (f.shift num den) * (2 * Nat.pow 2 f.fraction) := by
      have heq : f.shift num den = (num * Nat.pow 2 f.scale / den).log2 - f.fraction := rfl
      generalize num * Nat.pow 2 f.scale / den = quotient at heq ⊢
      calc quotient < Nat.pow 2 (quotient.log2 + 1) := Nat.lt_log2_self
        _ ≤ Nat.pow 2 (f.shift num den + (1 + f.fraction)) :=
          Nat.pow_le_pow_right Nat.zero_lt_two (by omega)
        _ = Nat.pow 2 (f.shift num den) * (2 * Nat.pow 2 f.fraction) := by
          simp only [Nat.pow_eq, Nat.pow_add, Nat.pow_one]
    have := Nat.div_lt_of_lt_mul hlt
    omega
  · have hunit : 0 < Nat.pow 2 (f.shift num den) := Nat.two_pow_pos _
    refine (Nat.eq_zero_or_pos (f.shift num den)).imp id fun hpos => Nat.le_trans ?_ hlow
    rw [Nat.le_div_iff_mul_le hunit]
    exact f.le_quotient hpos

-- Fields that are a shift and a significand: the hidden bit is one step of the exponent.
lemma magnitude_fields {shift kept : Nat} (hkept : kept ≤ 2 * Nat.pow 2 f.fraction)
    (hnormal : shift = 0 ∨ Nat.pow 2 f.fraction ≤ kept)
    (hfits : shift * Nat.pow 2 f.fraction + kept < f.signBit) :
    f.magnitude (shift * Nat.pow 2 f.fraction + kept) = kept * Nat.pow 2 shift := by
  have hunit : 0 < Nat.pow 2 f.fraction := Nat.two_pow_pos _
  unfold signBit at hfits
  unfold magnitude
  dsimp only
  generalize Nat.pow 2 f.fraction = unit at *
  have hexponent : (shift * unit + kept) / unit % (f.top + 1) = shift + kept / unit := by
    rw [Nat.mul_comm, Nat.mul_add_div hunit, Nat.mod_eq_of_lt]
    rw [← Nat.mul_add_div hunit, Nat.div_lt_iff_lt_mul hunit, Nat.mul_comm unit]
    exact hfits
  have hfraction : (shift * unit + kept) % unit = kept % unit := by
    rw [Nat.mul_comm, Nat.mul_add_mod]
  rw [hexponent, hfraction]
  rcases Nat.lt_or_ge kept unit with hsmall | hlarge
  · obtain rfl := hnormal.resolve_right (Nat.not_le.mpr hsmall)
    simp [Nat.div_eq_of_lt hsmall, Nat.mod_eq_of_lt hsmall]
  · rcases Nat.eq_or_lt_of_le hkept with rfl | hless
    · -- The carry has moved the significand to the next power of two.
      rw [Nat.mul_div_cancel _ hunit, Nat.mul_mod_left, if_neg (by omega)]
      simp only [Nat.pow_eq, Nat.add_zero, show shift + 2 - 1 = shift + 1 from rfl, Nat.pow_succ]
      ring
    · have hdiv : kept / unit = 1 := Nat.div_eq_of_lt_le (by omega) (by omega)
      have hmod : kept % unit = kept - unit := by
        rw [Nat.mod_eq_sub_mod hlarge, Nat.mod_eq_of_lt (by omega)]
      rw [hdiv, hmod, if_neg (by omega), Nat.add_sub_cancel, Nat.add_sub_cancel' hlarge]

lemma dvd_magnitude {word s : Nat}
    (hlarge : Nat.pow 2 f.fraction * Nat.pow 2 s ≤ f.magnitude word) :
    Nat.pow 2 s ∣ f.magnitude word := by
  have hfraction : word % Nat.pow 2 f.fraction < Nat.pow 2 f.fraction :=
    Nat.mod_lt _ (Nat.two_pow_pos _)
  unfold magnitude at *
  dsimp only at *
  split at hlarge
  · -- A subnormal number is below all that are this large.
    have hunit : 0 < Nat.pow 2 s := Nat.two_pow_pos s
    have := Nat.le_mul_of_pos_right (Nat.pow 2 f.fraction) hunit
    omega
  · rename_i hexponent
    rw [if_neg hexponent]
    generalize word / Nat.pow 2 f.fraction % (f.top + 1) - 1 = exponent at *
    refine Dvd.dvd.mul_left (Nat.pow_dvd_pow 2 ?_) _
    by_contra hlt
    have hdouble : 2 * Nat.pow 2 exponent ≤ Nat.pow 2 s := by
      rw [Nat.mul_comm]
      exact Nat.pow_le_pow_right Nat.zero_lt_two (show exponent + 1 ≤ s by omega)
    have hbound := Nat.le_trans (Nat.mul_le_mul_left _ hdouble) hlarge
    rw [← Nat.mul_assoc] at hbound
    have := Nat.le_of_mul_le_mul_right hbound (Nat.two_pow_pos _)
    omega

section Closest

variable (hfits : f.shift num den * Nat.pow 2 f.fraction + f.kept num den < f.infinity)

include hfits

lemma round_of_fits : f.round num den = f.shift num den * Nat.pow 2 f.fraction + f.kept num den :=
  Nat.min_eq_left (Nat.le_of_lt hfits)

lemma magnitude_round :
    f.magnitude (f.round num den) = f.kept num den * Nat.pow 2 (f.shift num den) := by
  obtain ⟨hkept, hnormal⟩ := f.kept_bounds num den
  rw [f.round_of_fits hfits]
  refine f.magnitude_fields hkept hnormal (Nat.lt_of_lt_of_le hfits ?_)
  exact Nat.mul_le_mul_right _ (Nat.le_succ _)

-- No number of the format is closer to the quotient, and where one is as close the significand
-- is even.
lemma round_closest (hden : 0 < den) (word : Nat) :
    (f.magnitude (f.round num den) * den).dist (num * Nat.pow 2 f.scale) ≤
      (f.magnitude word * den).dist (num * Nat.pow 2 f.scale) ∧
    (f.magnitude word ≠ f.magnitude (f.round num den) →
      (f.magnitude word * den).dist (num * Nat.pow 2 f.scale) =
        (f.magnitude (f.round num den) * den).dist (num * Nat.pow 2 f.scale) →
      f.kept num den % 2 = 0) := by
  have hunit : 0 < Nat.pow 2 (f.shift num den) := Nat.two_pow_pos _
  have hnearest := roundHalfEven_closest (num * Nat.pow 2 f.scale) (Nat.mul_pos hden hunit)
  change ∀ k, (f.kept num den * _).dist _ ≤ _ ∧ (k ≠ f.kept num den → _ =
    (f.kept num den * _).dist _ → f.kept num den % 2 = 0) at hnearest
  have hself : f.kept num den * (den * Nat.pow 2 (f.shift num den)) =
      f.magnitude (f.round num den) * den := by
    rw [f.magnitude_round hfits]
    ring
  rw [hself] at hnearest
  by_cases hdvd : Nat.pow 2 (f.shift num den) ∣ f.magnitude word
  · -- A multiple of the unit is no closer than the nearest multiple.
    obtain ⟨k, hk⟩ := hdvd
    have hother : k * (den * Nat.pow 2 (f.shift num den)) = f.magnitude word * den := by
      rw [hk]
      ring
    rw [← hother]
    refine ⟨(hnearest k).1, fun hne => (hnearest k).2 ?_⟩
    rintro rfl
    exact hne (Nat.eq_of_mul_eq_mul_right hden (hother.symm.trans hself))
  · -- What is no multiple of it lies below all significands of this size.
    have hpos : 0 < f.shift num den := by
      rcases Nat.eq_zero_or_pos (f.shift num den) with hzero | hpos
      · exact absurd (hzero ▸ Nat.one_dvd _) hdvd
      · exact hpos
    have hsmall := Nat.lt_of_not_le fun hle => hdvd (f.dvd_magnitude hle)
    have hle := (Nat.le_div_iff_mul_le hden).mp (f.le_quotient hpos)
    have hlt := Nat.mul_lt_mul_of_pos_right hsmall hden
    have hbest := (hnearest (Nat.pow 2 f.fraction)).1
    rw [show Nat.pow 2 f.fraction * (den * Nat.pow 2 (f.shift num den)) =
      Nat.pow 2 f.fraction * Nat.pow 2 (f.shift num den) * den by ring] at hbest
    unfold Nat.dist at hbest ⊢
    omega

end Closest

lemma magnitude_signBit_add (word : Nat) : f.magnitude (f.signBit + word) = f.magnitude word := by
  have hunit : 0 < Nat.pow 2 f.fraction := Nat.two_pow_pos _
  unfold magnitude signBit
  simp only [Nat.mul_comm _ (Nat.pow 2 f.fraction), Nat.mul_add_div hunit, Nat.mul_add_mod,
    Nat.add_mod_left]

section Whole

variable {bits : Nat} (hnum : num < Nat.pow 2 bits)

include hnum

lemma shift_le : f.shift num 1 ≤ bits + f.scale - f.fraction := by
  unfold shift
  rw [Nat.div_one]
  rcases Nat.eq_zero_or_pos (num * Nat.pow 2 f.scale) with hzero | hpos
  · rw [hzero, Nat.log2_zero]
    omega
  · have hlt : num * Nat.pow 2 f.scale < Nat.pow 2 (bits + f.scale) := by
      simp only [Nat.pow_eq, Nat.pow_add]
      exact Nat.mul_lt_mul_of_pos_right hnum (Nat.two_pow_pos _)
    have := (Nat.log2_lt (Nat.ne_of_gt hpos)).mpr hlt
    omega

lemma whole_fits (hbits : bits + f.scale - f.fraction + 2 < f.top) :
    f.shift num 1 * Nat.pow 2 f.fraction + f.kept num 1 < f.infinity := by
  have hunit : 0 < Nat.pow 2 f.fraction := Nat.two_pow_pos _
  have hshift := f.shift_le hnum
  have hkept := (f.kept_bounds num 1).1
  have hstep : (f.shift num 1 + 2) * Nat.pow 2 f.fraction < f.top * Nat.pow 2 f.fraction :=
    Nat.mul_lt_mul_of_pos_right (by omega) hunit
  rw [Nat.add_mul] at hstep
  exact Nat.lt_of_le_of_lt (Nat.add_le_add_left hkept _) hstep

lemma magnitude_round_whole (hbits : bits ≤ f.fraction)
    (hfits : f.shift num 1 * Nat.pow 2 f.fraction + f.kept num 1 < f.infinity) :
    f.magnitude (f.round num 1) = num * Nat.pow 2 f.scale := by
  have hdvd : Nat.pow 2 (f.shift num 1) ∣ num * Nat.pow 2 f.scale :=
    Dvd.dvd.mul_left (Nat.pow_dvd_pow 2 (by have := f.shift_le hnum; omega)) num
  obtain ⟨k, hk⟩ := hdvd
  have hunit : 0 < 1 * Nat.pow 2 (f.shift num 1) := by
    rw [Nat.one_mul]
    exact Nat.two_pow_pos _
  have hnearest := (roundHalfEven_closest (num * Nat.pow 2 f.scale) hunit k).1
  change (f.kept num 1 * _).dist _ ≤ _ at hnearest
  rw [f.magnitude_round hfits]
  simp only [Nat.one_mul, Nat.mul_comm k, ← hk, Nat.dist_self, Nat.le_zero] at hnearest
  exact Nat.eq_of_dist_eq_zero hnearest

end Whole

end BinaryFormat

namespace Binary64

lemma one_pos : 0 < one := by decide +kernel

lemma one_eq : one = Nat.pow 2 BinaryFormat.double.scale := by decide +kernel

section Fields

variable (sign : Bool) {fields : Nat} (hfields : fields < BinaryFormat.double.infinity)

include hfields

lemma toNat_ofFields :
    (ofFields sign fields).bits.toNat = (if sign then 2 ^ 63 else 0) + fields := by
  have hlt : fields < 2047 * 2 ^ 52 := hfields
  refine UInt64.toNat_ofNat_of_lt' ?_
  simp only [UInt64.size]
  split <;> omega

lemma negative_ofFields : (ofFields sign fields).negative = sign := by
  have hlt : fields < 2047 * 2 ^ 52 := hfields
  rw [negative, toNat_ofFields sign hfields]
  cases sign
  · simp
    omega
  · simp

lemma magnitude_ofFields :
    (ofFields sign fields).magnitude = BinaryFormat.double.magnitude fields := by
  rw [magnitude, toNat_ofFields sign hfields]
  cases sign with
  | false => simp
  | true => exact BinaryFormat.double.magnitude_signBit_add fields

lemma isFinite_ofFields : (ofFields sign fields).isFinite = true := by
  have hlt : fields < 2047 * 2 ^ 52 := hfields
  rw [isFinite, exponent, toNat_ofFields sign hfields, bne_iff_ne]
  split <;> omega

lemma fraction_ofFields : (ofFields sign fields).fraction = fields % 2 ^ 52 := by
  rw [fraction, toNat_ofFields sign hfields]
  split <;> omega

end Fields

-- The double nearest to an integer. In the middle between two of them it is the one with the
-- even significand.
structure Nearest (x : Binary64) (n : Int) : Prop where
  finite : x.isFinite = true
  closest : ∀ y : Binary64, y.isFinite = true →
    (x.scaled - n * one).natAbs ≤ (y.scaled - n * one).natAbs
  even : ∀ y : Binary64, y.isFinite = true → y.scaled ≠ x.scaled →
    (y.scaled - n * one).natAbs = (x.scaled - n * one).natAbs → x.fraction % 2 = 0

lemma round_fits (hn : n.natAbs ≤ 2 ^ 64) :
    BinaryFormat.double.shift n.natAbs 1 * Nat.pow 2 52 + BinaryFormat.double.kept n.natAbs 1 <
      BinaryFormat.double.infinity := by
  have hlt : n.natAbs < Nat.pow 2 65 := Nat.lt_of_le_of_lt hn (by decide)
  exact BinaryFormat.double.whole_fits hlt (by decide)

lemma scaled_ofRatio (sign : Bool) {num den : Nat}
    (hfits : BinaryFormat.double.round num den < BinaryFormat.double.infinity) :
    (ofRatio sign num den).scaled =
      if sign then -(BinaryFormat.double.magnitude (BinaryFormat.double.round num den) : Int)
      else BinaryFormat.double.magnitude (BinaryFormat.double.round num den) := by
  rw [scaled, ofRatio, negative_ofFields sign hfits, magnitude_ofFields sign hfits]

lemma scaled_eq (x : Binary64) : x.scaled = x.magnitude ∨ x.scaled = -(x.magnitude : Int) := by
  unfold scaled
  split
  · exact .inr rfl
  · exact .inl rfl

lemma closest_of_dist {a b m : Nat} {x y : Int}
    (hsame : x = a ∧ n = m ∨ x = -(a : Int) ∧ n = -(m : Int)) (hy : y = b ∨ y = -(b : Int))
    (hclosest : a.dist m ≤ b.dist m) (hzero : a.dist m ≤ m) :
    (x - n).natAbs ≤ (y - n).natAbs ∧
    (y ≠ x → (y - n).natAbs = (x - n).natAbs → b ≠ a ∧ b.dist m = a.dist m) := by
  unfold Nat.dist at *
  omega

lemma ofInt_signed {rounded : Nat}
    (hfits : BinaryFormat.double.round n.natAbs 1 < BinaryFormat.double.infinity)
    (hrounded : BinaryFormat.double.magnitude (BinaryFormat.double.round n.natAbs 1) = rounded) :
    (ofInt n).scaled = rounded ∧ n * one = (n.natAbs * one : Nat) ∨
      (ofInt n).scaled = -(rounded : Int) ∧ n * one = -((n.natAbs * one : Nat) : Int) := by
  have hscaled : (ofInt n).scaled = _ := scaled_ofRatio (n < 0) hfits
  rw [hscaled, hrounded, Int.natCast_mul]
  rcases lt_or_ge n 0 with h | h
  · refine .inr ⟨by simp [h], ?_⟩
    rw [Int.ofNat_natAbs_of_nonpos (le_of_lt h), Int.neg_mul, Int.neg_neg]
  · exact .inl ⟨by simp [h], by rw [Int.natAbs_of_nonneg h]⟩

lemma nearest_ofInt (hn : n.natAbs ≤ 2 ^ 64) : (ofInt n).Nearest n := by
  have hfits := round_fits hn
  have hround := BinaryFormat.double.round_of_fits hfits
  have hfinite : BinaryFormat.double.round n.natAbs 1 < BinaryFormat.double.infinity :=
    hround ▸ hfits
  have hsame := ofInt_signed hfinite rfl
  have hclosest := BinaryFormat.double.round_closest hfits Nat.one_pos
  simp only [Nat.mul_one, ← one_eq] at hclosest
  have hzero : _ ≤ Nat.dist 0 _ := (hclosest 0).1
  rw [Nat.dist_eq_sub_of_le (Nat.zero_le _), Nat.sub_zero] at hzero
  refine ⟨isFinite_ofFields _ hfinite, fun y _ => ?_, fun y _ hne htie => ?_⟩
  · exact (closest_of_dist hsame y.scaled_eq (hclosest y.bits.toNat).1 hzero).1
  · obtain ⟨hother, hdist⟩ :=
      (closest_of_dist hsame y.scaled_eq (hclosest y.bits.toNat).1 hzero).2 hne htie
    have heven := (hclosest y.bits.toNat).2 hother hdist
    have hfraction : (ofInt n).fraction = _ := fraction_ofFields (n < 0) hfinite
    rw [hfraction, hround]
    change (_ * 2 ^ 52 + _) % 2 ^ 52 % 2 = 0
    omega

lemma scaled_ofInt (hn : n.natAbs < 2 ^ 52) : (ofInt n).scaled = n * one := by
  have hfits := round_fits (Nat.le_of_lt (Nat.lt_trans hn (by decide)))
  have hexact := BinaryFormat.double.magnitude_round_whole hn (Nat.le_refl 52) hfits
  rw [← one_eq] at hexact
  rcases ofInt_signed (BinaryFormat.double.round_of_fits hfits ▸ hfits) hexact with
    ⟨hs, hn⟩ | ⟨hs, hn⟩
  · rw [hs, hn]
  · rw [hs, hn]

lemma isIntegral_iff (x : Binary64) :
    x.isIntegral = true ↔ x.isFinite = true ∧ x.scaled = x.trunc * one := by
  unfold isIntegral
  rw [Bool.and_eq_true_iff, beq_iff_eq]
  refine and_congr_right fun hfinite => ?_
  rw [trunc, if_pos hfinite, ← Nat.dvd_iff_mod_eq_zero, eq_comm]
  have hdvd : one ∣ x.magnitude ↔ (one : Int) ∣ x.scaled := by
    rcases x.scaled_eq with h | h
    · rw [h, Int.natCast_dvd_natCast]
    · rw [h, Int.dvd_neg, Int.natCast_dvd_natCast]
  rw [hdvd]
  exact ⟨Int.tdiv_mul_cancel, fun h => ⟨_, (h.symm.trans (Int.mul_comm _ _))⟩⟩

lemma trunc_of_scaled (hfinite : x.isFinite = true) (hscaled : x.scaled = n * one) :
    x.isIntegral = true ∧ x.trunc = n := by
  have htrunc : x.trunc = n := by
    rw [trunc, if_pos hfinite, hscaled]
    exact Int.mul_tdiv_cancel n (Int.natCast_ne_zero.mpr (Nat.ne_of_gt one_pos))
  exact ⟨x.isIntegral_iff.mpr ⟨hfinite, htrunc.symm ▸ hscaled⟩, htrunc⟩

-- The integer that a double equals. Negative zero equals none.
structure Equals (x : Binary64) (n : Int) : Prop where
  finite : x.isFinite = true
  value : x.scaled = n * one
  sign : n = 0 → x.negative = false

lemma scaled_eq_zero_iff (x : Binary64) : x.scaled = 0 ↔ x.magnitude = 0 := by
  rcases x.scaled_eq with h | h <;> rw [h] <;> omega

lemma equals_iff (x : Binary64) (n : Int) :
    x.Equals n ↔ x.isIntegral = true ∧ (x.isZero && x.negative) = false ∧ x.trunc = n := by
  have hzero : n * one = 0 ↔ n = 0 := by
    rw [Int.mul_eq_zero, or_iff_left (Int.natCast_ne_zero.mpr (Nat.ne_of_gt one_pos))]
  constructor
  · intro hx
    obtain ⟨hintegral, htrunc⟩ := trunc_of_scaled hx.finite hx.value
    refine ⟨hintegral, Bool.eq_false_iff.mpr fun hnegative => ?_, htrunc⟩
    obtain ⟨hiszero, hnegative⟩ := Bool.and_eq_true_iff.mp hnegative
    have hmagnitude := beq_iff_eq.mp (Bool.and_eq_true_iff.mp hiszero).2
    rw [← scaled_eq_zero_iff, hx.value, hzero] at hmagnitude
    exact Bool.eq_false_iff.mp (hx.sign hmagnitude) hnegative
  · rintro ⟨hintegral, hsign, rfl⟩
    obtain ⟨hfinite, hvalue⟩ := x.isIntegral_iff.mp hintegral
    refine ⟨hfinite, hvalue, fun htrunc => ?_⟩
    rw [← hzero, ← hvalue, scaled_eq_zero_iff] at htrunc
    simpa [isZero, hfinite, htrunc] using hsign

def Word (n : Int) : Prop := -2 ^ 31 ≤ n ∧ n < 2 ^ 31

-- Rounding does not take an integer to one of 32 bits: the first beyond them are doubles too.
lemma Nearest.not_equals {m : Int} (hx : x.Nearest m) (hm : ¬ Word m) (hn : Word n) :
    ¬ x.Equals n := by
  intro hequals
  have hcloser : ∀ k : Int, k.natAbs < 2 ^ 52 → (n - m).natAbs ≤ (k - m).natAbs := by
    intro k hk
    have hfinite := (nearest_ofInt (Nat.le_of_lt (Nat.lt_trans hk (by decide)))).finite
    have hle := hx.closest (ofInt k) hfinite
    rw [hequals.value, scaled_ofInt hk, ← Int.sub_mul, ← Int.sub_mul, Int.natAbs_mul,
      Int.natAbs_mul, Int.natAbs_natCast] at hle
    exact Nat.le_of_mul_le_mul_right hle one_pos
  have hhigh := hcloser (2 ^ 31) (by decide)
  have hlow := hcloser (-2 ^ 31 - 1) (by decide)
  unfold Word at hm hn
  omega

end Binary64

namespace Tagged

variable {x : Binary64}

lemma ofNumber_of_equals (hx : x.Equals n) (hn : Binary64.Word n) :
    ofNumber x = .int (Int32.ofInt n) := by
  obtain ⟨hintegral, hsign, rfl⟩ := (x.equals_iff n).mp hx
  obtain ⟨hlow, hhigh⟩ := hn
  rw [ofNumber, if_pos]
  simp only [hintegral, hsign, Bool.not_false, Bool.and_self, Bool.true_and, Bool.and_eq_true,
    decide_eq_true_eq]
  omega

lemma ofNumber_of_not_equals (hx : ∀ n, Binary64.Word n → ¬ x.Equals n) :
    ofNumber x = .float x := by
  rw [ofNumber, if_neg]
  simp only [Bool.and_eq_true, decide_eq_true_eq, Bool.not_eq_true']
  rintro ⟨⟨⟨hintegral, hsign⟩, hlow⟩, hhigh⟩
  exact hx x.trunc ⟨hlow, by omega⟩ ((x.equals_iff _).mpr ⟨hintegral, hsign, rfl⟩)

end Tagged

end HostBoundary
