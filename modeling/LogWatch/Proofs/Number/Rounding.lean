import Mathlib

/-!
# Rounding below a power of two

Doubles are computed with exactly and then rounded to the nearest one.  What this file needs of it is that
no result passes a power of two that its exact value does not pass, and that a sum stays at the power of two
which its larger part reaches when the other part is small enough to be lost.

* `roundedMantissa_bounds`, `roundedMantissa_of_low` — what is cut off adds at most one, and nothing when it
  is at most half of an even mantissa;
* `Fits`, `AtMost` — a double that is at most a power of two, taken apart;
* `atMost_roundWithAccuracy_of_le`, `atMost_round` — rounding below a power of two, and up to a little above
  it;
* `atMost_add`, `atMost_div`, `atMost_ofNat` — sums, quotients and counts.
-/

namespace LogWatch.Number

open Float.Model Float.Model.UnpackedFloat

/-! ## Shifted mantissas -/

theorem mantissa_shiftRight (em : ExtendedMantissa) (n : Nat) :
    (em >>> n).mantissa = em.mantissa / 2 ^ n := by
  induction n with
  | zero => simp [HShiftRight.hShiftRight, Nat.repeat]
  | succ n ih =>
    show (em >>> n).mantissa / 2 = _
    rw [ih, Nat.div_div_eq_div_mul, Nat.pow_succ]

/-- An exact mantissa that is shifted knows the bit that was cut off last and whether anything was cut off
before it. -/
theorem exact_shiftRight_succ (m n : Nat) :
    (⟨m, false, false⟩ : ExtendedMantissa) >>> (n + 1) =
      ⟨m / 2 ^ (n + 1), m / 2 ^ n % 2 != 0, m % 2 ^ n != 0⟩ := by
  induction n with
  | zero => simp [HShiftRight.hShiftRight, Nat.repeat, ExtendedMantissa.shiftRightOne, Nat.mod_one]
  | succ n ih =>
    show ((⟨m, false, false⟩ : ExtendedMantissa) >>> (n + 1)).shiftRightOne = _
    rw [ih]
    unfold ExtendedMantissa.shiftRightOne
    have hsticky : ((m / 2 ^ n % 2 != 0) || (m % 2 ^ n != 0)) = (m % 2 ^ (n + 1) != 0) := by
      rw [Bool.eq_iff_iff, Nat.mod_pow_succ]
      have hpos : 0 < 2 ^ n := Nat.two_pow_pos n
      simp
      omega
    rw [hsticky, Nat.div_div_eq_div_mul, ← Nat.pow_succ]

/-- Rounding adds at most one to a mantissa. -/
theorem roundedMantissa_bounds (em : ExtendedMantissa) :
    em.mantissa ≤ em.roundedMantissa ∧ em.roundedMantissa ≤ em.mantissa + 1 := by
  obtain ⟨m, round, sticky⟩ := em
  unfold ExtendedMantissa.roundedMantissa
  cases round <;> cases sticky <;>
    simp only [ExtendedMantissa.accuracy, Accuracy.roundToNearestEven] <;> omega

/-- What is cut off an even mantissa is lost when it is at most a half. -/
theorem roundedMantissa_of_low {m n : Nat} (heven : m / 2 ^ n % 2 = 0) (hlow : 2 * (m % 2 ^ n) ≤ 2 ^ n) :
    ((⟨m, false, false⟩ : ExtendedMantissa) >>> n).roundedMantissa = m / 2 ^ n := by
  cases n with
  | zero => simp [HShiftRight.hShiftRight, Nat.repeat, ExtendedMantissa.roundedMantissa,
      ExtendedMantissa.accuracy, Accuracy.roundToNearestEven]
  | succ n =>
    rw [exact_shiftRight_succ]
    rw [Nat.mod_pow_succ, Nat.pow_succ] at hlow
    by_cases hround : m / 2 ^ n % 2 = 0
    · rw [hround]
      cases m % 2 ^ n != 0 <;> rfl
    · have hone : m / 2 ^ n % 2 = 1 := by omega
      have hsticky : m % 2 ^ n = 0 := by
        rw [hone] at hlow
        omega
      rw [hone, hsticky]
      show m / 2 ^ (n + 1) + m / 2 ^ (n + 1) % 2 = m / 2 ^ (n + 1)
      rw [heven, Nat.add_zero]

/-! ## Rounded doubles -/

/-- The mantissa and the exponent of a double that is at most two to a power. -/
structure Fits (k m : Nat) (e : Int) : Prop where
  mantissa_lt : m < 2 ^ 53
  le_exponent : -1074 ≤ e
  normal : 2 ^ 52 ≤ m ∨ e = -1074
  le : m * 2 ^ (e + 1074).toNat ≤ 2 ^ (k + 1074)

/-- A double that is at most two to a power, taken apart. -/
def AtMost (k : Nat) : UnpackedFloat → Prop
  | .zero _ => True
  | .finite _ m e _ => Fits k m e
  | .infinity _ => False
  | .notANumber => False

theorem targetExponent_binary64 (total : Int) :
    Format.binary64.targetExponent total = max (total - 53) (-1074) := by
  simp [Format.targetExponent, Format.mantissaBits, Format.minExponent]

theorem two_pow_log2_add_le {m : Nat} (hm : m ≠ 0) (n : Nat) : 2 ^ (m.log2 + n) ≤ m * 2 ^ n := by
  rw [Nat.pow_add]
  exact Nat.mul_le_mul_right _ (Nat.log2_self_le hm)

theorem lt_two_pow_log2_add (m n : Nat) : m * 2 ^ n < 2 ^ (m.log2 + 1 + n) := by
  rw [Nat.pow_add]
  exact Nat.mul_lt_mul_of_pos_right Nat.lt_log2_self (Nat.two_pow_pos n)

theorem log2_lt_of_lt {m n : Nat} (h : m < 2 ^ (n + 1)) : m.log2 < n + 1 := by
  by_cases hm : m = 0
  · simp [hm]
  · exact (Nat.log2_lt hm).2 h

theorem shiftToTargetExponent_eq (m : Nat) (e : Int) (accuracy : Accuracy) :
    shiftToTargetExponent Format.binary64 m e accuracy =
      (ExtendedMantissa.ofMantissaAndAccuracy m accuracy >>>
          (Format.binary64.targetExponent (totalExponent m e) - e).toNat,
        e + (Format.binary64.targetExponent (totalExponent m e) - e).toNat) :=
  rfl

theorem shiftToTargetExponent_of_lt {m : Nat} {e : Int} (hm : m < 2 ^ 53) (he : -1074 ≤ e) :
    shiftToTargetExponent Format.binary64 m e .exact = (⟨m, false, false⟩, e) := by
  have hlog : m.log2 < 53 := log2_lt_of_lt hm
  have hshift : (Format.binary64.targetExponent (totalExponent m e) - e).toNat = 0 := by
    rw [targetExponent_binary64]
    unfold totalExponent
    omega
  rw [shiftToTargetExponent_eq, hshift]
  simp [HShiftRight.hShiftRight, Nat.repeat, ExtendedMantissa.ofMantissaAndAccuracy]

theorem shiftToTargetExponent_two_pow {e : Int} (he : -1074 ≤ e) :
    shiftToTargetExponent Format.binary64 (2 ^ 53) e .exact = (⟨2 ^ 52, false, false⟩, e + 1) := by
  have hshift : (Format.binary64.targetExponent (totalExponent (2 ^ 53) e) - e).toNat = 1 := by
    rw [targetExponent_binary64]
    unfold totalExponent
    rw [Nat.log2_two_pow]
    omega
  rw [shiftToTargetExponent_eq, hshift]
  rfl

/-- A double is made of the rounded mantissa; one that has become too long gives its last bit to the
exponent. -/
theorem roundWithAccuracy_eq {m r : Nat} {e t : Int} (sign : Sign) (accuracy : Accuracy)
    (ht : Format.binary64.targetExponent (totalExponent m e) = t) (he : e ≤ t)
    (hr : (ExtendedMantissa.ofMantissaAndAccuracy m accuracy >>> (t - e).toNat).roundedMantissa = r)
    (hrange : r ≤ 2 ^ 53) :
    roundWithAccuracy Format.binary64 sign m e accuracy =
      if h : r = 0 then .zero sign
      else if r < 2 ^ 53 then .finite sign r t (Nat.pos_of_ne_zero h)
      else .finite sign (2 ^ 52) (t + 1) (Nat.two_pow_pos 52) := by
  have hlow : -1074 ≤ t := by
    rw [← ht, targetExponent_binary64]
    omega
  have hexponent : e + ((t - e).toNat : Int) = t := by omega
  unfold roundWithAccuracy
  rw [shiftToTargetExponent_eq, ht, hexponent]
  dsimp only
  rw [hr]
  by_cases hlt : r < 2 ^ 53
  · rw [shiftToTargetExponent_of_lt hlt hlow]
    simp only [hlt, if_true]
  · obtain rfl : r = 2 ^ 53 := by omega
    rw [shiftToTargetExponent_two_pow hlow]
    rfl

/-- A rounded mantissa makes a double of at most a power of two, if it is not too long for it. -/
theorem atMost_of_roundedMantissa {k m r : Nat} {e t : Int} (sign : Sign) (accuracy : Accuracy)
    (ht : Format.binary64.targetExponent (totalExponent m e) = t) (he : e ≤ t)
    (hr : (ExtendedMantissa.ofMantissaAndAccuracy m accuracy >>> (t - e).toNat).roundedMantissa = r)
    (hrange : r ≤ 2 ^ 53) (hnormal : 2 ^ 52 ≤ r ∨ t = -1074)
    (hle : r * 2 ^ (t + 1074).toNat ≤ 2 ^ (k + 1074)) :
    AtMost k (roundWithAccuracy Format.binary64 sign m e accuracy) := by
  have hlow : -1074 ≤ t := by
    rw [← ht, targetExponent_binary64]
    omega
  rw [roundWithAccuracy_eq sign accuracy ht he hr hrange]
  split
  · trivial
  · split
    · rename_i hlt
      exact ⟨hlt, hlow, hnormal, hle⟩
    · obtain rfl : r = 2 ^ 53 := by omega
      have hunit : (t + 1 + 1074).toNat = (t + 1074).toNat + 1 := by omega
      refine ⟨by decide, by omega, Or.inl (le_refl _), ?_⟩
      rw [hunit, Nat.pow_succ]
      calc 2 ^ 52 * (2 ^ (t + 1074).toNat * 2) = 2 ^ 53 * 2 ^ (t + 1074).toNat := by ring
        _ ≤ 2 ^ (k + 1074) := hle

/-! ## Bounds -/

theorem mantissa_ofMantissaAndAccuracy (m : Nat) (accuracy : Accuracy) :
    (ExtendedMantissa.ofMantissaAndAccuracy m accuracy).mantissa = m := by
  cases accuracy with
  | exact => rfl
  | inexact o => cases o <;> rfl

theorem div_two_pow_lt {m d : Nat} (h : m.log2 ≤ 52 + d) : m / 2 ^ d < 2 ^ 53 := by
  apply Nat.div_lt_of_lt_mul
  rw [← Nat.pow_add]
  have hm : m < 2 ^ (m.log2 + 1) := Nat.lt_log2_self
  exact lt_of_lt_of_le hm (Nat.pow_le_pow_right (by decide) (by omega))

theorem le_div_two_pow {m d : Nat} (hm : m ≠ 0) (h : m.log2 = 52 + d) : 2 ^ 52 ≤ m / 2 ^ d := by
  rw [Nat.le_div_iff_mul_le (Nat.two_pow_pos d), ← Nat.pow_add, ← h]
  exact Nat.log2_self_le hm

/-- What lies below a power of two is not rounded beyond it. -/
theorem atMost_roundWithAccuracy_of_le {k m : Nat} {e : Int} (sign : Sign) (accuracy : Accuracy)
    (he : e ≤ Format.binary64.targetExponent (totalExponent m e)) (htotal : totalExponent m e ≤ k) :
    AtMost k (roundWithAccuracy Format.binary64 sign m e accuracy) := by
  generalize ht : Format.binary64.targetExponent (totalExponent m e) = t at he
  have hmax : t = max (totalExponent m e - 53) (-1074) := by rw [← ht, targetExponent_binary64]
  unfold totalExponent at hmax htotal
  have hr := roundedMantissa_bounds
    (ExtendedMantissa.ofMantissaAndAccuracy m accuracy >>> (t - e).toNat)
  rw [mantissa_shiftRight, mantissa_ofMantissaAndAccuracy] at hr
  have hq : m / 2 ^ (t - e).toNat < 2 ^ 53 := div_two_pow_lt (by omega)
  apply atMost_of_roundedMantissa sign accuracy ht he rfl (by omega)
  · by_cases hlow : t = -1074
    · exact Or.inr hlow
    · have hm : m ≠ 0 := by
        rintro rfl
        simp at hmax
        omega
      have hnormal : 2 ^ 52 ≤ m / 2 ^ (t - e).toNat := le_div_two_pow hm (by omega)
      exact Or.inl (by omega)
  · calc _ ≤ 2 ^ 53 * 2 ^ (t + 1074).toNat := Nat.mul_le_mul_right _ (by omega)
      _ = 2 ^ (53 + (t + 1074).toNat) := (Nat.pow_add ..).symm
      _ ≤ 2 ^ (k + 1074) := Nat.pow_le_pow_right (by decide) (by omega)

/-- A power of two that exceeds another one only a little does not exceed it. -/
theorem lt_of_two_pow_le {n k : Nat} (h : 2 ^ n ≤ 2 ^ (k + 1074) + 2 ^ (k + 1021)) : n < k + 1075 := by
  have hhalf : 2 ^ (k + 1021) < 2 ^ (k + 1074) := Nat.pow_lt_pow_right (by decide) (by omega)
  have htwice : 2 ^ (k + 1075) = 2 ^ (k + 1074) * 2 := Nat.pow_succ ..
  have hlt : 2 ^ n < 2 ^ (k + 1075) := by omega
  exact (Nat.pow_lt_pow_iff_right (by decide)).1 hlt

/-- In units of the last bit that is kept, a small excess is at most a half. -/
theorem two_mul_le_of_excess {k m d j : Nat} (hkept : k + 1074 = 52 + d + j) (hlost : k + 1022 = d + j)
    (hle : m * 2 ^ j ≤ 2 ^ (k + 1074) + 2 ^ (k + 1021)) : 2 * m ≤ (2 ^ 53 + 1) * 2 ^ d := by
  have hpower : 2 ^ (k + 1074) = 2 ^ 52 * 2 ^ d * 2 ^ j := by
    rw [hkept, Nat.pow_add, Nat.pow_add]
  have hexcess : 2 * 2 ^ (k + 1021) = 2 ^ d * 2 ^ j := by
    rw [← Nat.pow_add, ← hlost, ← Nat.pow_succ']
  apply Nat.le_of_mul_le_mul_right _ (Nat.two_pow_pos j)
  calc 2 * m * 2 ^ j = 2 * (m * 2 ^ j) := Nat.mul_assoc ..
    _ ≤ 2 * 2 ^ (k + 1074) + 2 * 2 ^ (k + 1021) := by omega
    _ = (2 ^ 53 + 1) * 2 ^ d * 2 ^ j := by rw [hpower, hexcess]; ring

/-- An excess of at most a half is lost, since the power of two has an even mantissa. -/
theorem roundedMantissa_of_excess {m d : Nat} (hm : m ≠ 0) (hlog : m.log2 = 52 + d)
    (htwice : 2 * m ≤ (2 ^ 53 + 1) * 2 ^ d) :
    ((⟨m, false, false⟩ : ExtendedMantissa) >>> d).roundedMantissa = 2 ^ 52 := by
  have hquotient : m / 2 ^ d = 2 ^ 52 := by
    have hnormal : 2 ^ 52 ≤ m / 2 ^ d := le_div_two_pow hm hlog
    have hless : m / 2 ^ d < 2 ^ 52 + 1 := by
      apply Nat.div_lt_of_lt_mul
      have := Nat.two_pow_pos d
      ring_nf at htwice ⊢
      omega
    omega
  have hdivmod := Nat.div_add_mod m (2 ^ d)
  rw [hquotient] at hdivmod
  rw [roundedMantissa_of_low, hquotient]
  · omega
  · ring_nf at htwice hdivmod ⊢
    omega

/-- What exceeds a power of two by no more than half of the distance to the next double is rounded to the
power. -/
theorem atMost_roundWithAccuracy_exact {k m : Nat} {e : Int} (sign : Sign) (hm : m ≠ 0)
    (hlow : -1074 ≤ e) (he : e ≤ Format.binary64.targetExponent (totalExponent m e))
    (hle : m * 2 ^ (e + 1074).toNat ≤ 2 ^ (k + 1074) + 2 ^ (k + 1021)) :
    AtMost k (roundWithAccuracy Format.binary64 sign m e .exact) := by
  generalize hj : (e + 1074).toNat = j at hle
  have hlog : 2 ^ (m.log2 + j) ≤ m * 2 ^ j := two_pow_log2_add_le hm j
  by_cases hbelow : m.log2 + j < k + 1074
  · apply atMost_roundWithAccuracy_of_le sign .exact he
    unfold totalExponent
    omega
  have hsum : m.log2 + j < k + 1075 := lt_of_two_pow_le (hlog.trans hle)
  generalize ht : Format.binary64.targetExponent (totalExponent m e) = t at he
  have hmax : t = max (totalExponent m e - 53) (-1074) := by rw [← ht, targetExponent_binary64]
  unfold totalExponent at hmax
  have htwice : 2 * m ≤ (2 ^ 53 + 1) * 2 ^ (t - e).toNat :=
    two_mul_le_of_excess (by omega) (by omega) hle
  have hrounded := roundedMantissa_of_excess hm (by omega) htwice
  apply atMost_of_roundedMantissa sign .exact ht he hrounded (by decide) (Or.inl (le_refl _))
  rw [← Nat.pow_add]
  exact Nat.pow_le_pow_right (by decide) (by omega)

/-- A double that is at least one, taken apart. -/
def AtLeastOne : UnpackedFloat → Prop
  | .finite _ m e _ => 0 ≤ m.log2 + e
  | _ => False

/-- What is one or more is not rounded below one. -/
theorem atLeastOne_roundWithAccuracy {m : Nat} {e : Int} (sign : Sign) (accuracy : Accuracy) (hm : m ≠ 0)
    (he : e ≤ Format.binary64.targetExponent (totalExponent m e)) (hone : 0 ≤ m.log2 + e) :
    AtLeastOne (roundWithAccuracy Format.binary64 sign m e accuracy) := by
  generalize ht : Format.binary64.targetExponent (totalExponent m e) = t at he
  have hmax : t = max (totalExponent m e - 53) (-1074) := by rw [← ht, targetExponent_binary64]
  unfold totalExponent at hmax
  have hr := roundedMantissa_bounds
    (ExtendedMantissa.ofMantissaAndAccuracy m accuracy >>> (t - e).toNat)
  rw [mantissa_shiftRight, mantissa_ofMantissaAndAccuracy] at hr
  have hq : m / 2 ^ (t - e).toNat < 2 ^ 53 := div_two_pow_lt (by omega)
  have hnormal : 2 ^ 52 ≤ m / 2 ^ (t - e).toNat := le_div_two_pow hm (by omega)
  generalize hrounded :
    (ExtendedMantissa.ofMantissaAndAccuracy m accuracy >>> (t - e).toNat).roundedMantissa = r at hr
  rw [roundWithAccuracy_eq sign accuracy ht he hrounded (by omega), dif_neg (by omega)]
  split
  · have hlog : 52 ≤ r.log2 := (Nat.le_log2 (by omega)).2 (by omega)
    show 0 ≤ (r.log2 : Int) + t
    omega
  · show 0 ≤ ((2 ^ 52).log2 : Int) + (t + 1)
    rw [Nat.log2_two_pow]
    omega

/-! ## Operations -/

theorem log2_mul_two_pow {m : Nat} (hm : m ≠ 0) (n : Nat) : (m * 2 ^ n).log2 = m.log2 + n := by
  rw [Nat.log2_eq_iff (Nat.mul_ne_zero hm (Nat.two_pow_pos n).ne')]
  rw [Nat.add_right_comm]
  exact ⟨two_pow_log2_add_le hm n, lt_two_pow_log2_add m n⟩

/-- A lower exponent makes up for itself in the mantissa. -/
theorem decreaseExponent_units {m : Nat} {e target : Int} (hlow : -1074 ≤ target) (he : target ≤ e) :
    (decreaseExponent m e target).1 * 2 ^ (target + 1074).toNat = m * 2 ^ (e + 1074).toNat := by
  have hunits : (e + 1074).toNat = (e - target).toNat + (target + 1074).toNat := by omega
  unfold decreaseExponent
  dsimp only
  rw [Nat.shiftLeft_eq, hunits, Nat.pow_add, Nat.mul_assoc]

/-- Rounding first makes the mantissa long enough. -/
theorem round_eq {m : Nat} {e : Int} (sign : Sign) (hm : m ≠ 0) (hlow : -1074 ≤ e) :
    ∃ n f, round Format.binary64 sign m e = roundWithAccuracy Format.binary64 sign n f .exact ∧
      n ≠ 0 ∧ -1074 ≤ f ∧ f ≤ Format.binary64.targetExponent (totalExponent n f) ∧
      n.log2 + f = m.log2 + e ∧ n * 2 ^ (f + 1074).toNat = m * 2 ^ (e + 1074).toNat := by
  generalize ht : Format.binary64.targetExponent (totalExponent m e) = t
  have hlowest : -1074 ≤ t := by
    rw [← ht, targetExponent_binary64]
    omega
  have hround : round Format.binary64 sign m e =
      roundWithAccuracy Format.binary64 sign (m <<< (e - t).toNat) (e - (e - t).toNat) .exact := by
    rw [← ht]
    rfl
  rw [Nat.shiftLeft_eq] at hround
  have hlog := log2_mul_two_pow hm (e - t).toNat
  have htotal : totalExponent (m * 2 ^ (e - t).toNat) (e - (e - t).toNat) = totalExponent m e := by
    unfold totalExponent
    omega
  refine ⟨_, _, hround, ?_, ?_, ?_, ?_, ?_⟩
  · exact Nat.mul_ne_zero hm (Nat.two_pow_pos _).ne'
  · omega
  · rw [htotal, ht]
    omega
  · omega
  · have hunits : (e + 1074).toNat = (e - t).toNat + (e - (e - t).toNat + 1074).toNat := by omega
    rw [Nat.mul_assoc, ← Nat.pow_add, ← hunits]

theorem atMost_round {k m : Nat} {e : Int} (sign : Sign) (hm : m ≠ 0) (hlow : -1074 ≤ e)
    (hle : m * 2 ^ (e + 1074).toNat ≤ 2 ^ (k + 1074) + 2 ^ (k + 1021)) :
    AtMost k (round Format.binary64 sign m e) := by
  obtain ⟨n, f, hround, hn, hf, htarget, -, hunits⟩ := round_eq sign hm hlow
  rw [hround]
  exact atMost_roundWithAccuracy_exact sign hn hf htarget (by rwa [hunits])

theorem atLeastOne_round {m : Nat} {e : Int} (sign : Sign) (hm : m ≠ 0) (hlow : -1074 ≤ e)
    (hone : 0 ≤ m.log2 + e) : AtLeastOne (round Format.binary64 sign m e) := by
  obtain ⟨n, f, hround, hn, -, htarget, hlog, -⟩ := round_eq sign hm hlow
  rw [hround]
  exact atLeastOne_roundWithAccuracy sign .exact hn htarget (by omega)

theorem atMost_normalize {k : Nat} {n e : Int} (zeroSign : Sign) (hlow : -1074 ≤ e)
    (hle : n.natAbs * 2 ^ (e + 1074).toNat ≤ 2 ^ (k + 1074) + 2 ^ (k + 1021)) :
    AtMost k (UnpackedFloat.normalize Format.binary64 n e zeroSign) := by
  unfold UnpackedFloat.normalize
  split
  · rename_i hneg
    rw [Int.compare_eq_lt] at hneg
    have habs : (-n).toNat = n.natAbs := by omega
    rw [habs]
    exact atMost_round .negative (by omega) hlow hle
  · trivial
  · rename_i hpos
    rw [Int.compare_eq_gt] at hpos
    have habs : n.toNat = n.natAbs := by omega
    rw [habs]
    exact atMost_round .positive (by omega) hlow hle

theorem AtMost.mono {j k : Nat} (hjk : j ≤ k) {x : UnpackedFloat} (hx : AtMost j x) : AtMost k x := by
  cases x with
  | zero => trivial
  | finite =>
    have hpower : 2 ^ (j + 1074) ≤ 2 ^ (k + 1074) := Nat.pow_le_pow_right (by decide) (by omega)
    exact ⟨hx.mantissa_lt, hx.le_exponent, hx.normal, hx.le.trans hpower⟩
  | infinity => cases hx
  | notANumber => cases hx

theorem natAbs_apply (sign : Sign) (n : Nat) : (sign.apply n).natAbs = n := by
  cases sign <;> simp [Sign.apply]

/-- A sum is at most a power of two which the bounds of its parts exceed only a little. -/
theorem atMost_add {i j k : Nat} (hle : 2 ^ (i + 1074) + 2 ^ (j + 1074) ≤ 2 ^ (k + 1074) + 2 ^ (k + 1021))
    {x y : UnpackedFloat} (hx : AtMost i x) (hy : AtMost j y) :
    AtMost k (UnpackedFloat.add Format.binary64 x y) := by
  have hik : i + 1074 < k + 1075 := lt_of_two_pow_le ((Nat.le_add_right ..).trans hle)
  have hjk : j + 1074 < k + 1075 := lt_of_two_pow_le ((Nat.le_add_left ..).trans hle)
  cases x with
  | infinity => cases hx
  | notANumber => cases hx
  | zero s =>
    cases y with
    | infinity => cases hy
    | notANumber => cases hy
    | zero t =>
      show AtMost k (if s == t then .zero s else .zero .positive)
      split <;> exact True.intro
    | finite => exact hy.mono (by omega)
  | finite s₁ m₁ e₁ =>
    cases y with
    | infinity => cases hy
    | notANumber => cases hy
    | zero => exact hx.mono (by omega)
    | finite s₂ m₂ e₂ =>
      have hlow₁ := hx.le_exponent
      have hlow₂ := hy.le_exponent
      have hlow : -1074 ≤ min e₁ e₂ := by omega
      have hunits₁ := decreaseExponent_units (m := m₁) hlow (Int.min_le_left e₁ e₂)
      have hunits₂ := decreaseExponent_units (m := m₂) hlow (Int.min_le_right e₁ e₂)
      show AtMost k (UnpackedFloat.normalize Format.binary64
        (s₁.apply (decreaseExponent m₁ e₁ (min e₁ e₂)).1 +
          s₂.apply (decreaseExponent m₂ e₂ (min e₁ e₂)).1) (min e₁ e₂) .positive)
      apply atMost_normalize .positive hlow
      generalize (decreaseExponent m₁ e₁ (min e₁ e₂)).1 = n₁ at hunits₁ ⊢
      generalize (decreaseExponent m₂ e₂ (min e₁ e₂)).1 = n₂ at hunits₂ ⊢
      have habs : (s₁.apply n₁ + s₂.apply n₂).natAbs ≤ n₁ + n₂ := by
        have := Int.natAbs_add_le (s₁.apply n₁) (s₂.apply n₂)
        rwa [natAbs_apply, natAbs_apply] at this
      calc _ ≤ (n₁ + n₂) * 2 ^ (min e₁ e₂ + 1074).toNat := Nat.mul_le_mul_right _ habs
        _ = m₁ * 2 ^ (e₁ + 1074).toNat + m₂ * 2 ^ (e₂ + 1074).toNat := by
          rw [Nat.add_mul, hunits₁, hunits₂]
        _ ≤ 2 ^ (i + 1074) + 2 ^ (j + 1074) := Nat.add_le_add hx.le hy.le
        _ ≤ 2 ^ (k + 1074) + 2 ^ (k + 1021) := hle

theorem atMost_neg {k : Nat} {x : UnpackedFloat} (hx : AtMost k x) : AtMost k x.neg := by
  cases x with
  | infinity => cases hx
  | notANumber => cases hx
  | zero => trivial
  | finite => exact hx

/-- A difference is the sum with the opposite. -/
theorem sub_eq_add_neg (x y : UnpackedFloat) :
    UnpackedFloat.sub Format.binary64 x y = UnpackedFloat.add Format.binary64 x y.neg := by
  have happly : ∀ (s : Sign) (n : Int), (-s).apply n = -s.apply n := by
    intro s n
    cases s with
    | positive => rfl
    | negative => exact (Int.neg_neg n).symm
  cases x with
  | finite s₁ m₁ e₁ =>
    cases y with
    | finite s₂ m₂ e₂ =>
      unfold UnpackedFloat.sub UnpackedFloat.neg UnpackedFloat.add
      simp only [happly, Int.sub_eq_add_neg]
    | _ => rfl
  | _ => cases y <;> rfl

theorem log2_add_le_of_fits {k m : Nat} {e : Int} (h : Fits k m e) (hm : m ≠ 0) : m.log2 + e ≤ k := by
  have hlow := h.le_exponent
  have hlog := (two_pow_log2_add_le hm (e + 1074).toNat).trans h.le
  have hpower := (Nat.pow_le_pow_iff_right (by decide)).1 hlog
  omega

/-- The bits of a quotient of whole numbers. -/
theorem log2_div_bounds {m n : Nat} (hm : m ≠ 0) (hn : n ≠ 0) (shift : Nat) :
    m.log2 + shift ≤ (m * 2 ^ shift / n).log2 + n.log2 + 1 ∧
      (m * 2 ^ shift / n ≠ 0 → (m * 2 ^ shift / n).log2 + n.log2 ≤ m.log2 + shift) := by
  generalize hq : m * 2 ^ shift / n = q
  constructor
  · have hlt : 2 ^ (m.log2 + shift) < 2 ^ (q.log2 + 1 + (n.log2 + 1)) := by
      calc 2 ^ (m.log2 + shift) ≤ m * 2 ^ shift := two_pow_log2_add_le hm shift
        _ < (q + 1) * n := by
          rw [← hq, Nat.mul_comm (_ + 1)]
          exact Nat.lt_mul_div_succ _ (Nat.pos_of_ne_zero hn)
        _ ≤ 2 ^ (q.log2 + 1) * 2 ^ (n.log2 + 1) :=
          Nat.mul_le_mul Nat.lt_log2_self (Nat.le_of_lt Nat.lt_log2_self)
        _ = 2 ^ (q.log2 + 1 + (n.log2 + 1)) := (Nat.pow_add ..).symm
    have := (Nat.pow_lt_pow_iff_right (by decide)).1 hlt
    omega
  · intro hzero
    have hlt : 2 ^ (q.log2 + n.log2) < 2 ^ (m.log2 + 1 + shift) := by
      calc 2 ^ (q.log2 + n.log2) = 2 ^ q.log2 * 2 ^ n.log2 := Nat.pow_add ..
        _ ≤ q * n := Nat.mul_le_mul (Nat.log2_self_le hzero) (Nat.log2_self_le hn)
        _ ≤ m * 2 ^ shift := by
          rw [← hq]
          exact Nat.div_mul_le_self ..
        _ < 2 ^ (m.log2 + 1 + shift) := lt_two_pow_log2_add m shift
    have := (Nat.pow_lt_pow_iff_right (by decide)).1 hlt
    omega

/-- A quotient by one or more is at most twice the power of two that bounds what is divided. -/
theorem atMost_div {k : Nat} {x y : UnpackedFloat} (hx : AtMost k x) (hy : AtLeastOne y) :
    AtMost (k + 1) (UnpackedFloat.div Format.binary64 x y) := by
  obtain ⟨sign, n, f, hn⟩ : ∃ sign n f hn, y = .finite sign n f hn := by
    cases y with
    | finite sign n f hn => exact ⟨sign, n, f, hn, rfl⟩
    | _ => cases hy
  obtain ⟨hn, rfl⟩ := hn
  have hone : 0 ≤ n.log2 + f := hy
  cases x with
  | infinity => cases hx
  | notANumber => cases hx
  | zero => trivial
  | finite s m e hm =>
    have hbound := log2_add_le_of_fits hx hm.ne'
    unfold UnpackedFloat.div divCore
    dsimp only
    generalize htarget : min (e - f) (Format.binary64.targetExponent
      (totalExponent m e - totalExponent n f)) = t
    rw [targetExponent_binary64] at htarget
    unfold totalExponent at htarget
    rw [Nat.shiftLeft_eq]
    obtain ⟨hlower, hupper⟩ := log2_div_bounds hm.ne' hn.ne' (e - f - t).toNat
    generalize m * 2 ^ (e - f - t).toNat / n = q at hlower hupper ⊢
    apply atMost_roundWithAccuracy_of_le
    · rw [targetExponent_binary64]
      unfold totalExponent
      omega
    · unfold totalExponent
      by_cases hq : q = 0
      · rw [hq, Nat.log2_zero]
        omega
      · have := hupper hq
        omega

/-- A count is a double of at most the power of two that bounds it. -/
theorem atMost_ofNat {k n : Nat} (hn : n ≤ 2 ^ k) : AtMost k (UnpackedFloat.ofNat Format.binary64 n) := by
  apply atMost_normalize .positive (by decide)
  generalize hunit : ((0 : Int) + 1074).toNat = unit
  have hsum : k + 1074 = k + unit := by omega
  rw [hsum, Nat.pow_add]
  exact (Nat.mul_le_mul_right _ hn).trans (Nat.le_add_right ..)

theorem atLeastOne_ofNat {n : Nat} (hn : n ≠ 0) : AtLeastOne (UnpackedFloat.ofNat Format.binary64 n) := by
  have hpos : compare (n : Int) 0 = .gt := Int.compare_eq_gt.2 (by omega)
  have hround : UnpackedFloat.ofNat Format.binary64 n = round Format.binary64 .positive n 0 := by
    show UnpackedFloat.normalize Format.binary64 (n : Int) 0 .positive = _
    unfold UnpackedFloat.normalize
    rw [hpos]
    rfl
  rw [hround]
  exact atLeastOne_round .positive hn (by decide) (by omega)

end LogWatch.Number
