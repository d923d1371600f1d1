import LogWatch.Number.Binary
import LogWatch.Proofs.Number.Rounding

/-!
# Doubles below a power of two

Doubles that are finite and at most two to some power, and what becomes of them in sums, differences and
quotients.  Sums of ever more small numbers do not grow without end: from some size on the next one is lost.

* `magnitude_eq` — the bits of a double, and what they stand for in the arithmetic of doubles;
* `unpack_pack` — a double that is put together and taken apart again;
* `isWithin` — finite, and at most two to a power;
* `not_infinity_lt`, `not_lt_neg_infinity` — nothing is greater than infinity, nor less than its opposite;
* `isWithin_add`, `isWithin_sub`, `isWithin_div`, `isWithin_toFloat` — arithmetic and counts.
-/

namespace LogWatch.Number

open Float.Model Float.Model.UnpackedFloat

/-! ## Bits -/

theorem toNat_unpackExponent (b : BitVec 64) :
    (@unpackExponent Format.binary64 b).toNat = b.toNat >>> 52 % 0x800 := by
  simp [unpackExponent]

theorem toNat_unpackMantissa (b : BitVec 64) :
    (@unpackMantissa Format.binary64 b).toNat = b.toNat % 0x10000000000000 := by
  simp [unpackMantissa]

theorem toNat_unpackSign (b : BitVec 64) :
    (@unpackSign Format.binary64 b).toNat = b.toNat >>> 63 % 2 := by
  simp [unpackSign]

/-- Is a sign that of the negative numbers? -/
def isNegative : Sign → Bool
  | .negative => true
  | .positive => false

/-- What a double that has been taken apart stands for. -/
def Magnitude.ofUnpacked : UnpackedFloat → Magnitude
  | .infinity sign => .infinite (isNegative sign)
  | .notANumber => .undefined
  | .zero sign => .finite ⟨isNegative sign, 0, -1074⟩
  | .finite sign m e _ => .finite ⟨isNegative sign, m, e⟩

theorem isNegative_ofBitVec (v : BitVec 1) : isNegative (Sign.ofBitVec v) = (v.toNat == 1) := by
  revert v
  decide

theorem eq_neg_one_iff (v : BitVec 11) : v = -1#11 ↔ v.toNat = 2047 := by
  rw [← BitVec.toNat_inj]
  rfl

theorem eq_zero_iff {n : Nat} (v : BitVec n) : v = 0#n ↔ v.toNat = 0 := by
  rw [← BitVec.toNat_inj, BitVec.toNat_ofNat, Nat.zero_mod]

theorem toNat_implicit_append (v : BitVec 52) : (1#1 ++ v).toNat = v.toNat + 0x10000000000000 := by
  have := v.isLt
  rw [BitVec.toNat_append, ← Nat.shiftLeft_add_eq_or_of_lt v.isLt, Nat.shiftLeft_eq]
  simp
  omega

/-- The bits of a double stand for what it is taken apart into. -/
theorem magnitude_eq (x : Float) : magnitude x = Magnitude.ofUnpacked x.toModel.unpack := by
  show Magnitude.ofBits x.toModel.toBits.toBitVec.toNat =
    Magnitude.ofUnpacked (UnpackedFloat.unpack Format.binary64 x.toModel.toBits.toBitVec)
  generalize x.toModel.toBits.toBitVec = b
  unfold Magnitude.ofBits UnpackedFloat.unpack
  dsimp only
  rw [← toNat_unpackExponent, ← toNat_unpackMantissa, ← toNat_unpackSign]
  by_cases hlast : (@unpackExponent Format.binary64 b).toNat = 2047
  · rw [if_pos hlast, if_pos ((eq_neg_one_iff _).2 hlast)]
    by_cases hzero : (@unpackMantissa Format.binary64 b).toNat = 0
    · rw [if_pos hzero, if_pos ((eq_zero_iff _).2 hzero)]
      simp [Magnitude.ofUnpacked, isNegative_ofBitVec]
    · rw [if_neg hzero, if_neg (mt (eq_zero_iff _).1 hzero)]
      rfl
  · rw [if_neg hlast, if_neg (mt (eq_neg_one_iff _).1 hlast)]
    by_cases hfirst : (@unpackExponent Format.binary64 b).toNat = 0
    · rw [if_pos hfirst, if_pos ((eq_zero_iff _).2 hfirst)]
      by_cases hzero : (@unpackMantissa Format.binary64 b).toNat = 0
      · rw [dif_pos ((eq_zero_iff _).2 hzero), hzero]
        simp [Magnitude.ofUnpacked, isNegative_ofBitVec]
      · rw [dif_neg (mt (eq_zero_iff _).1 hzero), hfirst]
        simp [Magnitude.ofUnpacked, isNegative_ofBitVec, Format.exponentBias]
    · rw [if_neg hfirst, if_neg (mt (eq_zero_iff _).1 hfirst)]
      simp [Magnitude.ofUnpacked, isNegative_ofBitVec, Format.exponentBias, toNat_implicit_append]

/-- The significand is as long as it can be unless the exponent is the least. -/
theorem shape_of_ofBits {bits : Nat} {b : Binary} (h : Magnitude.ofBits bits = .finite b) :
    b.significand < 2 ^ 53 ∧ -1074 ≤ b.exponent ∧ (2 ^ 52 ≤ b.significand ∨ b.exponent = -1074) := by
  unfold Magnitude.ofBits at h
  dsimp only at h
  split at h
  · split at h <;> cases h
  · split at h <;> cases h <;> dsimp only <;> omega

/-! ## Bounds -/

/-- Is a double finite and at most two to a power in absolute value?  The least positive double is the unit
here. -/
def isWithin (k : Nat) (x : Float) : Bool :=
  match magnitude x with
  | .finite b => b.significand * 2 ^ (b.exponent + 1074).toNat ≤ 2 ^ (k + 1074)
  | _ => false

theorem isFinite_of_isWithin {k : Nat} {x : Float} (h : isWithin k x = true) : isFinite x = true := by
  unfold isWithin at h
  unfold isFinite
  cases hmagnitude : magnitude x with
  | finite b => rfl
  | infinite => simp [hmagnitude] at h
  | undefined => simp [hmagnitude] at h

theorem isWithin_iff {k : Nat} {x : Float} : isWithin k x = true ↔ AtMost k x.toModel.unpack := by
  have hshape : ∀ b, magnitude x = .finite b → b.significand < 2 ^ 53 ∧ -1074 ≤ b.exponent ∧
      (2 ^ 52 ≤ b.significand ∨ b.exponent = -1074) := fun b h => shape_of_ofBits h
  unfold isWithin
  rw [magnitude_eq] at hshape ⊢
  generalize x.toModel.unpack = f at hshape ⊢
  cases f with
  | infinity => simp [Magnitude.ofUnpacked, AtMost]
  | notANumber => simp [Magnitude.ofUnpacked, AtMost]
  | zero => simp [Magnitude.ofUnpacked, AtMost]
  | finite sign m e hm =>
    obtain ⟨hlt, hlow, hnormal⟩ := hshape _ rfl
    simp only [Magnitude.ofUnpacked, decide_eq_true_eq]
    constructor
    · intro hle
      exact ⟨hlt, hlow, hnormal, hle⟩
    · intro h
      exact h.le

theorem isWithin_mono {j k : Nat} (hjk : j ≤ k) {x : Float} (h : isWithin j x = true) :
    isWithin k x = true := by
  rw [isWithin_iff] at h ⊢
  exact h.mono hjk

/-! ## Doubles put together -/

/-- The exponent of a double that is at most a power of two. -/
theorem exponent_le_of_fits {k m : Nat} {e : Int} (h : Fits k m e) (hk : k ≤ 1023) : e ≤ 971 := by
  have hlow := h.le_exponent
  rcases h.normal with hnormal | hlowest
  · have hpower : 2 ^ (52 + (e + 1074).toNat) ≤ 2 ^ (k + 1074) := by
      rw [Nat.pow_add]
      exact (Nat.mul_le_mul_right _ hnormal).trans h.le
    have := (Nat.pow_le_pow_iff_right (by decide)).1 hpower
    omega
  · omega

/-- A mantissa of full length is found again without its first bit. -/
theorem unpack_normal {m biased : Nat} (sign : Sign) (hm : 0 < m) (hnormal : 2 ^ 52 ≤ m)
    (hlt : m < 2 ^ 53) (hpos : 0 < biased) (hhigh : biased < 2047) :
    UnpackedFloat.unpack Format.binary64
        (packComponents Format.binary64 sign (BitVec.ofNat 11 biased) (BitVec.ofNat 52 m)) =
      .finite sign m (biased - 1075) hm := by
  have hexponent : (BitVec.ofNat 11 biased).toNat = biased := by
    rw [BitVec.toNat_ofNat, Nat.mod_eq_of_lt (by omega)]
  have hmantissa : (1#1 ++ BitVec.ofNat 52 m).toNat = m := by
    rw [toNat_implicit_append, BitVec.toNat_ofNat]
    omega
  unfold UnpackedFloat.unpack
  simp only [unpackExponent_packComponents, unpackMantissa_packComponents,
    unpackSign_packComponents, Sign.ofBitVec_toBitVec]
  rw [if_neg, if_neg]
  · simp only [UnpackedFloat.finite.injEq, true_and]
    refine ⟨hmantissa, ?_⟩
    rw [hexponent]
    rfl
  · rw [eq_zero_iff, hexponent]
    omega
  · rw [eq_neg_one_iff, hexponent]
    omega

/-- A shorter mantissa has the least exponent. -/
theorem unpack_subnormal {m : Nat} (sign : Sign) (hm : 0 < m) (hlt : m < 2 ^ 52) :
    UnpackedFloat.unpack Format.binary64
        (packComponents Format.binary64 sign 0#11 (BitVec.ofNat 52 m)) =
      .finite sign m (-1074) hm := by
  have hmantissa : (BitVec.ofNat 52 m).toNat = m := by
    rw [BitVec.toNat_ofNat, Nat.mod_eq_of_lt hlt]
  unfold UnpackedFloat.unpack
  simp only [unpackExponent_packComponents, unpackMantissa_packComponents,
    unpackSign_packComponents, Sign.ofBitVec_toBitVec]
  rw [if_neg (by decide), if_pos trivial, dif_neg]
  · simp only [UnpackedFloat.finite.injEq, true_and]
    exact ⟨hmantissa, rfl⟩
  · rw [eq_zero_iff, hmantissa]
    omega

theorem pack_finite {m : Nat} {e : Int} (sign : Sign) (hm : 0 < m) :
    UnpackedFloat.pack Format.binary64 (.finite sign m e hm) =
      if 2 ^ 11 ≤ (e + 1023 + 52).toNat + 1 then packedInfinity Format.binary64 sign
      else if m.log2 + 1 = 53 then
        packComponents Format.binary64 sign (BitVec.ofNat 11 (e + 1023 + 52).toNat) (BitVec.ofNat 52 m)
      else packComponents Format.binary64 sign 0#11 (BitVec.ofNat 52 m) :=
  rfl

/-- A double of at most a power of two is the same when it has been put together and taken apart again. -/
theorem unpack_pack {k : Nat} (hk : k ≤ 1023) {f : UnpackedFloat} (hf : AtMost k f) :
    UnpackedFloat.unpack Format.binary64 (UnpackedFloat.pack Format.binary64 f) = f := by
  cases f with
  | infinity => cases hf
  | notANumber => cases hf
  | zero sign => cases sign <;> rfl
  | finite sign m e hm =>
    have hlow := hf.le_exponent
    have hhigh : e ≤ 971 := exponent_le_of_fits hf hk
    rw [pack_finite, if_neg (by omega)]
    by_cases hlog : m.log2 + 1 = 53
    · have hnormal : 2 ^ 52 ≤ m := by
        have := Nat.log2_self_le hm.ne'
        rwa [Nat.add_right_cancel hlog] at this
      rw [if_pos hlog, unpack_normal sign hm hnormal hf.mantissa_lt (by omega) (by omega)]
      simp only [UnpackedFloat.finite.injEq, true_and]
      omega
    · have hshort : m < 2 ^ 52 := by
        have := log2_lt_of_lt hf.mantissa_lt
        exact (Nat.log2_lt hm.ne').1 (by omega)
      obtain rfl : e = -1074 := hf.normal.resolve_left (Nat.not_le_of_lt hshort)
      rw [if_neg hlog, unpack_subnormal sign hm hshort]

/-! ## Infinities -/

theorem lt_iff_compare {x y : Float} :
    x < y ↔ x.toModel.unpack.compare y.toModel.unpack = some .lt := by
  show Float.lt x y = true ↔ _
  unfold Float.lt
  rw [decide_eq_true_iff]
  show UnpackedFloat.lt _ _ = true ↔ _
  unfold UnpackedFloat.lt
  rw [beq_iff_eq]

theorem not_infinity_lt (x : Float) : ¬(1.0 / 0.0 : Float) < x := by
  have hinfinity : (1.0 / 0.0 : Float).toModel.unpack = .infinity .positive := rfl
  rw [lt_iff_compare, hinfinity]
  cases x.toModel.unpack with
  | infinity sign => cases sign <;> decide
  | _ => simp [UnpackedFloat.compare]

theorem not_lt_neg_infinity (x : Float) : ¬x < (-1.0 / 0.0 : Float) := by
  have hinfinity : (-1.0 / 0.0 : Float).toModel.unpack = .infinity .negative := rfl
  rw [lt_iff_compare, hinfinity]
  cases x.toModel.unpack with
  | infinity sign => cases sign <;> decide
  | finite sign => cases sign <;> simp [UnpackedFloat.compare]
  | _ => simp [UnpackedFloat.compare]

/-! ## Arithmetic -/

theorem unpack_ofModel_pack {k : Nat} (hk : k ≤ 1023) {f : UnpackedFloat} (hf : AtMost k f) :
    (Float.ofModel (Float.Model.pack f)).toModel.unpack = f :=
  unpack_pack hk hf

/-- A sum stays within a power of two which the bounds of its parts exceed only a little. -/
theorem isWithin_add {i j k : Nat} (hk : k ≤ 1023)
    (hle : 2 ^ (i + 1074) + 2 ^ (j + 1074) ≤ 2 ^ (k + 1074) + 2 ^ (k + 1021)) {x y : Float}
    (hx : isWithin i x = true) (hy : isWithin j y = true) : isWithin k (x + y) = true := by
  rw [isWithin_iff] at hx hy ⊢
  have hsum := atMost_add hle hx hy
  exact (unpack_ofModel_pack hk hsum).symm ▸ hsum

/-- A difference is at most twice as large as its parts may be. -/
theorem isWithin_sub {k : Nat} (hk : k + 1 ≤ 1023) {x y : Float} (hx : isWithin k x = true)
    (hy : isWithin k y = true) : isWithin (k + 1) (x - y) = true := by
  rw [isWithin_iff] at hx hy ⊢
  have hdifference : AtMost (k + 1)
      (UnpackedFloat.sub Format.binary64 x.toModel.unpack y.toModel.unpack) := by
    rw [sub_eq_add_neg]
    apply atMost_add _ hx (atMost_neg hy)
    have htwice : 2 ^ (k + 1 + 1074) = 2 ^ (k + 1074) * 2 := by
      rw [Nat.add_right_comm, Nat.pow_succ]
    rw [htwice, ← Nat.mul_two]
    exact Nat.le_add_right ..
  exact (unpack_ofModel_pack hk hdifference).symm ▸ hdifference

/-- The double of a count. -/
theorem isWithin_toFloat (n : UInt64) : isWithin 64 n.toFloat = true := by
  rw [isWithin_iff]
  have hcount : AtMost 64 (UnpackedFloat.ofNat Format.binary64 n.toNat) :=
    atMost_ofNat (Nat.le_of_lt n.toNat_lt)
  exact (unpack_ofModel_pack (by decide) hcount).symm ▸ hcount

/-- A quotient by a count is at most twice as large as what is divided may be. -/
theorem isWithin_div {k : Nat} (hk : k + 1 ≤ 1023) {x : Float} (hx : isWithin k x = true) {n : UInt64}
    (hn : n ≠ 0) : isWithin (k + 1) (x / n.toFloat) = true := by
  rw [isWithin_iff] at hx ⊢
  have hcount : n.toFloat.toModel.unpack = UnpackedFloat.ofNat Format.binary64 n.toNat :=
    unpack_ofModel_pack (by decide) (atMost_ofNat (Nat.le_of_lt n.toNat_lt))
  have hone : AtLeastOne n.toFloat.toModel.unpack := by
    rw [hcount]
    apply atLeastOne_ofNat
    intro hzero
    exact hn (UInt64.toNat_inj.1 hzero)
  have hquotient := atMost_div hx hone
  exact (unpack_ofModel_pack hk hquotient).symm ▸ hquotient

end LogWatch.Number
