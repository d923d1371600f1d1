import LogWatch.Anomaly.Calibration
import Mathlib.Algebra.BigOperators.Ring.List
import Mathlib.Algebra.Order.BigOperators.Group.List
import Mathlib.Algebra.Order.Field.Basic
import Mathlib.Algebra.Order.Field.Rat
import Mathlib.Tactic.FieldSimp
import Mathlib.Tactic.NormNum
import Mathlib.Tactic.Ring

/-!
# Calibration in exact numbers

What calibration does where numbers are exact: those of any ordered field, with a root of the one value whose
root is needed.  Scores that are not all alike come out around 50 with a sample deviation of 10, in their
order, and it does not matter in what unit and from what zero they were measured.

* `Arithmetic.exact`, `calibrateExact?` — calibration in an ordered field;
* `Spread` — the least and the greatest of scores that are not all alike;
* `calibrateExact?_of_spread`, `calibrateExact?_of_not_spread` — calibration in terms of the field;
* `sum_sub_average`, `sampleVariance_pos` — deviations from the average;
* `IsCalibration` — scores that have been calibrated;
* `TakesRoot` — the root that is needed;
* `scores_calibrated_around_fifty` — when scores can be calibrated, and what they are then.
-/

namespace LogWatch.Anomaly

variable {K : Type} [Field K] [LinearOrder K]

/-! ## Exact numbers -/

/-- The numbers of an ordered field, with a function that takes roots. -/
@[reducible]
def Arithmetic.exact (root : K → K) : Arithmetic K where
  ofNat n := n
  sqrt := root
  isDefined _ := true
  below x y := decide (x < y)

/-- Scores of an ordered field calibrated. -/
def calibrateExact? (root : K → K) (raw : List K) : Option (List K) :=
  @calibrate? K (.exact root) raw

/-- The average of some numbers. -/
def average (xs : List K) : K :=
  xs.sum / xs.length

/-- The variance of some numbers, as a sample has it. -/
def sampleVariance (xs : List K) : K :=
  (xs.map fun x => (x - average xs) ^ 2).sum / ((xs.length : K) - 1)

/-- A number between two others, as hundredths of the way from one to the other. -/
def percent (low high x : K) : K :=
  (x - low) / (high - low) * 100

/-- Numbers between two others, as hundredths of the way. -/
def percents (low high : K) (xs : List K) : List K :=
  xs.map (percent low high)

/-- A number moved and scaled like one with a certain average and deviation to 50 and 10. -/
def standard (m d x : K) : K :=
  10 * (x - m) / d + 50

/-! ## The least and the greatest -/

section Spreads

variable {α : Type} [LinearOrder α] {xs : List α} {low high : α}

/-- The least and the greatest of some scores, which are not all alike. -/
structure Spread (raw : List α) (low high : α) : Prop where
  low_mem : low ∈ raw
  high_mem : high ∈ raw
  low_le : ∀ x ∈ raw, low ≤ x
  le_high : ∀ x ∈ raw, x ≤ high
  lt : low < high

theorem Spread.two_le_length (h : Spread xs low high) : 2 ≤ xs.length := by
  obtain ⟨hlow, hhigh, -, -, hlt⟩ := h
  rcases xs with _ | ⟨x, _ | ⟨y, rest⟩⟩
  · cases hlow
  · rw [List.mem_singleton.1 hlow, List.mem_singleton.1 hhigh] at hlt
    exact absurd hlt (lt_irrefl x)
  · simp

theorem Spread.unique {low' high' : α} (h : Spread xs low high) (h' : Spread xs low' high') :
    low = low' ∧ high = high' :=
  ⟨le_antisymm (h.low_le low' h'.low_mem) (h'.low_le low h.low_mem),
    le_antisymm (h'.le_high high h.high_mem) (h.le_high high' h'.high_mem)⟩

/-- Scores have a least and a greatest that differ just when there are two of them that are not alike. -/
theorem exists_spread_iff :
    (∃ low high, Spread xs low high) ↔ ¬ (xs.length < 2 ∨ ∀ x ∈ xs, ∀ y ∈ xs, x = y) := by
  constructor
  · rintro ⟨low, high, h⟩ (hlength | halike)
    · exact absurd h.two_le_length (not_le.2 hlength)
    · exact h.lt.ne (halike low h.low_mem high h.high_mem)
  · intro hnot
    obtain ⟨hlength, hdiffer⟩ := not_or.1 hnot
    have hne : xs ≠ [] := by
      rintro rfl
      exact hlength Nat.zero_lt_two
    obtain ⟨low, hlow⟩ := Option.isSome_iff_exists.1 (List.isSome_min?_of_ne_nil hne)
    obtain ⟨high, hhigh⟩ := Option.isSome_iff_exists.1 (List.isSome_max?_of_ne_nil hne)
    obtain ⟨hlow_mem, hlow_le⟩ := List.min?_eq_some_iff.1 hlow
    obtain ⟨hhigh_mem, hle_high⟩ := List.max?_eq_some_iff.1 hhigh
    refine ⟨low, high, hlow_mem, hhigh_mem, hlow_le, hle_high, lt_of_not_ge fun hle => hdiffer ?_⟩
    -- Between equal bounds all scores are alike.
    intro x hx y hy
    have hall : ∀ z ∈ xs, z = low := fun z hz =>
      le_antisymm ((hle_high z hz).trans hle) (hlow_le z hz)
    rw [hall x hx, hall y hy]

end Spreads

/-! ## Calibration in terms of the field -/

/-- A choice between values that starts from none picks one of them as soon as there is one. -/
theorem foldl_some {α : Type} {f : Option α → α → Option α} {op : α → α → α}
    (h : ∀ y x, f (some y) x = some (op y x)) (x : α) (rest : List α) :
    rest.foldl f (some x) = some (rest.foldl op x) := by
  induction rest generalizing x with
  | nil => rfl
  | cons y rest ih => rw [List.foldl_cons, List.foldl_cons, h, ih]

section Exact

variable (root : K → K) (xs : List K)

theorem total_exact : @total K (.exact root) xs = xs.sum := by
  change xs.foldl (· + ·) ((0 : Nat) : K) = xs.sum
  rw [Nat.cast_zero, List.sum_eq_foldl]

theorem mean_exact : @mean K (.exact root) xs = average xs :=
  congrArg (· / (xs.length : K)) (total_exact root xs)

theorem deviation_exact : @deviation K (.exact root) xs = root (sampleVariance xs) := by
  change root (@total K (.exact root) (xs.map fun x => (x - @mean K (.exact root) xs) *
    (x - @mean K (.exact root) xs)) / ((xs.length : K) - ((1 : Nat) : K))) = _
  rw [mean_exact, total_exact, sampleVariance, Nat.cast_one]
  simp only [pow_two]

theorem below_exact {x y : K} : @Arithmetic.below K (.exact root) x y = true ↔ x < y :=
  decide_eq_true_iff

theorem isZero_exact (x : K) : @isZero K (.exact root) x = true ↔ x = 0 := by
  change (true && !decide (x < ((0 : Nat) : K)) && !decide (((0 : Nat) : K) < x)) = true ↔ x = 0
  rw [Nat.cast_zero, Bool.true_and, Bool.and_eq_true, Bool.not_eq_true', Bool.not_eq_true',
    decide_eq_false_iff_not, decide_eq_false_iff_not, not_lt, not_lt, and_comm, le_antisymm_iff]

theorem least?_exact : @least? K (.exact root) xs = xs.min? := by
  cases xs with
  | nil => rfl
  | cons x rest =>
    refine foldl_some (fun y x => ?_) x rest
    change (if decide (x < y) = true then some x else some y) = some (min y x)
    by_cases h : x < y
    · rw [if_pos (decide_eq_true h), min_eq_right h.le]
    · rw [if_neg fun hlt => h (of_decide_eq_true hlt), min_eq_left (not_lt.1 h)]

theorem greatest?_exact : @greatest? K (.exact root) xs = xs.max? := by
  cases xs with
  | nil => rfl
  | cons x rest =>
    refine foldl_some (fun y x => ?_) x rest
    change (if decide (y < x) = true then some x else some y) = some (max y x)
    by_cases h : y < x
    · rw [if_pos (decide_eq_true h), max_eq_right h.le]
    · rw [if_neg fun hlt => h (of_decide_eq_true hlt), max_eq_left (not_lt.1 h)]

variable {root xs} {low high : K}

/-- Scores that are not all alike are stretched from the least to the greatest of them. -/
theorem calibrateExact?_of_spread (h : Spread xs low high) :
    calibrateExact? root xs =
      if root (sampleVariance (percents low high xs)) = 0 then none
      else some ((percents low high xs).map (standard (average (percents low high xs))
        (root (sampleVariance (percents low high xs))))) := by
  have hdefined : xs.filter (@Arithmetic.isDefined K (.exact root)) = xs :=
    List.filter_eq_self.2 fun _ _ => rfl
  have hlow : xs.min? = some low := List.min?_eq_some_iff.2 ⟨h.low_mem, h.low_le⟩
  have hhigh : xs.max? = some high := List.max?_eq_some_iff.2 ⟨h.high_mem, h.le_high⟩
  have hstretch : @stretch K (.exact root) low high xs = percents low high xs := rfl
  rw [calibrateExact?]
  unfold calibrate?
  rw [if_neg (not_lt.2 h.two_le_length)]
  dsimp only
  rw [hdefined, least?_exact, greatest?_exact, hlow, hhigh]
  dsimp only
  rw [if_pos ((below_exact root).2 h.lt), hstretch, mean_exact, deviation_exact]
  exact if_congr (isZero_exact root _) rfl rfl

/-- Scores that are too few or all alike are not calibrated. -/
theorem calibrateExact?_of_not_spread (h : ¬ ∃ low high, Spread xs low high) :
    calibrateExact? root xs = none := by
  have hdefined : xs.filter (@Arithmetic.isDefined K (.exact root)) = xs :=
    List.filter_eq_self.2 fun _ _ => rfl
  rw [calibrateExact?]
  unfold calibrate?
  split
  · rfl
  · dsimp only
    rw [hdefined, least?_exact, greatest?_exact]
    split
    · rename_i low high hlow hhigh
      obtain ⟨hlow_mem, hlow_le⟩ := List.min?_eq_some_iff.1 hlow
      obtain ⟨hhigh_mem, hle_high⟩ := List.max?_eq_some_iff.1 hhigh
      rw [if_neg fun hlt => h ⟨low, high, hlow_mem, hhigh_mem, hlow_le, hle_high,
        (below_exact root).1 hlt⟩]
    · rfl

end Exact

/-! ## Averages and deviations -/

section Averages

variable [IsStrictOrderedRing K] {xs : List K}

theorem length_ne_zero (h : xs ≠ []) : (xs.length : K) ≠ 0 :=
  Nat.cast_ne_zero.2 fun hlength => h (List.length_eq_zero_iff.1 hlength)

theorem length_sub_one_pos (h : 2 ≤ xs.length) : 0 < (xs.length : K) - 1 :=
  sub_pos.2 (Nat.one_lt_cast.2 h)

/-- Deviations from the average cancel out. -/
theorem sum_sub_average (h : xs ≠ []) : (xs.map fun x => x - average xs).sum = 0 := by
  have hsum : (xs.map fun x => x + -average xs).sum = xs.sum + xs.length * -average xs := by
    rw [List.sum_map_add, List.map_id', List.map_const', List.sum_replicate, nsmul_eq_mul]
  simp only [sub_eq_add_neg]
  rw [hsum, average, mul_neg, mul_div_cancel₀ _ (length_ne_zero h), add_neg_cancel]

/-- Numbers that are not all alike vary. -/
theorem sampleVariance_pos {x y : K} (hlength : 2 ≤ xs.length) (hx : x ∈ xs) (hy : y ∈ xs) (hne : x ≠ y) :
    0 < sampleVariance xs := by
  have hnonneg : ∀ z ∈ xs.map fun x => (x - average xs) ^ 2, 0 ≤ z := by
    intro z hz
    obtain ⟨x, -, rfl⟩ := List.mem_map.1 hz
    exact sq_nonneg _
  refine div_pos (lt_of_le_of_ne (List.sum_nonneg hnonneg) fun hzero => hne ?_)
    (length_sub_one_pos hlength)
  -- Without any deviation each number is the average.
  have haverage : ∀ z ∈ xs, z = average xs := fun z hz =>
    sub_eq_zero.1 (pow_eq_zero_iff two_ne_zero |>.1
      (List.all_zero_of_le_zero_le_of_sum_eq_zero hnonneg hzero.symm (List.mem_map_of_mem hz)))
  rw [haverage x hx, haverage y hy]

theorem sum_sq_sub_average (hlength : 2 ≤ xs.length) :
    (xs.map fun x => (x - average xs) ^ 2).sum = sampleVariance xs * ((xs.length : K) - 1) := by
  rw [sampleVariance, div_mul_cancel₀ _ (length_sub_one_pos hlength).ne']

/-- What is moved and scaled by the average and a number has the average 50. -/
theorem average_standard (h : xs ≠ []) (d : K) : average (xs.map (standard (average xs) d)) = 50 := by
  have hsum : (xs.map (standard (average xs) d)).sum =
      10 / d * (xs.map fun x => x - average xs).sum + xs.length * 50 := by
    rw [← List.sum_map_mul_left, ← nsmul_eq_mul, ← List.sum_replicate, ← List.map_const',
      ← List.sum_map_add]
    refine congrArg List.sum (List.map_congr_left fun x _ => ?_)
    rw [standard, mul_div_right_comm]
  rw [average, hsum, sum_sub_average h, mul_zero, zero_add, List.length_map,
    mul_div_cancel_left₀ _ (length_ne_zero h)]

/-- What is moved and scaled by the average and the deviation has the deviation 10. -/
theorem sum_sq_standard {d : K} (hlength : 2 ≤ xs.length) (hd : d ≠ 0) (hroot : d * d = sampleVariance xs) :
    ((xs.map (standard (average xs) d)).map fun c : K => (c - 50) ^ 2).sum =
      100 * ((xs.length : K) - 1) := by
  have hsum : ((xs.map (standard (average xs) d)).map fun c : K => (c - 50) ^ 2).sum =
      100 / (d * d) * (xs.map fun x => (x - average xs) ^ 2).sum := by
    rw [← List.sum_map_mul_left, List.map_map]
    refine congrArg List.sum (List.map_congr_left fun x _ => ?_)
    rw [Function.comp_apply, standard, add_sub_cancel_right]
    field_simp
    ring
  rw [hsum, sum_sq_sub_average hlength, ← hroot]
  field_simp

theorem percent_strictMono {low high : K} (h : low < high) : StrictMono (percent low high) := by
  intro x y hlt
  have hpos : 0 < high - low := sub_pos.2 h
  rw [percent, percent]
  gcongr

theorem standard_strictMono (m : K) {d : K} (h : 0 < d) : StrictMono (standard m d) := by
  intro x y hlt
  rw [standard, standard]
  gcongr

end Averages

/-! ## Calibrated scores -/

/-- Scores that have been calibrated: as many, with the average 50, the sample deviation 10 and their order. -/
structure IsCalibration (raw calibrated : List K) : Prop where
  length_eq : calibrated.length = raw.length
  mean_eq : calibrated.sum / calibrated.length = 50
  sum_sq_eq : (calibrated.map fun c : K => (c - 50) ^ 2).sum = 100 * ((raw.length : K) - 1)
  lt_iff : ∀ (i j : Nat) (_ : i < raw.length) (_ : j < raw.length) (_ : i < calibrated.length)
    (_ : j < calibrated.length), raw[i] < raw[j] ↔ calibrated[i] < calibrated[j]

/-- A function takes the one root that is needed to calibrate some scores, if they are not all alike: that of
the variance of the scores once they are stretched from the least to the greatest of them. -/
def TakesRoot (root : K → K) (raw : List K) : Prop :=
  ∀ low high, Spread raw low high →
    let v := sampleVariance (percents low high raw)
    0 ≤ root v ∧ root v * root v = v

section Calibrated

variable [IsStrictOrderedRing K] {root : K → K} {raw : List K} {low high : K}

/-- The scores that are stretched are not all alike, so there is something to divide by. -/
theorem Spread.root_pos (h : Spread raw low high) (hroot : TakesRoot root raw) :
    0 < root (sampleVariance (percents low high raw)) := by
  obtain ⟨hnonneg, hsquare⟩ := hroot low high h
  have hpos : 0 < sampleVariance (percents low high raw) := by
    refine sampleVariance_pos ?_ (List.mem_map_of_mem h.low_mem) (List.mem_map_of_mem h.high_mem)
      (percent_strictMono h.lt h.lt).ne
    rw [percents, List.length_map]
    exact h.two_le_length
  refine lt_of_le_of_ne hnonneg fun hzero => hpos.ne ?_
  rw [← hsquare, ← hzero, mul_zero]

theorem Spread.isCalibration (h : Spread raw low high) (hroot : TakesRoot root raw) :
    IsCalibration raw ((percents low high raw).map (standard (average (percents low high raw))
      (root (sampleVariance (percents low high raw))))) := by
  have hlength : (percents low high raw).length = raw.length := List.length_map _
  have htwo : 2 ≤ (percents low high raw).length := hlength ▸ h.two_le_length
  have hne : percents low high raw ≠ [] := by
    rw [← List.length_pos_iff]
    exact Nat.lt_of_lt_of_le Nat.zero_lt_two htwo
  have hpos := h.root_pos hroot
  refine ⟨(List.length_map _).trans hlength, average_standard hne _, ?_, fun i j hi hj hi' hj' => ?_⟩
  · rw [sum_sq_standard htwo hpos.ne' (hroot low high h).2, hlength]
  · rw [List.getElem_map, List.getElem_map, (standard_strictMono _ hpos).lt_iff_lt]
    simp only [percents, List.getElem_map]
    exact (percent_strictMono h.lt).lt_iff_lt.symm

/-! ## Units -/

section Units

variable {a : K} (ha : 0 < a) (b : K)

include ha

theorem spread_affine_iff :
    Spread (raw.map fun x => a * x + b) (a * low + b) (a * high + b) ↔ Spread raw low high := by
  have hle : ∀ x y : K, a * x + b ≤ a * y + b ↔ x ≤ y := fun x y => by
    rw [add_le_add_iff_right, mul_le_mul_iff_right₀ ha]
  have hmem : ∀ x : K, a * x + b ∈ (raw.map fun x => a * x + b) ↔ x ∈ raw := by
    refine fun x => List.mem_map_of_injective fun x y hxy => ?_
    exact le_antisymm ((hle x y).1 hxy.le) ((hle y x).1 hxy.ge)
  constructor
  · rintro ⟨hlow, hhigh, hlow_le, hle_high, hlt⟩
    refine ⟨(hmem low).1 hlow, (hmem high).1 hhigh, fun x hx => ?_, fun x hx => ?_, ?_⟩
    · exact (hle low x).1 (hlow_le _ (List.mem_map_of_mem hx))
    · exact (hle x high).1 (hle_high _ (List.mem_map_of_mem hx))
    · exact lt_of_not_ge fun hge => hlt.not_ge ((hle high low).2 hge)
  · rintro ⟨hlow, hhigh, hlow_le, hle_high, hlt⟩
    refine ⟨(hmem low).2 hlow, (hmem high).2 hhigh, ?_, ?_, ?_⟩
    · rw [List.forall_mem_map]
      exact fun x hx => (hle low x).2 (hlow_le x hx)
    · rw [List.forall_mem_map]
      exact fun x hx => (hle x high).2 (hle_high x hx)
    · exact lt_of_not_ge fun hge => hlt.not_ge ((hle high low).1 hge)

omit [IsStrictOrderedRing K] in
/-- Stretched scores do not tell their unit. -/
theorem percents_affine :
    percents (a * low + b) (a * high + b) (raw.map fun x => a * x + b) = percents low high raw := by
  rw [percents, percents, List.map_map]
  refine List.map_congr_left fun x _ => ?_
  rw [Function.comp_apply, percent, percent, add_sub_add_right_eq_sub, add_sub_add_right_eq_sub, ← mul_sub,
    ← mul_sub, mul_div_mul_left _ _ ha.ne']

theorem calibrateExact?_affine :
    calibrateExact? root (raw.map fun x => a * x + b) = calibrateExact? root raw := by
  by_cases h : ∃ low high, Spread raw low high
  · obtain ⟨low, high, h⟩ := h
    rw [calibrateExact?_of_spread h, calibrateExact?_of_spread ((spread_affine_iff ha b).2 h),
      percents_affine ha]
  · rw [calibrateExact?_of_not_spread h, calibrateExact?_of_not_spread]
    rintro ⟨low, high, hspread⟩
    obtain ⟨x, -, rfl⟩ := List.mem_map.1 hspread.low_mem
    obtain ⟨y, -, rfl⟩ := List.mem_map.1 hspread.high_mem
    exact h ⟨x, y, (spread_affine_iff ha b).1 hspread⟩

end Units

end Calibrated

/-- Scores are calibrated unless there are fewer than two or all are alike.  Calibrated scores are as many and
in the same order, around 50 with a sample deviation of 10, and do not depend on the unit of the raw ones. -/
theorem scores_calibrated_around_fifty [IsStrictOrderedRing K] {root : K → K} {raw : List K}
    (hroot : TakesRoot root raw) :
    (calibrateExact? root raw = none ↔ raw.length < 2 ∨ ∀ x ∈ raw, ∀ y ∈ raw, x = y) ∧
    (∀ calibrated, calibrateExact? root raw = some calibrated → IsCalibration raw calibrated) ∧
    ∀ a b, 0 < a → calibrateExact? root (raw.map fun x => a * x + b) = calibrateExact? root raw := by
  refine ⟨?_, ?_, fun a b ha => calibrateExact?_affine ha b⟩
  · by_cases h : ∃ low high, Spread raw low high
    · have hnot := exists_spread_iff.1 h
      obtain ⟨low, high, h⟩ := h
      rw [calibrateExact?_of_spread h, if_neg (h.root_pos hroot).ne']
      exact iff_of_false (Option.some_ne_none _) hnot
    · exact iff_of_true (calibrateExact?_of_not_spread h) (not_not.1 (mt exists_spread_iff.2 h))
  · intro calibrated hcalibrated
    by_cases h : ∃ low high, Spread raw low high
    · obtain ⟨low, high, h⟩ := h
      rw [calibrateExact?_of_spread h, if_neg (h.root_pos hroot).ne'] at hcalibrated
      cases hcalibrated
      exact h.isCalibration hroot
    · rw [calibrateExact?_of_not_spread h] at hcalibrated
      cases hcalibrated

/-- Three scores of rational numbers, whose deviation is 50 once they are stretched. -/
theorem scores_calibrated_around_fifty_three :
    let raw : List ℚ := [1, 2, 3]
    let root : ℚ → ℚ := fun _ => 50
    TakesRoot root raw ∧ calibrateExact? root raw = some [40, 50, 60] ∧ IsCalibration raw [40, 50, 60] ∧
      calibrateExact? root (raw.map fun x => 2 * x + 3) = some [40, 50, 60] := by
  intro raw root
  have hspread : Spread raw 1 3 := by
    refine ⟨?_, ?_, ?_, ?_, ?_⟩ <;> norm_num [raw]
  have hroot : TakesRoot root raw := by
    intro low high h
    obtain ⟨rfl, rfl⟩ := h.unique hspread
    norm_num [raw, root, sampleVariance, average, percents, percent]
  have heq : calibrateExact? root raw = some [40, 50, 60] := by
    rw [calibrateExact?_of_spread hspread]
    norm_num [raw, root, average, percents, percent, standard]
  obtain ⟨-, hcalibrated, haffine⟩ := scores_calibrated_around_fifty hroot
  exact ⟨hroot, heq, hcalibrated _ heq, (haffine 2 3 two_pos).trans heq⟩

end LogWatch.Anomaly
