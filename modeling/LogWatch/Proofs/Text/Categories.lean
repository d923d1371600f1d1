import LogWatch.Text.Basic
import LogWatch.Text.Unicode.Properties
import Mathlib.Data.List.Chain
import Mathlib.Data.List.GetD
import Mathlib.Data.List.Infix

/-!
# Categories in the table of runs

The category of a code point is that of the run it lies in: the runs ascend, so halving finds the last one
that does not start after the code point.  What is read off the table this way is that blanks do not belong
to words.

* `findRun_eq` — halving finds the run;
* `isChain_categoryRuns` — the runs ascend;
* `categoryAt_eq` — the category of the code points of a run;
* `not_isWord_of_isBlank` — blanks do not belong to words.
-/

namespace LogWatch.Text.Unicode

/-! ## Searching -/

/-- Halving finds a run that does not start after the code point when the next one does. -/
theorem findRun_eq {runs : Array Nat} {code i low high : Nat}
    (hbelow : ∀ j ≤ i, runs.getD j 0 / 32 ≤ code)
    (habove : ∀ j, i < j → j < high → code < runs.getD j 0 / 32)
    (hlow : low ≤ i) (hhigh : i < high) : findRun runs code low high = i := by
  fun_induction findRun runs code low high with
  | case1 low high h middle hle ih =>
    have hmiddle : middle < high := by omega
    have : middle ≤ i := Nat.le_of_not_lt fun hlt =>
      Nat.not_lt_of_le hle (habove middle hlt hmiddle)
    exact ih habove this hhigh
  | case2 low high h middle hlt ih =>
    have hmiddle : middle < high := by omega
    have : i < middle := Nat.lt_of_not_le fun hle => hlt (hbelow middle hle)
    exact ih (fun j hj hjm => habove j hj (Nat.lt_trans hjm hmiddle)) hlow this
  | case3 low high h => omega

/-! ## The table -/

/-- The parts that the table is put together from. -/
def runParts : List (List Nat) :=
  [categoryRuns1.toList, categoryRuns2.toList, categoryRuns3.toList, categoryRuns4.toList,
    categoryRuns5.toList, categoryRuns6.toList, categoryRuns7.toList, categoryRuns8.toList,
    categoryRuns9.toList, categoryRuns10.toList]

theorem toList_categoryRuns : categoryRuns.toList = runParts.flatten := by
  simp only [categoryRuns, runParts, Array.toList_append, List.flatten_cons, List.flatten_nil,
    List.append_nil, List.append_assoc]

/-- The runs ascend: in each part, and from one part to the next. -/
theorem isChain_categoryRuns : categoryRuns.toList.IsChain (· < ·) := by
  rw [toList_categoryRuns, List.isChain_flatten (by decide +kernel)]
  exact ⟨by decide +kernel, by decide +kernel⟩

theorem getD_categoryRuns (j : Nat) : categoryRuns.getD j 0 = categoryRuns.toList.getD j 0 := by
  rw [List.getD_eq_getElem?_getD, Array.getElem?_toList, Array.getD_eq_getD_getElem?]

theorem getD_categoryRuns_le {j k : Nat} (hjk : j ≤ k) (hk : k < categoryRuns.size) :
    categoryRuns.getD j 0 ≤ categoryRuns.getD k 0 := by
  have hpairs := List.pairwise_iff_getElem.1 (List.isChain_iff_pairwise.1 isChain_categoryRuns)
  rw [getD_categoryRuns, getD_categoryRuns, List.getD_eq_getElem _ _ (Nat.lt_of_le_of_lt hjk hk),
    List.getD_eq_getElem _ _ hk]
  rcases Nat.eq_or_lt_of_le hjk with rfl | hlt
  · exact Nat.le_refl _
  · exact Nat.le_of_lt (hpairs j k _ _ hlt)

/-- The code points from the start of a run up to that of the next one have the category of the run. -/
theorem categoryAt_eq {part : List Nat} {run next code : Nat} (hpart : part ∈ runParts)
    (hruns : [run, next] <:+: part) (hrun : run / 32 ≤ code) (hnext : code < next / 32) :
    categoryAt code = Category.all.getD (run % 32) .cn := by
  obtain ⟨a, b, h⟩ := hruns.trans (List.infix_of_mem_flatten hpart)
  rw [← toList_categoryRuns] at h
  have hat : categoryRuns.getD a.length 0 = run := by
    rw [getD_categoryRuns, ← h]
    simp
  have hafter : categoryRuns.getD (a.length + 1) 0 = next := by
    rw [getD_categoryRuns, ← h]
    simp
  have hsize : a.length + 1 < categoryRuns.size := by
    rw [← Array.length_toList, ← h, List.length_append, List.length_append]
    simp only [List.length_cons, List.length_nil]
    omega
  have hfind : findRun categoryRuns code 0 categoryRuns.size = a.length := by
    refine findRun_eq (fun j hj => ?_) (fun j hj hjs => ?_) (Nat.zero_le _) (by omega)
    · have := getD_categoryRuns_le hj (by omega)
      rw [hat] at this
      exact Nat.le_trans (Nat.div_le_div_right this) hrun
    · have := getD_categoryRuns_le hj hjs
      rw [hafter] at this
      exact Nat.lt_of_lt_of_le hnext (Nat.div_le_div_right this)
  simp only [categoryAt, hfind, hat]

/-! ## Blanks -/

/-- A control character, or a separator of words, lines or paragraphs. -/
def Category.isApart (g : Category) : Bool :=
  g matches .cc | .zs | .zl | .zp

/-- The runs with blanks in them beyond the first 128 code points: the part of the table, the run, and the
one that follows it. -/
def blankRuns : List (List Nat × Nat × Nat) :=
  [(categoryRuns1.toList, 4065, 5147), (categoryRuns1.toList, 5147, 5174),
    (categoryRuns4.toList, 184347, 184361), (categoryRuns5.toList, 262171, 262498),
    (categoryRuns5.toList, 263452, 263485), (categoryRuns5.toList, 263485, 263490),
    (categoryRuns5.toList, 263675, 263702), (categoryRuns5.toList, 265211, 265218),
    (categoryRuns6.toList, 393243, 393270)]

theorem blankRuns_isApart : ∀ r ∈ blankRuns, r.1 ∈ runParts ∧ [r.2.1, r.2.2] <:+: r.1 ∧
    (Category.all.getD (r.2.1 % 32) .cn).isApart = true := by
  decide +kernel

theorem exists_blankRun {c : Char} (hc : isBlank c = true) (hhigh : 128 ≤ c.toNat) :
    ∃ r ∈ blankRuns, r.2.1 / 32 ≤ c.toNat ∧ c.toNat < r.2.2 / 32 := by
  simp only [isBlank, Bool.or_eq_true, Bool.and_eq_true, beq_iff_eq, decide_eq_true_eq] at hc
  simp only [blankRuns, List.exists_mem_cons_iff, List.not_mem_nil, false_and, exists_false]
  omega

theorem isApart_category_of_isBlank {c : Char} (hc : isBlank c = true) (hhigh : 128 ≤ c.toNat) :
    (category c).isApart = true := by
  obtain ⟨r, hr, hstart, hnext⟩ := exists_blankRun hc hhigh
  obtain ⟨hpart, hruns, hapart⟩ := blankRuns_isApart r hr
  rwa [category, categoryAt_eq hpart hruns hstart hnext]

/-- Blanks do not belong to words. -/
theorem not_isWord_of_isBlank {c : Char} (hc : isBlank c = true) : isWord c = false := by
  have hplace := hc
  simp only [isBlank, Bool.or_eq_true, Bool.and_eq_true, beq_iff_eq, decide_eq_true_eq] at hplace
  by_cases hlow : c.toNat < 128
  · simp [isWord, hlow]
    omega
  · have hapart := isApart_category_of_isBlank hc (by omega)
    have hjoiner : c.toNat ≠ 0x200C ∧ c.toNat ≠ 0x200D := by omega
    have henclosed : isEnclosedLetter c.toNat = false := by
      simp [isEnclosedLetter]
      omega
    simp only [isWord, if_neg hlow, henclosed, beq_eq_false_iff_ne.2 hjoiner.1,
      beq_eq_false_iff_ne.2 hjoiner.2, Bool.or_false]
    cases hg : category c <;> rw [hg] at hapart <;> first | rfl | cases hapart

end LogWatch.Text.Unicode
