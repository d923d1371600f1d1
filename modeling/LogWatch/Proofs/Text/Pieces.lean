import LogWatch.Text.Basic

/-!
# Texts cut at a separator

* `splitOn_eq`, `joinWith_eq` — cutting and joining as the library of lists has them;
* `splitOn_append_cons`, `splitOn_of_not_mem`, `splitOn_intercalate` — the pieces of a text that is put
  together;
* `joinWith_splitOn`, `not_mem_of_mem_splitOn` — the pieces of any text;
* `eq_of_append_cons_eq` — the first separator cuts a text in one way only.
-/

namespace LogWatch.Text

variable {α : Type}

theorem splitOn_eq [DecidableEq α] (sep : α) (cs : List α) : splitOn sep cs = cs.splitOn sep := by
  induction cs with
  | nil => rfl
  | cons c cs ih =>
    obtain ⟨piece, more, hpieces⟩ := List.exists_cons_of_ne_nil (splitOn_ne_nil sep cs)
    have hlibrary : List.splitOnP (· == sep) cs = piece :: more := ih.symm.trans hpieces
    show splitOn sep (c :: cs) = List.splitOnP (· == sep) (c :: cs)
    rw [splitOn, hpieces, List.splitOnP_cons_eq_if_modifyHead, hlibrary]
    by_cases h : c = sep <;> simp [h]

theorem joinWith_eq (sep : List α) (pieces : List (List α)) :
    joinWith sep pieces = sep.intercalate pieces := by
  induction pieces with
  | nil => rfl
  | cons piece pieces ih =>
    cases pieces with
    | nil => rw [joinWith, List.intercalate_singleton]
    | cons next pieces =>
      rw [joinWith, ih, List.intercalate_cons_cons]
      exact List.cons_ne_nil next pieces

/-! ## Putting a text together -/

/-- The pieces of two texts with a separator between them are the pieces of both. -/
theorem splitOn_append_cons [DecidableEq α] (sep : α) (as bs : List α) :
    splitOn sep (as ++ sep :: bs) = splitOn sep as ++ splitOn sep bs := by
  induction as with
  | nil => simp [splitOn]
  | cons a as ih =>
    rw [List.cons_append]
    by_cases h : a = sep
    · simp [splitOn, h, ih]
    · obtain ⟨piece, more, hpieces⟩ := List.exists_cons_of_ne_nil (splitOn_ne_nil sep as)
      simp [splitOn, h, ih, hpieces]

/-- A text without the separator is one piece. -/
theorem splitOn_of_not_mem [DecidableEq α] {sep : α} {cs : List α} (h : sep ∉ cs) :
    splitOn sep cs = [cs] := by
  induction cs with
  | nil => rfl
  | cons c cs ih =>
    rw [List.mem_cons, not_or] at h
    rw [splitOn, if_neg (Ne.symm h.1), ih h.2]

/-- Pieces without the separator are found again. -/
theorem splitOn_intercalate [DecidableEq α] {sep : α} {pieces : List (List α)} (hne : pieces ≠ [])
    (h : ∀ piece ∈ pieces, sep ∉ piece) : splitOn sep ([sep].intercalate pieces) = pieces := by
  rw [splitOn_eq]
  exact List.splitOn_intercalate sep h hne

theorem joinWith_cons {sep : α} (piece : List α) {more : List (List α)} (h : more ≠ []) :
    joinWith [sep] (piece :: more) = piece ++ sep :: joinWith [sep] more := by
  rw [joinWith, List.append_assoc, List.singleton_append]
  exact h

theorem joinWith_concat {sep : α} {pieces : List (List α)} (h : pieces ≠ [])
    (last : List α) : joinWith [sep] (pieces ++ [last]) = joinWith [sep] pieces ++ sep :: last := by
  induction pieces with
  | nil => exact absurd rfl h
  | cons piece pieces ih =>
    cases pieces with
    | nil => simp [joinWith]
    | cons next pieces =>
      have hmore : next :: pieces ++ [last] ≠ [] := List.append_ne_nil_of_right_ne_nil _ (by simp)
      rw [List.cons_append, joinWith_cons piece hmore, ih (List.cons_ne_nil next _),
        joinWith_cons piece (List.cons_ne_nil next _)]
      simp

/-! ## Taking a text apart -/

theorem joinWith_splitOn [DecidableEq α] (sep : α) (cs : List α) :
    joinWith [sep] (splitOn sep cs) = cs := by
  rw [joinWith_eq, splitOn_eq]
  exact List.intercalate_splitOn sep

theorem not_mem_of_mem_splitOn [DecidableEq α] {sep : α} {cs piece : List α}
    (h : piece ∈ splitOn sep cs) : sep ∉ piece := by
  induction cs generalizing piece with
  | nil =>
    rw [splitOn, List.mem_singleton] at h
    rw [h]
    exact List.not_mem_nil
  | cons c cs ih =>
    rw [splitOn] at h
    split at h
    · rcases List.mem_cons.1 h with rfl | h
      · exact List.not_mem_nil
      · exact ih h
    · rename_i hc
      obtain ⟨first, more, hpieces⟩ := List.exists_cons_of_ne_nil (splitOn_ne_nil sep cs)
      rw [hpieces] at h ih
      rcases List.mem_cons.1 h with rfl | h
      · intro hmem
        rcases List.mem_cons.1 hmem with rfl | hmem
        · exact hc rfl
        · exact ih List.mem_cons_self hmem
      · exact ih (List.mem_cons_of_mem _ h)

/-- The first separator cuts a text in one way only. -/
theorem eq_of_append_cons_eq {sep : α} {as bs cs ds : List α} (has : sep ∉ as) (hbs : sep ∉ bs)
    (h : as ++ sep :: cs = bs ++ sep :: ds) : as = bs ∧ cs = ds := by
  induction as generalizing bs with
  | nil =>
    cases bs with
    | nil => exact ⟨rfl, (List.cons.inj h).2⟩
    | cons b bs => exact absurd ((List.cons.inj h).1 ▸ List.mem_cons_self) hbs
  | cons a as ih =>
    cases bs with
    | nil => exact absurd ((List.cons.inj h).1 ▸ List.mem_cons_self) has
    | cons b bs =>
      obtain ⟨rfl, hrest⟩ := List.cons.inj h
      obtain ⟨rfl, rfl⟩ := ih (fun hmem => has (List.mem_cons_of_mem _ hmem))
        (fun hmem => hbs (List.mem_cons_of_mem _ hmem)) hrest
      exact ⟨rfl, rfl⟩

end LogWatch.Text
