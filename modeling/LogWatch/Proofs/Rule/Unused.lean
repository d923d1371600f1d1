import LogWatch.Proofs.Dictionary
import LogWatch.Proofs.Rule.Reading
import LogWatch.Rule.Validation

/-!
# Selections that a condition does not use

The validation warns of selections that the condition does not use: it walks over the condition for names
and for sets.  The evaluation meets selections in a third way, when it looks names up and picks the
members of sets.  Here is that the warnings are about what no evaluation can read.

* `SameBut` — two detection blocks with the same names that differ at most in the selections of some;
* `Condition.holds_congr` — an evaluation reads nothing but the selections in use;
* `Report.mem_warnings_iff` — a selection is warned of just when it is not in use;
* `Report.warned_selections_unread` — whatever takes the place of the selections that are warned of, no
  evaluation changes, and the others are mentioned or belong to a set.
-/

namespace LogWatch.Rule

/-! ## Tests that agree -/

section Chains

variable {α : Type} {test other : α → Except EvalError Bool} {as : List α}

theorem allHold_congr (h : ∀ a ∈ as, test a = other a) : allHold test as = allHold other as := by
  induction as with
  | nil => rfl
  | cons a as ih =>
    obtain ⟨ha, has⟩ := List.forall_mem_cons.1 h
    rw [allHold, allHold, ha, ih has]

theorem anyHolds_congr (h : ∀ a ∈ as, test a = other a) : anyHolds test as = anyHolds other as := by
  induction as with
  | nil => rfl
  | cons a as ih =>
    obtain ⟨ha, has⟩ := List.forall_mem_cons.1 h
    rw [anyHolds, anyHolds, ha, ih has]

end Chains

/-! ## What an evaluation reads -/

namespace Condition

variable {d e : Dictionary Selection} {names : FieldNames} {fields : FieldMap}

/-- An evaluation reads nothing but the selections that the condition mentions and those of its sets. -/
theorem holds_congr {c : Condition}
    (hfind : ∀ name, Part (.selection name) c → d.find? name = e.find? name)
    (hmembers : ∀ set, c.Quantifies set → members set d = members set e) :
    holds d names fields c = holds e names fields c := by
  induction c using byOperands with
  | selection name =>
    rw [holds, holds, hfind name (.self _)]
  | not c ih =>
    have hc := ih (fun name hpart => hfind name (.not hpart))
      (fun set hset => hmembers set (quantifies_not_iff.2 hset))
    rw [holds, holds, hc]
  | and cs ih =>
    rw [holds, holds, holdAll_eq, holdAll_eq]
    apply allHold_congr
    intro c hc
    exact ih c hc (fun name hpart => hfind name (.and hc hpart))
      (fun set hset => hmembers set (quantifies_and_iff.2 ⟨c, hc, hset⟩))
  | or cs ih =>
    rw [holds, holds, holdsAny_eq, holdsAny_eq]
    apply anyHolds_congr
    intro c hc
    exact ih c hc (fun name hpart => hfind name (.or hc hpart))
      (fun set hset => hmembers set (quantifies_or_iff.2 ⟨c, hc, hset⟩))
  | oneOf set =>
    rw [holds, holds, hmembers set (quantifies_oneOf_iff.2 rfl)]
  | allOf set =>
    rw [holds, holds, hmembers set (quantifies_allOf_iff.2 rfl)]

end Condition

/-! ## Other selections under some names -/

/-- Two detection blocks have the same names, and they differ at most in the selections of names that
are free to differ. -/
def SameBut (free : String → Prop) (d e : Dictionary Selection) : Prop :=
  List.Forall₂ (fun p q => p.1 = q.1 ∧ (¬ free p.1 → p.2 = q.2)) d e

namespace SameBut

variable {free : String → Prop} {d e : Dictionary Selection}

protected theorem refl (free : String → Prop) (d : Dictionary Selection) : SameBut free d d := by
  induction d with
  | nil => exact .nil
  | cons p d ih => exact .cons ⟨rfl, fun _ => rfl⟩ ih

/-- In particular another selection may be put in the place of one. -/
theorem insert (hmap : d.IsAscending) {name : String} (hname : name ∈ d.names) (hfree : free name)
    (body : Selection) : SameBut free d (d.insert name body) := by
  induction d with
  | nil => cases hname
  | cons p d ih =>
    rw [Dictionary.insert]
    rcases List.mem_cons.1 hname with rfl | hrest
    · rw [if_pos rfl]
      exact .cons ⟨rfl, fun hnot => absurd hfree hnot⟩ (SameBut.refl free d)
    · have hlt : p.1 < name := hmap.lt_of_mem_names hrest
      rw [if_neg (ne_of_gt hlt), if_neg (not_lt_of_gt hlt)]
      exact .cons ⟨rfl, fun _ => rfl⟩ (ih (List.pairwise_cons.1 hmap).2 hrest)

theorem find?_eq (h : SameBut free d e) {name : String} (hname : ¬ free name) :
    d.find? name = e.find? name := by
  induction h with
  | nil => rfl
  | @cons p q d e hpq _ ih =>
    rw [Dictionary.find?, Dictionary.find?, ← hpq.1, ih]
    by_cases hp : p.1 = name
    · rw [if_pos hp, if_pos hp, hpq.2 (hp ▸ hname)]
    · rw [if_neg hp, if_neg hp]

theorem members_eq (h : SameBut free d e) {set : SelectionSet}
    (hset : ∀ name, set.contains name = true → ¬ free name) :
    Condition.members set d = Condition.members set e := by
  unfold Condition.members
  induction h with
  | nil => rfl
  | @cons p q d e hpq _ ih =>
    by_cases hp : set.contains p.1 = true
    · have hq : set.contains q.1 = true := hpq.1 ▸ hp
      rw [List.filter_cons_of_pos (by exact hp), List.filter_cons_of_pos (by exact hq),
        List.map_cons, List.map_cons, ih, hpq.2 (hset p.1 hp)]
    · have hq : ¬ set.contains q.1 = true := hpq.1 ▸ hp
      rw [List.filter_cons_of_neg (by exact hp), List.filter_cons_of_neg (by exact hq), ih]

/-- An evaluation is the same if all that differs are selections that the condition does not use. -/
theorem holds_eq (h : SameBut free d e) {c : Condition} (hc : ∀ name, c.Uses name → ¬ free name)
    (names : FieldNames) (fields : FieldMap) :
    c.holds d names fields = c.holds e names fields := by
  apply Condition.holds_congr
  · intro name hpart
    exact h.find?_eq (hc name (.inl hpart))
  · intro set hset
    exact h.members_eq fun name hname => hc name (.inr ⟨set, hset, hname⟩)

end SameBut

/-! ## Warnings -/

namespace Report

variable {selections : Dictionary Selection} {condition : Condition} {name : String}

theorem isUsed_iff_mentions_or_contains :
    isUsed condition name = true ↔
      condition.Mentions name ∨ ∃ set, condition.Quantifies set ∧ set.contains name = true := by
  rw [isUsed, Bool.or_eq_true, List.contains_iff_mem, Condition.mem_names_iff, List.any_eq_true]
  simp only [Condition.mem_sets_iff]

/-- The walks find just the selections in use: a name after a quantifier is the member of its set. -/
theorem isUsed_iff : isUsed condition name = true ↔ condition.Uses name := by
  rw [isUsed_iff_mentions_or_contains]
  constructor
  · rintro ((hpart | hnamed) | hset)
    · exact .inl hpart
    · exact .inr ⟨.named name, hnamed, beq_self_eq_true name⟩
    · exact .inr hset
  · rintro (hpart | hset)
    · exact .inl (.inl hpart)
    · exact .inr hset

/-- A warning is given of each selection that is not in use, and of no other. -/
theorem mem_warnings_iff :
    ⟨name⟩ ∈ (ofDetection selections condition).warnings ↔
      name ∈ selections.names ∧ ¬ condition.Uses name := by
  unfold ofDetection
  cases selections with
  | nil => simp [Dictionary.names]
  | cons p selections =>
    rw [← isUsed_iff, List.isEmpty_cons, if_neg Bool.false_ne_true]
    simp

/-- Whatever takes the place of the selections that are warned of, be it in error or not, an evaluation
says the same of every record and with any field names.  Each of the other selections is mentioned by
its name, or it belongs to a set that the condition quantifies over. -/
theorem warned_selections_unread (selections : Dictionary Selection) (condition : Condition) :
    (∀ others, SameBut (⟨·⟩ ∈ (ofDetection selections condition).warnings) selections others →
      ∀ names fields,
        condition.holds others names fields = condition.holds selections names fields) ∧
    ∀ name ∈ selections.names, ⟨name⟩ ∉ (ofDetection selections condition).warnings →
      condition.Mentions name ∨ ∃ set, condition.Quantifies set ∧ set.contains name = true := by
  constructor
  · intro others hothers names fields
    refine (hothers.holds_eq ?_ names fields).symm
    intro name huses hwarned
    exact (mem_warnings_iff.1 hwarned).2 huses
  · intro name hname hnot
    by_cases hused : isUsed condition name = true
    · exact isUsed_iff_mentions_or_contains.1 hused
    · exact absurd (mem_warnings_iff.2 ⟨hname, fun huses => hused (isUsed_iff.2 huses)⟩) hnot

/-- Selections of which the last one is not used by `selectionUnfiltered`. -/
def threeSelections : Dictionary Selection :=
  [("filter_cron", .keywords [.text "cron"]), ("selection", .keywords [.text "root"]),
    ("spare", .keywords [.text "su"])]

/-- A name, and a set that is given by the beginning of names. -/
def selectionUnfiltered : Condition :=
  .and [.selection "selection", .not (.oneOf (.startingWith "filter_"))]

/-- A selection that is in error on a record with a map. -/
def peerIsNull : Selection :=
  .groups [[⟨"peer", .anyOf [.null]⟩]]

/-- The spare selection may be one that is in error, and the two others are in use. -/
theorem warned_selections_unread_spare :
    peerIsNull.holds {} [("peer", .map []), ("user", .text "root")] =
      .error (.unsupportedType "peer" "map") ∧
    selectionUnfiltered.holds (threeSelections.insert "spare" peerIsNull) {}
        [("peer", .map []), ("user", .text "root")] =
      selectionUnfiltered.holds threeSelections {} [("peer", .map []), ("user", .text "root")] ∧
    selectionUnfiltered.holds threeSelections {} [("peer", .map []), ("user", .text "root")] =
      .ok true ∧
    (selectionUnfiltered.Mentions "filter_cron" ∨
      ∃ set, selectionUnfiltered.Quantifies set ∧ set.contains "filter_cron" = true) := by
  have hwarned : ⟨"spare"⟩ ∈ (ofDetection threeSelections selectionUnfiltered).warnings := by decide
  have hmap : threeSelections.IsAscending := by
    unfold Dictionary.IsAscending
    decide
  have hsame : SameBut (⟨·⟩ ∈ (ofDetection threeSelections selectionUnfiltered).warnings)
      threeSelections (threeSelections.insert "spare" peerIsNull) :=
    SameBut.insert hmap (by decide) hwarned peerIsNull
  exact ⟨rfl, (warned_selections_unread threeSelections selectionUnfiltered).1 _ hsame _ _, rfl,
    (warned_selections_unread threeSelections selectionUnfiltered).2 "filter_cron" (by decide)
      (by decide)⟩

end Report

end LogWatch.Rule
