import LogWatch.Regex.Search

/-!
# What regular expressions mean

Which parts of a text an expression stands for, said without a program that looks for them.

* `Regex.Spans` — an expression stands for a part of a text, given what comes before and after;
* `Regex.OccursIn` — it stands for some part of a text;
* `Regex.spans_seqAll_cons` — a sequence stands for what its members stand for, one after the other.
-/

namespace LogWatch.Regex

/-- An expression stands for a part of a text, between what comes before and what comes after. -/
inductive Spans : Regex → List Char → List Char → List Char → Prop
  | empty (before after : List Char) : Spans .empty before [] after
  | chars {set : CharSet} {c : Char} (before after : List Char) : set.has c = true →
      Spans (.chars set) before [c] after
  | look {l : Look} {before after : List Char} : l.holds before.getLast? after.head? = true →
      Spans (.look l) before [] after
  | group {r : Regex} {before span after : List Char} (index : Nat) : Spans r before span after →
      Spans (.group index r) before span after
  | seq {a b : Regex} {before s t after : List Char} : Spans a before s (t ++ after) →
      Spans b (before ++ s) t after → Spans (.seq a b) before (s ++ t) after
  | left {a : Regex} {before span after : List Char} (b : Regex) : Spans a before span after →
      Spans (.alt a b) before span after
  | right {b : Regex} {before span after : List Char} (a : Regex) : Spans b before span after →
      Spans (.alt a b) before span after
  /-- No repetition is asked for. -/
  | enough (r : Regex) (most : Option Nat) (greedy : Bool) (before after : List Char) :
      Spans (.rep r 0 most greedy) before [] after
  /-- One repetition, and then at least and at most one fewer. -/
  | more {r : Regex} {least : Nat} {most : Option Nat} {greedy : Bool}
      {before s t after : List Char} : most ≠ some 0 → Spans r before s (t ++ after) →
      Spans (.rep r (least - 1) (most.map (· - 1)) greedy) (before ++ s) t after →
      Spans (.rep r least most greedy) before (s ++ t) after

/-- An expression stands for some part of a text. -/
def OccursIn (r : Regex) (text : List Char) : Prop :=
  ∃ before span after, text = before ++ span ++ after ∧ Spans r before span after

section

variable {before span after : List Char}

theorem spans_empty_iff : Spans .empty before span after ↔ span = [] := by
  constructor
  · intro h
    cases h
    rfl
  · rintro rfl
    exact .empty _ _

theorem spans_chars_iff {set : CharSet} :
    Spans (.chars set) before span after ↔ ∃ c, set.has c = true ∧ span = [c] := by
  constructor
  · intro h
    cases h with
    | chars _ _ hc => exact ⟨_, hc, rfl⟩
  · rintro ⟨c, hc, rfl⟩
    exact .chars _ _ hc

theorem spans_look_iff {l : Look} :
    Spans (.look l) before span after ↔
      span = [] ∧ l.holds before.getLast? after.head? = true := by
  constructor
  · intro h
    cases h with
    | look hl => exact ⟨rfl, hl⟩
  · rintro ⟨rfl, hl⟩
    exact .look hl

theorem spans_seq_iff {a b : Regex} :
    Spans (.seq a b) before span after ↔
      ∃ s t, span = s ++ t ∧ Spans a before s (t ++ after) ∧ Spans b (before ++ s) t after := by
  constructor
  · intro h
    cases h with
    | seq ha hb => exact ⟨_, _, rfl, ha, hb⟩
  · rintro ⟨s, t, rfl, ha, hb⟩
    exact .seq ha hb

/-- A sequence stands for what its members stand for, one after the other. -/
theorem spans_seqAll_cons {r : Regex} {rs : List Regex} :
    Spans (seqAll (r :: rs)) before span after ↔
      ∃ s t, span = s ++ t ∧ Spans r before s (t ++ after) ∧
        Spans (seqAll rs) (before ++ s) t after := by
  cases rs with
  | cons q rs => exact spans_seq_iff
  | nil =>
    constructor
    · intro h
      exact ⟨span, [], (List.append_nil _).symm, h, .empty _ _⟩
    · rintro ⟨s, t, rfl, hr, ht⟩
      obtain rfl := spans_empty_iff.1 ht
      rw [List.append_nil]
      exact hr

theorem all_has (c : Char) : CharSet.all.has c = true := by
  have hvalid : c.toNat < 0x110000 := by
    rcases c.valid with h | h
    · exact Nat.lt_trans h (by decide)
    · exact h.2
  simp only [CharSet.all, CharSet.has, CharSet.hasCode, Bool.and_eq_true, decide_eq_true_eq]
  omega

/-- Any characters, as many as there are. -/
theorem spans_anything (greedy : Bool) :
    Spans (.rep (.chars .all) 0 none greedy) before span after := by
  induction span generalizing before with
  | nil => exact .enough _ _ _ _ _
  | cons c span ih =>
    exact @Spans.more _ 0 none greedy before [c] span after nofun (.chars _ _ (all_has c)) ih

theorem single_has_iff {c d : Char} : (CharSet.single c).has d = true ↔ d = c := by
  simp only [CharSet.single, CharSet.has, CharSet.hasCode, Bool.and_eq_true, decide_eq_true_eq]
  constructor
  · rintro ⟨hle, hge⟩
    exact Char.toNat_inj.1 (Nat.le_antisymm hge hle)
  · rintro rfl
    exact ⟨Nat.le_refl _, Nat.le_refl _⟩

end

end LogWatch.Regex
