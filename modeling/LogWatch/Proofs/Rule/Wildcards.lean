import LogWatch.Proofs.Regex.Meaning
import LogWatch.Rule.Matcher
import Mathlib.Data.List.Infix

/-!
# What wildcard patterns mean

A pattern is read from left to right into parts, and a text matches it if it can be divided among the
parts.  Comparisons with patterns are compiled in two ways: into a text that is compared as it is, or
into parts that are looked for at all places of a text at once.

* `Glob.Reads` — the parts of a pattern, by the rules for backslashes and wildcards;
* `Glob.Matches` — a text can be divided among some parts;
* `Comparison.Meets` — how much of a text a comparison wants to be matched;
* `Glob.expression` — the regular expression of some parts, with anchors at the ends;
* `Expected.ofText_meets` — what has been compiled finds the texts that the parts match, as the
  regular expression does, and so does the comparison with a text where there is no wildcard.
-/

namespace LogWatch.Rule

namespace Glob

/-! ## Patterns as texts -/

/-- The characters of a pattern and its parts. -/
inductive Reads : List Char → Glob → Prop
  | nil : Reads [] []
  /-- A backslash takes the meaning from what it precedes, also from another backslash. -/
  | escaped {c : Char} {cs : List Char} {g : Glob} : c ∈ ['*', '?', '\\'] → Reads cs g →
      Reads ('\\' :: c :: cs) (.char c :: g)
  /-- Any other backslash stands for itself. -/
  | backslash {cs : List Char} {g : Glob} : (∀ c ∈ cs.head?, c ∉ ['*', '?', '\\']) → Reads cs g →
      Reads ('\\' :: cs) (.char '\\' :: g)
  | anyText {cs : List Char} {g : Glob} : Reads cs g → Reads ('*' :: cs) (.anyText :: g)
  | anyOne {cs : List Char} {g : Glob} : Reads cs g → Reads ('?' :: cs) (.anyOne :: g)
  | char {c : Char} {cs : List Char} {g : Glob} : c ∉ ['*', '?', '\\'] → Reads cs g →
      Reads (c :: cs) (.char c :: g)

/-- A text can be divided among some parts. -/
inductive Matches : Glob → List Char → Prop
  | nil : Matches [] []
  | char {g : Glob} {cs : List Char} (c : Char) : Matches g cs → Matches (.char c :: g) (c :: cs)
  | anyOne {g : Glob} {cs : List Char} (c : Char) : Matches g cs → Matches (.anyOne :: g) (c :: cs)
  | anyText {g : Glob} {cs : List Char} (any : List Char) : Matches g cs →
      Matches (.anyText :: g) (any ++ cs)

theorem isEscapable_iff {c : Char} : isEscapable c = true ↔ c ∈ ['*', '?', '\\'] := by
  simp [isEscapable, or_assoc]

theorem partOf_of_not_mem {c : Char} (h : c ∉ ['*', '?', '\\']) : partOf c = .char c := by
  simp only [List.mem_cons, not_or] at h
  rw [partOf, if_neg h.1, if_neg h.2.1]

/-- A character that no backslash takes the meaning from is a part of its own. -/
theorem ofChars_cons {c : Char} {cs : List Char}
    (h : c = '\\' → ∀ d ∈ cs.head?, d ∉ ['*', '?', '\\']) :
    ofChars (c :: cs) = partOf c :: ofChars cs := by
  cases cs with
  | nil => rfl
  | cons d cs =>
    rw [ofChars, if_neg]
    rintro ⟨hc, hd⟩
    exact h hc d rfl (isEscapable_iff.1 hd)

theorem ofChars_escaped {c : Char} {cs : List Char} (h : c ∈ ['*', '?', '\\']) :
    ofChars ('\\' :: c :: cs) = .char c :: ofChars cs := by
  rw [ofChars, if_pos ⟨rfl, isEscapable_iff.2 h⟩]

/-- The rules read a pattern in one way only. -/
theorem Reads.eq_ofChars {cs : List Char} {g : Glob} (h : Reads cs g) : g = ofChars cs := by
  induction h with
  | nil => rfl
  | escaped hc _ ih => rw [ofChars_escaped hc, ih]
  | backslash hnext _ ih =>
    rw [ofChars_cons fun _ => hnext, ih]
    rfl
  | anyText _ ih =>
    rw [ofChars_cons fun h => absurd h (by decide), ih]
    rfl
  | anyOne _ ih =>
    rw [ofChars_cons fun h => absurd h (by decide), ih]
    rfl
  | @char c _ _ hc _ ih =>
    have hne : c ≠ '\\' := by
      rintro rfl
      exact hc (by simp)
    rw [ofChars_cons fun h => absurd h hne, ih, partOf_of_not_mem hc]

/-- A character that no backslash takes the meaning from is read on its own. -/
theorem Reads.cons {c : Char} {cs : List Char} {g : Glob}
    (hnext : c = '\\' → ∀ d ∈ cs.head?, d ∉ ['*', '?', '\\']) (h : Reads cs g) :
    Reads (c :: cs) (partOf c :: g) := by
  by_cases hc : c ∈ ['*', '?', '\\']
  · rcases List.mem_cons.1 hc with rfl | hc
    · exact .anyText h
    · rcases List.mem_cons.1 hc with rfl | hc
      · exact .anyOne h
      · obtain rfl := List.mem_singleton.1 hc
        exact .backslash (hnext rfl) h
  · rw [partOf_of_not_mem hc]
    exact .char hc h

/-- Every pattern can be read. -/
theorem reads_ofChars (cs : List Char) : Reads cs (ofChars cs) := by
  fun_induction ofChars cs with
  | case1 => exact .nil
  | case2 c => exact .cons (by simp) .nil
  | case3 c d rest h ih =>
    obtain ⟨rfl, hd⟩ := h
    exact .escaped (isEscapable_iff.1 hd) ih
  | case4 c d rest h ih =>
    refine .cons ?_ ih
    rintro rfl e he
    cases he
    exact fun hmem => h ⟨rfl, isEscapable_iff.2 hmem⟩

theorem reads_iff {cs : List Char} {g : Glob} : Reads cs g ↔ g = ofChars cs :=
  ⟨Reads.eq_ofChars, fun h => h ▸ reads_ofChars cs⟩

/-! ## Matching at all places -/

/-- A text begins with what some parts match; if `toEnd`, they match all of it. -/
def Begins (toEnd : Bool) (g : Glob) (cs : List Char) : Prop :=
  ∃ a b, cs = a ++ b ∧ g.Matches a ∧ (toEnd = true → b = [])

section Begins

variable {toEnd : Bool} {g : Glob}

theorem begins_nil_iff {cs : List Char} : Begins toEnd [] cs ↔ (toEnd = true → cs = []) := by
  constructor
  · rintro ⟨a, b, rfl, hmatch, hend⟩
    cases hmatch
    exact hend
  · intro h
    exact ⟨[], cs, rfl, .nil, h⟩

theorem begins_char_iff {c : Char} {cs : List Char} :
    Begins toEnd (.char c :: g) cs ↔ ∃ rest, cs = c :: rest ∧ Begins toEnd g rest := by
  constructor
  · rintro ⟨a, b, rfl, hmatch, hend⟩
    cases hmatch with
    | char _ hmatch => exact ⟨_, rfl, _, b, rfl, hmatch, hend⟩
  · rintro ⟨rest, rfl, a, b, rfl, hmatch, hend⟩
    exact ⟨c :: a, b, rfl, .char c hmatch, hend⟩

theorem begins_anyOne_iff {cs : List Char} :
    Begins toEnd (.anyOne :: g) cs ↔ ∃ c rest, cs = c :: rest ∧ Begins toEnd g rest := by
  constructor
  · rintro ⟨a, b, rfl, hmatch, hend⟩
    cases hmatch with
    | anyOne c hmatch => exact ⟨c, _, rfl, _, b, rfl, hmatch, hend⟩
  · rintro ⟨c, rest, rfl, a, b, rfl, hmatch, hend⟩
    exact ⟨c :: a, b, rfl, .anyOne c hmatch, hend⟩

theorem begins_anyText_iff {cs : List Char} :
    Begins toEnd (.anyText :: g) cs ↔ ∃ a b, cs = a ++ b ∧ Begins toEnd g b := by
  constructor
  · rintro ⟨a, b, rfl, hmatch, hend⟩
    cases hmatch with
    | anyText any hmatch => exact ⟨any, _, List.append_assoc .., _, b, rfl, hmatch, hend⟩
  · rintro ⟨any, rest, rfl, a, b, rfl, hmatch, hend⟩
    exact ⟨any ++ a, b, (List.append_assoc ..).symm, .anyText any hmatch, hend⟩

/-- An asterisk matches nothing, or one more character. -/
theorem begins_anyText_cons_iff {c : Char} {cs : List Char} :
    Begins toEnd (.anyText :: g) (c :: cs) ↔
      Begins toEnd g (c :: cs) ∨ Begins toEnd (.anyText :: g) cs := by
  rw [begins_anyText_iff, begins_anyText_iff]
  constructor
  · rintro ⟨a, b, heq, h⟩
    cases a with
    | nil =>
      rw [List.nil_append] at heq
      exact Or.inl (heq ▸ h)
    | cons d a =>
      cases heq
      exact Or.inr ⟨a, b, rfl, h⟩
  · rintro (h | ⟨a, b, rfl, h⟩)
    · exact ⟨[], _, rfl, h⟩
    · exact ⟨c :: a, b, rfl, h⟩

end Begins

/-! ### The places of a text -/

section Places

variable {p q : List Char → Bool}

theorem map_tails (p : List Char → Bool) (cs : List Char) :
    cs.tails.map p = p cs :: (cs.tails.map p).drop 1 := by
  cases cs <;> rfl

theorem orLater_map_tails (hnil : q [] = p []) (hcons : ∀ c cs, q (c :: cs) = (p (c :: cs) || q cs))
    (cs : List Char) : orLater (cs.tails.map p) = cs.tails.map q := by
  induction cs with
  | nil => simp [orLater, hnil]
  | cons c cs ih =>
    rw [List.tails_cons, List.map_cons, orLater, ih, List.map_cons, hcons, map_tails q cs]
    rfl

theorem drop_map_tails (hnil : q [] = false) (hcons : ∀ c cs, q (c :: cs) = p cs)
    (cs : List Char) : (cs.tails.map p).drop 1 ++ [false] = cs.tails.map q := by
  induction cs with
  | nil => simp [hnil]
  | cons c cs ih =>
    rw [List.tails_cons, List.map_cons, List.map_cons, hcons, ← ih, List.drop_one, List.tail_cons,
      map_tails p cs]
    rfl

theorem zipWith_map_tails {d : Char} (hnil : q [] = false)
    (hcons : ∀ c cs, q (c :: cs) = (c == d && p cs)) (cs : List Char) :
    List.zipWith (fun c after => c == d && after) cs ((cs.tails.map p).drop 1) ++ [false] =
      cs.tails.map q := by
  induction cs with
  | nil => simp [hnil]
  | cons c cs ih =>
    rw [List.tails_cons, List.map_cons, List.map_cons, hcons, ← ih, List.drop_one, List.tail_cons,
      map_tails p cs]
    rfl

end Places

open Classical in
/-- The answers for all places of a text are those of the parts, one place at a time. -/
theorem matchesFrom_eq (toEnd : Bool) (g : Glob) (cs : List Char) :
    matchesFrom toEnd cs g = cs.tails.map fun rest => decide (Begins toEnd g rest) := by
  induction g with
  | nil =>
    induction cs with
    | nil => simp [matchesFrom, begins_nil_iff]
    | cons c cs ih =>
      rw [List.tails_cons, List.map_cons, ← ih, matchesFrom, matchesFrom]
      cases toEnd <;> simp [begins_nil_iff]
  | cons part g ih =>
    cases part with
    | anyText =>
      rw [matchesFrom, ih]
      refine orLater_map_tails ?_ ?_ cs
      · simp [begins_anyText_iff]
      · intro c cs
        simp [begins_anyText_cons_iff]
    | anyOne =>
      rw [matchesFrom, ih]
      refine drop_map_tails ?_ ?_ cs
      · simp [begins_anyOne_iff]
      · intro c cs
        simp [begins_anyOne_iff]
    | char d =>
      rw [matchesFrom, ih]
      refine zipWith_map_tails ?_ ?_ cs
      · simp [begins_char_iff]
      · intro c cs
        by_cases hc : c = d <;> simp [begins_char_iff, hc]

/-! ## Ends of a text -/

theorem head_matchesFrom {toEnd : Bool} {g : Glob} {cs : List Char} :
    (matchesFrom toEnd cs g).headD false = true ↔ Begins toEnd g cs := by
  rw [matchesFrom_eq, map_tails]
  simp only [List.headD_cons, decide_eq_true_eq]

theorem any_matchesFrom {toEnd : Bool} {g : Glob} {cs : List Char} :
    (matchesFrom toEnd cs g).any id = true ↔ ∃ a b, cs = a ++ b ∧ Begins toEnd g b := by
  rw [matchesFrom_eq, List.any_map]
  simp only [List.any_eq_true, List.mem_tails, Function.comp, id_eq, decide_eq_true_eq]
  constructor
  · rintro ⟨b, ⟨a, rfl⟩, h⟩
    exact ⟨a, b, rfl, h⟩
  · rintro ⟨a, b, rfl, h⟩
    exact ⟨b, ⟨a, rfl⟩, h⟩

theorem begins_toEnd_iff {g : Glob} {cs : List Char} : Begins true g cs ↔ g.Matches cs := by
  constructor
  · rintro ⟨a, b, rfl, hmatch, hend⟩
    rw [hend rfl, List.append_nil]
    exact hmatch
  · intro h
    exact ⟨cs, [], (List.append_nil _).symm, h, fun _ => rfl⟩

theorem begins_iff {g : Glob} {cs : List Char} :
    Begins false g cs ↔ ∃ a b, cs = a ++ b ∧ g.Matches a := by
  constructor
  · rintro ⟨a, b, heq, hmatch, -⟩
    exact ⟨a, b, heq, hmatch⟩
  · rintro ⟨a, b, heq, hmatch⟩
    exact ⟨a, b, heq, hmatch, nofun⟩

end Glob

/-! ## Comparisons -/

/-- A comparison wants some parts to match all of a text, its beginning, its end or any part of it. -/
def Comparison.Meets (comparison : Comparison) (g : Glob) (t : List Char) : Prop :=
  match comparison with
  | .exact => g.Matches t
  | .startsWith => ∃ a b, t = a ++ b ∧ g.Matches a
  | .endsWith => ∃ a b, t = a ++ b ∧ g.Matches b
  | .contains => ∃ a b c, t = a ++ (b ++ c) ∧ g.Matches b
  -- Regular expressions have no parts.
  | .regex => False

theorem isFound_iff_meets {comparison : Comparison} (h : comparison ≠ .regex) {g : Glob}
    {t : List Char} : g.isFound comparison.anchor t = true ↔ comparison.Meets g t := by
  cases comparison with
  | exact => exact Glob.head_matchesFrom.trans Glob.begins_toEnd_iff
  | startsWith => exact Glob.head_matchesFrom.trans Glob.begins_iff
  | endsWith =>
    refine Glob.any_matchesFrom.trans ?_
    simp only [Glob.begins_toEnd_iff, Comparison.Meets]
  | contains =>
    refine Glob.any_matchesFrom.trans ?_
    simp only [Glob.begins_iff, Comparison.Meets]
    constructor
    · rintro ⟨a, _, rfl, b, c, rfl, hmatch⟩
      exact ⟨a, b, c, rfl, hmatch⟩
    · rintro ⟨a, b, c, rfl, hmatch⟩
      exact ⟨a, b ++ c, rfl, b, c, rfl, hmatch⟩
  | regex => exact absurd rfl h

/-! ## The regular expression of a pattern -/

namespace Glob

/-- The expression of a part: a character, any character, or any number of any characters. -/
def Part.expression : Part → Regex
  | .char c => .chars (.single c)
  | .anyOne => .chars .all
  | .anyText => .rep (.chars .all) 0 none true

/-- The expressions of some parts one after the other, tied to the ends of the text that have to be
reached. -/
def expression (g : Glob) (anchor : Anchor) : Regex :=
  let body := g.map Part.expression
  match anchor with
  | .both => .seqAll (.look .textStart :: (body ++ [.look .textEnd]))
  | .neither => .seqAll body
  | .start => .seqAll (.look .textStart :: body)
  | .finish => .seqAll (body ++ [.look .textEnd])

section Expression

open Regex

variable {g : Glob} {before span after : List Char}

theorem spans_textStart_iff : Spans (.look .textStart) before span after ↔ span = [] ∧ before = [] := by
  rw [spans_look_iff]
  cases before using List.reverseRecOn <;> simp [Look.holds]

theorem spans_textEnd_iff : Spans (.look .textEnd) before span after ↔ span = [] ∧ after = [] := by
  rw [spans_look_iff]
  cases after <;> simp [Look.holds]

/-- The expressions of some parts, and then others, stand for what the parts match and for what the others
stand for. -/
theorem spans_parts_iff {rest : List Regex} :
    Spans (seqAll (g.map Part.expression ++ rest)) before span after ↔
      ∃ s t, span = s ++ t ∧ g.Matches s ∧ Spans (seqAll rest) (before ++ s) t after := by
  induction g generalizing before span with
  | nil =>
    constructor
    · intro h
      refine ⟨[], span, rfl, .nil, ?_⟩
      rw [List.append_nil]
      exact h
    · rintro ⟨s, t, rfl, hmatch, h⟩
      cases hmatch
      rw [List.append_nil] at h
      exact h
  | cons part g ih =>
    rw [List.map_cons, List.cons_append, spans_seqAll_cons]
    simp only [ih]
    constructor
    · rintro ⟨s, _, rfl, hpart, t, u, rfl, hmatch, h⟩
      refine ⟨s ++ t, u, (List.append_assoc ..).symm, ?_, ?_⟩
      · cases part with
        | char c =>
          obtain ⟨d, hd, rfl⟩ := spans_chars_iff.1 hpart
          obtain rfl := single_has_iff.1 hd
          exact .char _ hmatch
        | anyOne =>
          obtain ⟨d, -, rfl⟩ := spans_chars_iff.1 hpart
          exact .anyOne d hmatch
        | anyText => exact .anyText s hmatch
      · rw [← List.append_assoc]
        exact h
    · rintro ⟨_, u, rfl, hmatch, h⟩
      cases hmatch with
      | @char _ t c hmatch =>
        refine ⟨[c], t ++ u, rfl, .chars _ _ (single_has_iff.2 rfl), t, u, rfl, hmatch, ?_⟩
        rw [List.append_assoc]
        exact h
      | @anyOne _ t c hmatch =>
        refine ⟨[c], t ++ u, rfl, .chars _ _ (all_has c), t, u, rfl, hmatch, ?_⟩
        rw [List.append_assoc]
        exact h
      | @anyText _ t any hmatch =>
        refine ⟨any, t ++ u, List.append_assoc .., spans_anything true, t, u, rfl, hmatch, ?_⟩
        rw [List.append_assoc]
        exact h

theorem spans_body_iff :
    Spans (seqAll (g.map Part.expression)) before span after ↔ g.Matches span := by
  rw [← List.append_nil (g.map Part.expression), spans_parts_iff]
  constructor
  · rintro ⟨s, t, rfl, hmatch, h⟩
    obtain rfl := spans_empty_iff.1 h
    rw [List.append_nil]
    exact hmatch
  · intro hmatch
    exact ⟨span, [], (List.append_nil _).symm, hmatch, .empty _ _⟩

theorem spans_body_textEnd_iff :
    Spans (seqAll (g.map Part.expression ++ [.look .textEnd])) before span after ↔
      g.Matches span ∧ after = [] := by
  rw [spans_parts_iff]
  constructor
  · rintro ⟨s, t, rfl, hmatch, h⟩
    obtain ⟨rfl, rfl⟩ := spans_textEnd_iff.1 h
    rw [List.append_nil]
    exact ⟨hmatch, rfl⟩
  · rintro ⟨hmatch, rfl⟩
    exact ⟨span, [], (List.append_nil _).symm, hmatch, spans_textEnd_iff.2 ⟨rfl, rfl⟩⟩

theorem spans_textStart_cons_iff {rest : List Regex} :
    Spans (seqAll (.look .textStart :: rest)) before span after ↔
      before = [] ∧ Spans (seqAll rest) [] span after := by
  rw [spans_seqAll_cons]
  constructor
  · rintro ⟨s, t, rfl, hstart, h⟩
    obtain ⟨rfl, rfl⟩ := spans_textStart_iff.1 hstart
    exact ⟨rfl, h⟩
  · rintro ⟨rfl, h⟩
    exact ⟨[], span, rfl, spans_textStart_iff.2 ⟨rfl, rfl⟩, h⟩

/-- The expression occurs in the texts that meet the comparison. -/
theorem occursIn_expression_iff {comparison : Comparison} (h : comparison ≠ .regex)
    {t : List Char} : (g.expression comparison.anchor).OccursIn t ↔ comparison.Meets g t := by
  cases comparison with
  | exact =>
    simp only [OccursIn, Comparison.anchor, expression, spans_textStart_cons_iff,
      spans_body_textEnd_iff, Comparison.Meets]
    constructor
    · rintro ⟨_, span, _, rfl, rfl, hmatch, rfl⟩
      simpa using hmatch
    · intro hmatch
      exact ⟨[], t, [], by simp, rfl, hmatch, rfl⟩
  | startsWith =>
    simp only [OccursIn, Comparison.anchor, expression, spans_textStart_cons_iff, spans_body_iff,
      Comparison.Meets]
    constructor
    · rintro ⟨_, a, b, rfl, rfl, hmatch⟩
      exact ⟨a, b, rfl, hmatch⟩
    · rintro ⟨a, b, rfl, hmatch⟩
      exact ⟨[], a, b, rfl, rfl, hmatch⟩
  | endsWith =>
    simp only [OccursIn, Comparison.anchor, expression, spans_body_textEnd_iff, Comparison.Meets]
    constructor
    · rintro ⟨a, b, _, rfl, hmatch, rfl⟩
      exact ⟨a, b, List.append_nil _, hmatch⟩
    · rintro ⟨a, b, rfl, hmatch⟩
      exact ⟨a, b, [], (List.append_nil _).symm, hmatch, rfl⟩
  | contains =>
    simp only [OccursIn, Comparison.anchor, expression, spans_body_iff, Comparison.Meets,
      List.append_assoc]
  | regex => exact absurd rfl h

end Expression

/-! ## Patterns without wildcards -/

theorem hasWildcard_eq_false_iff {g : Glob} :
    g.hasWildcard = false ↔ ∀ part ∈ g, ∃ c, part = .char c := by
  rw [hasWildcard, List.any_eq_false]
  refine forall₂_congr fun part _ => ?_
  cases part <;> simp

theorem partOf_of_char {c d : Char} (h : partOf c = .char d) : partOf c = .char c := by
  unfold partOf at h ⊢
  split at h
  · cases h
  · rename_i hstar
    split at h
    · cases h
    · rename_i hquestion
      rw [if_neg hstar, if_neg hquestion]

/-- A pattern whose parts are all characters stands for the text without its backslashes. -/
theorem ofChars_eq_map (cs : List Char) (h : ∀ part ∈ ofChars cs, ∃ c, part = .char c) :
    ofChars cs = (unescaped cs).map .char := by
  fun_induction ofChars cs with
  | case1 => rfl
  | case2 c =>
    obtain ⟨d, hd⟩ := h _ List.mem_cons_self
    show [partOf c] = [.char c]
    rw [partOf_of_char hd]
  | case3 c d rest hescaped ih =>
    rw [unescaped, if_pos hescaped, List.map_cons, ih (List.forall_mem_cons.1 h).2]
  | case4 c d rest hescaped ih =>
    obtain ⟨⟨e, he⟩, hrest⟩ := List.forall_mem_cons.1 h
    rw [unescaped, if_neg hescaped, List.map_cons, ih hrest, partOf_of_char he]

theorem matches_map_char_iff {cs t : List Char} : Matches (cs.map .char) t ↔ t = cs := by
  constructor
  · intro h
    induction cs generalizing t with
    | nil =>
      cases h
      rfl
    | cons c cs ih =>
      cases h with
      | char _ h => rw [ih h]
  · rintro rfl
    induction t with
    | nil => exact .nil
    | cons c t ih => exact .char c ih

end Glob

/-! ## Compiled expectations -/

namespace Expected

theorem holds_glob_iff {g : Glob} {anchor : Glob.Anchor} {v : FieldValue} :
    (Expected.glob g anchor).holds v = true ↔
      ∃ s, v.scalarText? = some s ∧ g.isFound anchor s.toList = true := by
  rw [holds]
  cases v.scalarText? with
  | none => simp
  | some s => simp

theorem holds_text_iff {t : String} {v : FieldValue} :
    (Expected.text t).holds v = true ↔ v.scalarText? = some t := by
  rw [holds]
  cases v.scalarText? with
  | none => simp
  | some s => simp

/-- Without wildcards a text is compared as the pattern would be matched. -/
theorem holds_unescaped {cs : List Char}
    (h : ∀ part ∈ Glob.ofChars cs, ∃ c, part = .char c) (v : FieldValue) :
    (Expected.text (String.ofList (Glob.unescaped cs))).holds v =
      (Expected.glob (Glob.ofChars cs) .both).holds v := by
  have hexact : ∀ s : String, (Glob.ofChars cs).isFound .both s.toList = true ↔
      s = String.ofList (Glob.unescaped cs) := by
    intro s
    have hfound := @isFound_iff_meets .exact (by decide) (Glob.ofChars cs) s.toList
    refine hfound.trans ?_
    show (Glob.ofChars cs).Matches s.toList ↔ _
    rw [Glob.ofChars_eq_map cs h, Glob.matches_map_char_iff, ← String.ofList_inj,
      String.ofList_toList]
  rw [Bool.eq_iff_iff, holds_text_iff, holds_glob_iff]
  simp only [hexact, exists_eq_right]

/-- Only an exact comparison without wildcards is one with a text. -/
theorem ofText_eq {comparison : Comparison} (h : comparison ≠ .regex) (pattern : String) :
    ofText comparison pattern =
      if comparison = .exact ∧ (Glob.ofText pattern).hasWildcard = false then
        .ok (.text (String.ofList (Glob.unescaped pattern.toList)))
      else .ok (.glob (Glob.ofText pattern) comparison.anchor) := by
  cases comparison with
  | regex => exact absurd rfl h
  | exact | contains | startsWith | endsWith => rfl

/-- A pattern is read in one way, and what has been compiled from it holds of the scalars whose text
meets the comparison.  So does the regular expression of its parts, and, where all parts are characters,
the comparison with a text. -/
theorem ofText_meets {comparison : Comparison} (h : comparison ≠ .regex) (pattern : String) :
    ∃ g, (∀ g', Glob.Reads pattern.toList g' ↔ g' = g) ∧
      (∃ e, ofText comparison pattern = .ok e ∧ ∀ v : FieldValue, e.holds v = true ↔
        ∃ s, v.scalarText? = some s ∧ comparison.Meets g s.toList) ∧
      (∀ v : FieldValue, (Expected.glob g comparison.anchor).holds v = true ↔
        ∃ s, v.scalarText? = some s ∧ (g.expression comparison.anchor).OccursIn s.toList) ∧
      ((∀ part ∈ g, ∃ c, part = .char c) →
        ofText .exact pattern = .ok (.text (String.ofList (Glob.unescaped pattern.toList))) ∧
        ∀ v : FieldValue, (Expected.text (String.ofList (Glob.unescaped pattern.toList))).holds v =
          (Expected.glob g .both).holds v) := by
  have hglob : ∀ v : FieldValue,
      (Expected.glob (Glob.ofText pattern) comparison.anchor).holds v = true ↔
        ∃ s, v.scalarText? = some s ∧ comparison.Meets (Glob.ofText pattern) s.toList := by
    intro v
    simp only [holds_glob_iff, isFound_iff_meets h]
  refine ⟨Glob.ofText pattern, fun g' => Glob.reads_iff, ?_, ?_, ?_⟩
  · rw [ofText_eq h]
    split
    · rename_i hliteral
      obtain ⟨rfl, hnone⟩ := hliteral
      refine ⟨_, rfl, fun v => ?_⟩
      rw [holds_unescaped (Glob.hasWildcard_eq_false_iff.1 hnone)]
      exact hglob v
    · exact ⟨_, rfl, hglob⟩
  · intro v
    simp only [hglob, Glob.occursIn_expression_iff h]
  · intro hchars
    refine ⟨?_, holds_unescaped hchars⟩
    rw [ofText_eq (by decide), if_pos ⟨rfl, Glob.hasWildcard_eq_false_iff.2 hchars⟩]

/-- An asterisk after a backslash is looked for as it is, and a final backslash too. -/
theorem ofText_meets_escapedStar :
    Comparison.startsWith ≠ .regex ∧
    ∃ e, ofText .startsWith "C:\\*\\" = .ok e ∧
      e.holds (.text "C:*\\boot") = true ∧ e.holds (.text "C:\\x\\boot") = false := by
  refine ⟨by decide, ?_⟩
  obtain ⟨g, hreads, ⟨e, he, hmeets⟩, -, -⟩ :=
    @ofText_meets .startsWith (by decide) "C:\\*\\"
  have hg : [.char 'C', .char ':', .char '*', .char '\\'] = g :=
    (hreads _).1 (.char (by decide) (.char (by decide) (.escaped (by decide)
      (.backslash nofun .nil))))
  subst hg
  refine ⟨e, he, ?_, ?_⟩
  · rw [hmeets]
    exact ⟨_, rfl, _, "boot".toList, rfl, .char _ (.char _ (.char _ (.char _ .nil)))⟩
  · rw [← Bool.not_eq_true, hmeets]
    rintro ⟨s, hs, a, b, hab, hmatch⟩
    cases hs
    cases hmatch with
    | char _ hmatch => cases hmatch with
      | char _ hmatch => cases hmatch with
        | char _ hmatch => simp at hab

end Expected

end LogWatch.Rule
