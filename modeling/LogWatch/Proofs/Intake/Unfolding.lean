import LogWatch.Proofs.Intake.References
import LogWatch.Proofs.Outcome
import Mathlib.Data.List.Basic

/-!
# Patterns unfolded

A pattern in which definitions stand in the place of references is a tree.  Patterns are expanded exactly
when there is such a tree of bounded depth, and the tree tells what the expansion is.

* `Unfolded`, `Unfolds` — the tree of a pattern;
* `Unfolded.fields`, `Unfolded.text` — the fields in the order of their groups, and the expanded text;
* `expand_eq_ok_iff` — the expansion of a pattern.
-/

namespace LogWatch.Intake.Grok

/-! ## Trees -/

/-- The name of a group. -/
def groupName (k : Nat) : String :=
  "g" ++ toString k

/-- A pattern in which definitions stand in the place of references. -/
inductive Unfolded where
  /-- The end of the pattern. -/
  | done
  /-- A character, and the rest. -/
  | char (c : Char) (rest : Unfolded)
  /-- A reference with its definition, and the rest. -/
  | reference (r : Reference) (inner rest : Unfolded)

/-- The field of a reference, if it has one, and what is made of a match. -/
def Reference.ownFields (r : Reference) : List (String × Conversion) :=
  r.field.toList.map fun field => (field, r.conversion)

theorem Reference.length_ownFields (r : Reference) :
    r.ownFields.length = if r.field.isSome then 1 else 0 := by
  rw [ownFields, List.length_map]
  cases r.field <;> rfl

/-- How the group of a reference begins: one with a field is numbered. -/
def Reference.groupHead (r : Reference) (k : Nat) : List Char :=
  match r.field with
  | none => "(?:".toList
  | some _ => "(?P<".toList ++ (groupName k).toList ++ ['>']

namespace Unfolded

/-- How deep definitions stand in each other. -/
def nesting : Unfolded → Nat
  | done => 0
  | char _ rest => rest.nesting
  | reference _ inner rest => max (inner.nesting + 1) rest.nesting

/-- The fields of all references: inner ones before the outer one, and else from left to right. -/
def fields : Unfolded → List (String × Conversion)
  | done => []
  | char _ rest => rest.fields
  | reference r inner rest => inner.fields ++ r.ownFields ++ rest.fields

/-- The text with groups in the place of references; they are numbered from `k` on in the order of their
fields. -/
def text : Unfolded → Nat → List Char
  | done, _ => []
  | char c rest, k => c :: rest.text k
  | reference r inner rest, k =>
    r.groupHead (k + inner.fields.length) ++
      (inner.text k ++ ')' :: rest.text (k + (inner.fields ++ r.ownFields).length))

/-- What fills the fields, by groups that are numbered from `k` on. -/
def captures (t : Unfolded) (k : Nat) : List Capture :=
  (t.fields.zipIdx k).map fun p => ⟨groupName p.2, p.1.1, p.1.2⟩

/-- The expansion of a pattern before which there are `k` groups. -/
def expansion (t : Unfolded) (k : Nat) : Expansion :=
  ⟨t.text k, t.captures k⟩

theorem length_captures (t : Unfolded) (k : Nat) : (t.captures k).length = t.fields.length := by
  rw [captures, List.length_map, List.length_zipIdx]

/-- A reference is enclosed when its definition has been expanded, and the rest is numbered behind it. -/
theorem expansion_reference (r : Reference) (inner rest : Unfolded) (k : Nat) :
    (reference r inner rest).expansion k =
      ((inner.expansion k).enclose r k).append
        (rest.expansion (k + ((inner.expansion k).enclose r k).captures.length)) := by
  have hlength : (inner.expansion k).captures.length = inner.fields.length := length_captures inner k
  obtain ⟨name, field, conversion⟩ := r
  cases field with
  | none =>
    simp [expansion, captures, text, fields, Expansion.enclose, Expansion.append,
      Reference.groupHead, Reference.ownFields, List.zipIdx_append]
  | some field =>
    simp [expansion, captures, text, fields, Expansion.enclose, Expansion.append,
      Reference.groupHead, Reference.ownFields, List.zipIdx_append, groupName, Nat.add_assoc]

end Unfolded

/-! ## Unfolding -/

/-- A pattern unfolds to a tree: references stand for their definitions, unfolded in turn. -/
inductive Unfolds (defs : Definitions) : List Char → Unfolded → Prop
  | done : Unfolds defs [] .done
  | char {c : Char} {rest : List Char} {t : Unfolded} (hc : ¬ opening <+: c :: rest)
      (hrest : Unfolds defs rest t) : Unfolds defs (c :: rest) (.char c t)
  | reference {text rest : List Char} {r : Reference} {body : String} {inner t : Unfolded}
      (htext : '\x7d' ∉ text) (hasks : Asks text r) (hbody : defs.find? r.name = some body)
      (hinner : Unfolds defs body.toList inner) (hrest : Unfolds defs rest t) :
      Unfolds defs (opening ++ (text ++ '\x7d' :: rest)) (.reference r inner t)

section Inversion

variable {defs : Definitions} {t : Unfolded}

theorem unfolds_nil_iff : Unfolds defs [] t ↔ t = .done := by
  constructor
  · intro h
    cases h
    rfl
  · rintro rfl
    exact Unfolds.done

theorem unfolds_char_iff {c : Char} {rest : List Char} (hc : ¬ opening <+: c :: rest) :
    Unfolds defs (c :: rest) t ↔ ∃ t', Unfolds defs rest t' ∧ t = .char c t' := by
  constructor
  · intro h
    generalize htext : c :: rest = text at h
    cases h with
    | done => cases htext
    | char _ hrest =>
      cases htext
      exact ⟨_, hrest, rfl⟩
    | reference => exact absurd ⟨_, htext.symm⟩ hc
  · rintro ⟨t', hrest, rfl⟩
    exact Unfolds.char hc hrest

theorem unfolds_reference_iff {text rest : List Char} (htext : '\x7d' ∉ text) :
    Unfolds defs (opening ++ (text ++ '\x7d' :: rest)) t ↔
      ∃ r body inner t', Asks text r ∧ defs.find? r.name = some body ∧
        Unfolds defs body.toList inner ∧ Unfolds defs rest t' ∧ t = .reference r inner t' := by
  constructor
  · intro h
    generalize hwhole : opening ++ (text ++ '\x7d' :: rest) = whole at h
    cases h with
    | done => cases hwhole
    | char hc _ => exact absurd ⟨_, hwhole⟩ hc
    | reference htext' hasks hbody hinner hrest =>
      obtain ⟨rfl, rfl⟩ := Text.eq_of_append_cons_eq htext htext' (List.append_cancel_left hwhole)
      exact ⟨_, _, _, _, hasks, hbody, hinner, hrest, rfl⟩
  · rintro ⟨r, body, inner, t', hasks, hbody, hinner, hrest, rfl⟩
    exact Unfolds.reference htext hasks hbody hinner hrest

theorem not_unfolds_unterminated {rest : List Char} (hrest : '\x7d' ∉ rest) :
    ¬ Unfolds defs (opening ++ rest) t := by
  intro h
  generalize hwhole : opening ++ rest = whole at h
  cases h with
  | done => cases hwhole
  | char hc _ => exact hc ⟨_, hwhole⟩
  | reference =>
    rw [List.append_cancel_left hwhole] at hrest
    simp at hrest

/-- A pattern unfolds to one tree. -/
theorem Unfolds.unique {pattern : List Char} {t' : Unfolded} (h : Unfolds defs pattern t)
    (h' : Unfolds defs pattern t') : t = t' := by
  induction h generalizing t' with
  | done => exact (unfolds_nil_iff.1 h').symm
  | char hc _ ih =>
    obtain ⟨rest', hrest', rfl⟩ := (unfolds_char_iff hc).1 h'
    rw [ih hrest']
  | reference htext hasks hbody _ _ ihInner ihRest =>
    obtain ⟨r', body', inner', rest', hasks', hbody', hinner', hrest', rfl⟩ :=
      (unfolds_reference_iff htext).1 h'
    obtain rfl := hasks.unique hasks'
    obtain rfl := Option.some.inj (hbody.symm.trans hbody')
    rw [ihInner hinner', ihRest hrest']

end Inversion

/-! ## Expansion -/

/-- How definitions are expanded in a pattern whose references are followed one step deeper. -/
def definitionWithin (defs : Definitions) (depth : Nat) (name : String) (k : Nat) :
    Except GrokFault Expansion :=
  match defs.find? name with
  | none => .error (.unknownName name)
  | some body => expandWithin defs depth body.toList k

theorem expandWithin_succ (defs : Definitions) (depth : Nat) (pattern : List Char) (k : Nat) :
    expandWithin defs (depth + 1) pattern k =
      expandParts (definitionWithin defs depth) pattern k (parts pattern) :=
  rfl

theorem definitionWithin_eq_ok_iff {defs : Definitions} {depth : Nat} {name : String} {k : Nat}
    {e : Expansion} :
    definitionWithin defs depth name k = .ok e ↔
      ∃ body, defs.find? name = some body ∧ expandWithin defs depth body.toList k = .ok e := by
  rw [definitionWithin]
  cases defs.find? name with
  | none => simp
  | some body => simp

section Parts

variable {definition : String → Nat → Except GrokFault Expansion} {pattern : List Char} {k : Nat}
  {items : List Part} {e : Expansion}

theorem expandParts_char_eq_ok_iff {c : Char} :
    expandParts definition pattern k (.char c :: items) = .ok e ↔
      ∃ after, expandParts definition pattern k items = .ok after ∧
        (Expansion.mk [c] []).append after = e := by
  rw [expandParts, bind_eq_ok_iff]
  simp only [pure, Except.pure, Except.ok.injEq]

theorem expandParts_reference_eq_ok_iff {text : List Char} :
    expandParts definition pattern k (.reference text :: items) = .ok e ↔
      ∃ r inner after, Asks text r ∧ definition r.name k = .ok inner ∧
        expandParts definition pattern (k + (inner.enclose r k).captures.length) items = .ok after ∧
        (inner.enclose r k).append after = e := by
  rw [expandParts]
  simp only [bind_eq_ok_iff, pure, Except.pure, Except.ok.injEq, asks_iff, exists_and_left]

end Parts

/-- The parts of a pattern are expanded when it unfolds, given the same of its definitions. -/
theorem expandParts_eq_ok_iff {defs : Definitions} {depth : Nat}
    (hdepth : ∀ body k e, expandWithin defs depth body k = .ok e ↔
      ∃ t, Unfolds defs body t ∧ t.nesting < depth ∧ e = t.expansion k)
    {text : List Char} {items : List Part} (h : Spells text items) (pattern : List Char) (k : Nat)
    (e : Expansion) :
    expandParts (definitionWithin defs depth) pattern k items = .ok e ↔
      ∃ t, Unfolds defs text t ∧ t.nesting < depth + 1 ∧ e = t.expansion k := by
  -- The number of groups before the rest depends on what the parts before it are expanded to.
  induction h generalizing k e with
  | done =>
    simp only [expandParts, unfolds_nil_iff]
    constructor
    · intro he
      cases he
      exact ⟨.done, rfl, Nat.succ_pos _, rfl⟩
    · rintro ⟨t, rfl, -, rfl⟩
      rfl
  | char hc _ ih =>
    simp only [expandParts_char_eq_ok_iff, unfolds_char_iff hc, ih]
    constructor
    · rintro ⟨after, ⟨t, ht, hnesting, rfl⟩, rfl⟩
      exact ⟨.char _ t, ⟨t, ht, rfl⟩, hnesting, rfl⟩
    · rintro ⟨_, ⟨t, ht, rfl⟩, hnesting, rfl⟩
      exact ⟨t.expansion k, ⟨t, ht, hnesting, rfl⟩, rfl⟩
  | reference htext _ ih =>
    simp only [expandParts_reference_eq_ok_iff, unfolds_reference_iff htext, ih,
      definitionWithin_eq_ok_iff, hdepth]
    constructor
    · rintro ⟨r, _, _, hasks, ⟨body, hbody, inner, hinner, hin, rfl⟩, ⟨t, ht, hafter, rfl⟩, rfl⟩
      refine ⟨.reference r inner t, ⟨r, body, inner, t, hasks, hbody, hinner, ht, rfl⟩, ?_, ?_⟩
      · exact Nat.max_lt.2 ⟨Nat.succ_lt_succ hin, hafter⟩
      · exact (Unfolded.expansion_reference ..).symm
    · rintro ⟨_, ⟨r, body, inner, t, hasks, hbody, hinner, ht, rfl⟩, hnesting, rfl⟩
      obtain ⟨hin, hafter⟩ := Nat.max_lt.1 hnesting
      exact ⟨r, _, _, hasks, ⟨body, hbody, inner, hinner, Nat.lt_of_succ_lt_succ hin, rfl⟩,
        ⟨t, ht, hafter, rfl⟩, (Unfolded.expansion_reference ..).symm⟩
  | unterminated hrest =>
    simp [expandParts, not_unfolds_unterminated hrest]

/-- A pattern is expanded to some depth when it unfolds to a tree that is not as deep. -/
theorem expandWithin_eq_ok_iff (defs : Definitions) (depth : Nat) :
    ∀ pattern k e, expandWithin defs depth pattern k = .ok e ↔
      ∃ t, Unfolds defs pattern t ∧ t.nesting < depth ∧ e = t.expansion k := by
  induction depth with
  | zero => simp [expandWithin]
  | succ depth ih =>
    intro pattern k e
    rw [expandWithin_succ]
    exact expandParts_eq_ok_iff ih (spells_parts pattern) pattern k e

/-- A pattern is expanded when it unfolds to a tree that is not too deep, to what the tree says. -/
theorem expand_eq_ok_iff {defs : Definitions} {pattern : String} {e : Expansion} :
    expand defs pattern = .ok e ↔
      ∃ t, Unfolds defs pattern.toList t ∧ t.nesting ≤ maxDepth ∧ e = t.expansion 0 := by
  rw [expand, expandWithin_eq_ok_iff]
  simp only [Nat.lt_succ_iff]

end LogWatch.Intake.Grok
