import LogWatch.Proofs.Intake.Nesting
import Mathlib.Data.List.Nodup

/-!
# Groups of an expanded pattern

The groups that fill fields are numbered, each number once.  Unless a text that is met spells such a group
itself, the expanded pattern opens it at one place.

* `Opens`, `openings` — where a group is opened;
* `openings_append` — the places in a text that is put together at a parenthesis;
* `Silent`, `Unfolds.openings_text` — the places in an unfolded pattern;
* `expand_by_unfolding` — when a pattern is expanded, and to what.
-/

namespace LogWatch.Intake.Grok

/-! ## Names -/

theorem groupName_injective : Function.Injective groupName := by
  intro j k h
  have htext := congrArg String.toList h
  rw [groupName, groupName, String.toList_append, String.toList_append, Nat.toString_eq_repr,
    Nat.toString_eq_repr, Nat.toList_repr, Nat.toList_repr] at htext
  have hread := congrArg (Nat.ofDigitChars 10 · 0) (List.append_cancel_left htext)
  simpa using hread

/-- The name of a group is spelt without the signs around it. -/
theorem not_mem_groupName {c : Char} (hc : c = '(' ∨ c = ')' ∨ c = '>') (k : Nat) :
    c ∉ (groupName k).toList := by
  have hdigit : c.isDigit = false := by
    rcases hc with rfl | rfl | rfl <;> rfl
  have hg : c ≠ 'g' := by
    rintro rfl
    exact absurd hc (by decide)
  rw [groupName, String.toList_append, List.mem_append, not_or]
  refine ⟨by simpa using hg, fun h => ?_⟩
  rw [Nat.toString_eq_repr, Nat.toList_repr] at h
  rw [Nat.isDigit_of_mem_toDigits (by decide) (by decide) h] at hdigit
  cases hdigit

/-! ## Openings -/

/-- What stands behind the parenthesis that opens a group of a name. -/
def groupMarks (name : String) : List (List Char) :=
  ["?P<".toList ++ (name.toList ++ ['>']), "?<".toList ++ (name.toList ++ ['>'])]

/-- A text begins with the opening of a group of a name. -/
def Opens (name : String) (text : List Char) : Prop :=
  ∃ mark ∈ groupMarks name, '(' :: mark <+: text

instance (name : String) (text : List Char) : Decidable (Opens name text) :=
  inferInstanceAs (Decidable (∃ mark ∈ groupMarks name, '(' :: mark <+: text))

/-- At how many places of a text a group of a name is opened. -/
def openings (name : String) : List Char → Nat
  | [] => 0
  | c :: rest => (if Opens name (c :: rest) then 1 else 0) + openings name rest

section Openings

variable {name : String}

theorem opens_cons_iff {c : Char} {rest : List Char} :
    Opens name (c :: rest) ↔ c = '(' ∧ ∃ mark ∈ groupMarks name, mark <+: rest := by
  simp only [Opens, List.cons_prefix_cons]
  constructor
  · rintro ⟨mark, hmark, rfl, hbegin⟩
    exact ⟨rfl, mark, hmark, hbegin⟩
  · rintro ⟨rfl, mark, hmark, hbegin⟩
    exact ⟨mark, hmark, rfl, hbegin⟩

/-- No group is opened where there is no parenthesis. -/
theorem openings_append_of_not_mem {as : List Char} (h : '(' ∉ as) (rest : List Char) :
    openings name (as ++ rest) = openings name rest := by
  induction as with
  | nil => rfl
  | cons a as ih =>
    rw [List.mem_cons, not_or] at h
    rw [List.cons_append, openings, if_neg, ih h.2, Nat.zero_add]
    exact fun hopens => h.1 (opens_cons_iff.1 hopens).1.symm

/-- No group is opened in a text that has no names in angle brackets. -/
theorem openings_eq_zero {text : List Char} (h : '<' ∉ text) : openings name text = 0 := by
  induction text with
  | nil => rfl
  | cons c rest ih =>
    rw [List.mem_cons, not_or] at h
    have hopens : ¬ Opens name (c :: rest) := by
      rw [opens_cons_iff]
      rintro ⟨-, mark, hmark, hbegin⟩
      have hbracket : '<' ∈ mark := by
        simp only [groupMarks, List.mem_cons, List.not_mem_nil, or_false] at hmark
        rcases hmark with rfl | rfl <;> simp
      exact h.2 (hbegin.subset hbracket)
    rw [openings, if_neg hopens, ih h.2]

theorem openings_le_append (as rest : List Char) :
    openings name rest ≤ openings name (as ++ rest) := by
  induction as with
  | nil => exact Nat.le_refl _
  | cons a as ih => exact Nat.le_trans ih (Nat.le_add_left ..)

end Openings

/-! ## Texts put together at a parenthesis -/

/-- A text that begins with a parenthesis, or is empty. -/
def IsEdge (text : List Char) : Prop :=
  ∀ c ∈ text.head?, c = '(' ∨ c = ')'

/-- Behind its first parenthesis an opening has no other one. -/
theorem not_mem_groupMarks {mark : List Char} {k : Nat} (h : mark ∈ groupMarks (groupName k)) {c : Char}
    (hc : c = '(' ∨ c = ')') : c ∉ mark := by
  have hname := not_mem_groupName (hc.imp_right Or.inl) k
  simp only [groupMarks, List.mem_cons, List.not_mem_nil, or_false] at h
  rcases hc with rfl | rfl <;> rcases h with rfl | rfl <;> simpa using hname

/-- A text without parentheses does not reach over an edge. -/
theorem prefix_of_prefix_append {mark as rest : List Char} (hmark : ∀ c, c = '(' ∨ c = ')' → c ∉ mark)
    (hrest : IsEdge rest) (h : mark <+: as ++ rest) : mark <+: as := by
  rcases List.prefix_or_prefix_of_prefix h (List.prefix_append as rest) with hshort | ⟨more, rfl⟩
  · exact hshort
  · -- Otherwise the mark would go on with the parenthesis at the edge.
    cases more with
    | nil => simp
    | cons c more =>
      obtain ⟨tail, htail⟩ := h
      rw [List.append_assoc, List.cons_append] at htail
      have hhead : c ∈ rest.head? := by
        rw [← List.append_cancel_left htail]
        rfl
      exact absurd (List.mem_append_right _ List.mem_cons_self) (hmark c (hrest c hhead))

/-- A group that is opened in front of an edge is opened by what stands there. -/
theorem opens_append_iff {k : Nat} {c : Char} {as rest : List Char} (hrest : IsEdge rest) :
    Opens (groupName k) (c :: (as ++ rest)) ↔ Opens (groupName k) (c :: as) := by
  rw [opens_cons_iff, opens_cons_iff]
  refine and_congr_right fun _ => exists_congr fun mark => and_congr_right fun hmark => ?_
  exact ⟨prefix_of_prefix_append (fun _ => not_mem_groupMarks hmark) hrest,
    fun h => h.trans (List.prefix_append as rest)⟩

/-- The places in front of an edge and those behind it. -/
theorem openings_append {k : Nat} (as : List Char) {rest : List Char} (hrest : IsEdge rest) :
    openings (groupName k) (as ++ rest) =
      openings (groupName k) as + openings (groupName k) rest := by
  induction as with
  | nil => rw [List.nil_append, openings, Nat.zero_add]
  | cons a as ih => simp only [List.cons_append, openings, opens_append_iff hrest, ih, Nat.add_assoc]

/-- A numbered group opens the group of its number, and no other one. -/
theorem opens_numbered_iff {j k : Nat} {rest : List Char} :
    Opens (groupName k) ('(' :: ("?P<".toList ++ ((groupName j).toList ++ '>' :: rest))) ↔ j = k := by
  have hclose (i : Nat) : '>' ∉ (groupName i).toList := not_mem_groupName (Or.inr (Or.inr rfl)) i
  rw [opens_cons_iff]
  constructor
  · rintro ⟨-, mark, hmark, hbegin⟩
    simp only [groupMarks, List.mem_cons, List.not_mem_nil, or_false] at hmark
    rcases hmark with rfl | rfl
    · obtain ⟨tail, htail⟩ := (List.prefix_append_right_inj _).1 hbegin
      rw [List.append_assoc, List.singleton_append] at htail
      obtain ⟨hname, -⟩ := Text.eq_of_append_cons_eq (hclose k) (hclose j) htail
      exact (groupName_injective (String.toList_inj.1 hname)).symm
    · simp at hbegin
  · rintro rfl
    refine ⟨rfl, _, List.mem_cons_self, (List.prefix_append_right_inj _).2 ⟨rest, ?_⟩⟩
    rw [List.append_assoc, List.singleton_append]

/-- A reference with a field opens the group of its number, and one without none. -/
theorem openings_groupHead (r : Reference) (j k : Nat) (rest : List Char) :
    openings (groupName k) (r.groupHead j ++ rest) =
      (if r.field.isSome ∧ j = k then 1 else 0) + openings (groupName k) rest := by
  obtain ⟨name, field, conversion⟩ := r
  cases field with
  | none =>
    have htext : Reference.groupHead ⟨name, none, conversion⟩ j ++ rest =
        '(' :: ("?:".toList ++ rest) := rfl
    have hopens : ¬ Opens (groupName k) ('(' :: ("?:".toList ++ rest)) := by
      simp [opens_cons_iff, groupMarks]
    have hhead : openings (groupName k) ("?:".toList ++ rest) = openings (groupName k) rest :=
      openings_append_of_not_mem (by decide) rest
    rw [htext, openings, if_neg hopens, hhead, if_neg (by simp)]
  | some field =>
    have htext : Reference.groupHead ⟨name, some field, conversion⟩ j ++ rest =
        '(' :: ("?P<".toList ++ ((groupName j).toList ++ '>' :: rest)) := by
      simp [Reference.groupHead]
    have hhead : openings (groupName k) ("?P<".toList ++ ((groupName j).toList ++ '>' :: rest)) =
        openings (groupName k) rest := by
      have hopen : '(' ∉ "?P<".toList ++ ((groupName j).toList ++ ['>']) := by
        simp [not_mem_groupName]
      rw [← openings_append_of_not_mem hopen rest]
      simp
    rw [htext, openings, hhead]
    simp only [opens_numbered_iff, Option.isSome_some, true_and]

/-! ## Unfolded patterns -/

/-- The characters before the first reference. -/
def Unfolded.run : Unfolded → List Char
  | .char c rest => c :: rest.run
  | _ => []

/-- The expanded text goes on with a parenthesis behind the characters before the first reference. -/
theorem Unfolded.text_eq_run_append (t : Unfolded) (k : Nat) :
    ∃ more, t.text k = t.run ++ more ∧ IsEdge more := by
  induction t with
  | done => exact ⟨[], rfl, by simp [IsEdge]⟩
  | char c rest ih =>
    obtain ⟨more, hmore, hedge⟩ := ih
    exact ⟨more, congrArg (c :: ·) hmore, hedge⟩
  | reference r inner rest =>
    refine ⟨_, rfl, fun c hc => Or.inl ?_⟩
    obtain ⟨name, field, conversion⟩ := r
    cases field <;> simpa [Unfolded.text, Reference.groupHead, eq_comm] using hc

variable {defs : Definitions}

theorem Unfolds.run_prefix {pattern : List Char} {t : Unfolded} (h : Unfolds defs pattern t) :
    t.run <+: pattern := by
  induction h with
  | done => exact List.nil_prefix
  | char _ _ ih => exact (List.prefix_cons_inj _).2 ih
  | reference => exact List.nil_prefix

/-- No text that is met while a pattern is unfolded opens a group of a name. -/
def Silent (defs : Definitions) (name : String) (pattern : List Char) : Prop :=
  ∀ k text, Met defs pattern k text → openings name text = 0

theorem Silent.rest {name : String} {front rest : List Char} (h : Silent defs name (front ++ rest))
    (hmentions : ∀ other, Mentions rest other → Mentions (front ++ rest) other) :
    Silent defs name rest := by
  intro k text hmet
  rcases hmet.of_mentions hmentions with ⟨-, rfl⟩ | hmet
  · have hzero : openings name (front ++ text) = 0 := h 0 _ .pattern
    exact Nat.eq_zero_of_le_zero (hzero ▸ openings_le_append front text)
  · exact h k text hmet

theorem Silent.definition {name other body : String} {pattern : List Char}
    (h : Silent defs name pattern) (hother : Mentions pattern other)
    (hbody : defs.find? other = some body) : Silent defs name body.toList :=
  fun k text hmet => h (k + 1) text (hmet.of_definition hother hbody)

/-- A character of a silent pattern does not open a group in the expanded text either. -/
theorem Silent.not_opens {number : Nat} {c : Char} {rest : List Char} {t : Unfolded}
    (h : Silent defs (groupName number) (c :: rest)) (hunfolds : Unfolds defs rest t) (k : Nat) :
    ¬ Opens (groupName number) (c :: t.text k) := by
  obtain ⟨more, hmore, hedge⟩ := t.text_eq_run_append k
  rw [hmore, opens_append_iff hedge]
  rintro ⟨mark, hmark, hbegin⟩
  have hspelt : Opens (groupName number) (c :: rest) :=
    ⟨mark, hmark, hbegin.trans ((List.prefix_cons_inj c).2 hunfolds.run_prefix)⟩
  have hzero := h 0 _ .pattern
  rw [openings, if_pos hspelt] at hzero
  omega

/-- In a silent pattern the expanded text opens a group once or, when its number is not that of a field,
not at all. -/
theorem Unfolds.openings_text {pattern : List Char} {t : Unfolded} (h : Unfolds defs pattern t)
    {number : Nat} (hsilent : Silent defs (groupName number) pattern) (k : Nat) :
    openings (groupName number) (t.text k) =
      if k ≤ number ∧ number < k + t.fields.length then 1 else 0 := by
  -- Only a reference brings openings, one for its own field; the ranges of numbers of its definition, its
  -- field and the rest follow each other.
  induction h generalizing k with
  | done => rw [Unfolded.text, openings, if_neg (by simp [Unfolded.fields])]
  | @char c rest t hc hunfolds ih =>
    have hrest : Silent defs (groupName number) rest :=
      @Silent.rest defs _ [c] rest hsilent fun _ => mentions_char hc
    rw [Unfolded.text, openings, if_neg (hsilent.not_opens hunfolds k), ih hrest, Nat.zero_add,
      Unfolded.fields]
  | @reference text rest r body inner t htext hasks hbody _ _ ihInner ihRest =>
    have hinner : Silent defs (groupName number) body.toList :=
      hsilent.definition (mentions_name htext hasks) hbody
    have hfront : opening ++ (text ++ '\x7d' :: rest) = opening ++ (text ++ ['\x7d']) ++ rest := by
      simp
    have hrest : Silent defs (groupName number) rest := by
      have hmentions := fun other => @mentions_reference text rest htext other
      rw [hfront] at hsilent hmentions
      exact hsilent.rest hmentions
    have hclose (more : List Char) : IsEdge (')' :: more) := by
      simp [IsEdge]
    have hback (more : List Char) :
        openings (groupName number) (')' :: more) = openings (groupName number) more :=
      openings_append_of_not_mem (show '(' ∉ [')'] by decide) more
    rw [Unfolded.text, openings_groupHead, openings_append _ (hclose _), hback, ihInner hinner,
      ihRest hrest, Unfolded.fields]
    simp only [List.length_append, Reference.length_ownFields]
    cases r.field.isSome <;> simp only [Bool.false_eq_true, if_true, if_false, true_and, false_and] <;>
      split_ifs <;> omega

/-! ## Expanded patterns -/

theorem Unfolded.captures_zero (t : Unfolded) :
    t.captures 0 = t.fields.mapIdx fun k f => ⟨groupName k, f.1, f.2⟩ := by
  rw [captures, List.mapIdx_eq_zipIdx_map]

/-- No two fields have one group. -/
theorem Unfolded.nodup_groups (t : Unfolded) (k : Nat) :
    ((t.captures k).map Capture.group).Nodup := by
  have hgroups : (t.captures k).map Capture.group =
      ((t.fields.zipIdx k).map Prod.snd).map groupName := by
    rw [captures, List.map_map, List.map_map]
    rfl
  rw [hgroups, List.zipIdx_map_snd]
  exact (List.nodup_range' 1).map groupName_injective

/-- A pattern is expanded just when no text is met deeper than 32 definitions and each text that is met can
be read and refers to definitions that there are; behind a cycle of references some text is too deep.  In the
expansion groups stand for the references.  Those of fields are numbered from zero on, inner ones before the
outer one, and a group that no text which is met spells itself is opened once. -/
theorem expand_by_unfolding (defs : Definitions) (pattern : String) :
    ((∃ e, expand defs pattern = .ok e) ↔
      ∀ k text, Met defs pattern.toList k text → k ≤ 32 ∧ Resolves defs text) ∧
    (∀ first name, Mentions pattern.toList first →
      Relation.ReflTransGen (Refers defs) first name → Relation.TransGen (Refers defs) name name →
        ∃ fault, expand defs pattern = .error fault) ∧
    ∀ e, expand defs pattern = .ok e →
      ∃ t, Unfolds defs pattern.toList t ∧ e.text = t.text 0 ∧
        e.captures = t.fields.mapIdx (fun k f => ⟨groupName k, f.1, f.2⟩) ∧
        (e.captures.map Capture.group).Nodup ∧
        ∀ number < e.captures.length,
          (∀ k text, Met defs pattern.toList k text → openings (groupName number) text = 0) →
            openings (groupName number) e.text = 1 := by
  have hok : (∃ e, expand defs pattern = .ok e) ↔
      ∀ k text, Met defs pattern.toList k text → k ≤ 32 ∧ Resolves defs text := by
    rw [← exists_unfolds_iff]
    constructor
    · rintro ⟨e, he⟩
      obtain ⟨t, ht, hle, -⟩ := expand_eq_ok_iff.1 he
      exact ⟨t, ht, hle⟩
    · rintro ⟨t, ht, hle⟩
      exact ⟨t.expansion 0, expand_eq_ok_iff.2 ⟨t, ht, hle, rfl⟩⟩
  refine ⟨hok, ?_, ?_⟩
  · intro first name hfirst hpath hcycle
    obtain ⟨k, -, hname⟩ :=
      MentionedAt.exists_of_reflTransGen ⟨pattern.toList, .pattern, hfirst⟩ hpath
    obtain ⟨deep, hdeep, text, hmet, -⟩ := hname.exists_of_cycle hcycle 33
    cases he : expand defs pattern with
    | error fault => exact ⟨fault, rfl⟩
    | ok e =>
      have hle := (hok.1 ⟨e, he⟩ deep text hmet).1
      omega
  · intro e he
    obtain ⟨t, ht, -, rfl⟩ := expand_eq_ok_iff.1 he
    refine ⟨t, ht, rfl, t.captures_zero, t.nodup_groups 0, ?_⟩
    intro number hnumber hmet
    have hfields : number < 0 + t.fields.length := by
      rwa [Nat.zero_add, ← t.length_captures 0]
    exact (ht.openings_text hmet 0).trans (if_pos ⟨Nat.zero_le number, hfields⟩)

/-- Fields within a field, and definitions that refer to each other. -/
theorem expand_by_unfolding_nested :
    let defs : Definitions := Dictionary.ofPairs [
      ("PAIR", "%\x7bKEY:key\x7d=%\x7bVALUE:value:int\x7d"), ("KEY", "[a-z]+"), ("VALUE", "[0-9]+"),
      ("THERE", "%\x7bBACK\x7d"), ("BACK", "%\x7bTHERE\x7d")]
    (∃ e t, expand defs "<%\x7bPAIR:pair\x7d>" = .ok e ∧ Unfolds defs "<%\x7bPAIR:pair\x7d>".toList t ∧
      e.text = t.text 0 ∧ e.captures.map Capture.group = ["g0", "g1", "g2"] ∧ 2 < e.captures.length ∧
      (∀ k text, Met defs "<%\x7bPAIR:pair\x7d>".toList k text → openings (groupName 2) text = 0) ∧
      openings (groupName 2) e.text = 1) ∧
    Mentions "%\x7bTHERE\x7d".toList "THERE" ∧ Relation.TransGen (Refers defs) "THERE" "THERE" ∧
    ∃ fault, expand defs "%\x7bTHERE\x7d" = .error fault := by
  intro defs
  constructor
  · have he : expand defs "<%\x7bPAIR:pair\x7d>" =
        .ok ⟨"<(?P<g2>(?P<g0>[a-z]+)=(?P<g1>[0-9]+))>".toList,
          [⟨"g0", "key", .text⟩, ⟨"g1", "value", .int⟩, ⟨"g2", "pair", .text⟩]⟩ := by
      decide +kernel
    have hspelt : ∀ p ∈ defs, '<' ∉ p.2.toList := by decide +kernel
    have hmet : ∀ k text, Met defs "<%\x7bPAIR:pair\x7d>".toList k text →
        openings (groupName 2) text = 0 := by
      intro k text htext
      rcases htext.eq_or_mem with rfl | ⟨p, hp, rfl⟩
      · decide +kernel
      · exact openings_eq_zero (hspelt p hp)
    obtain ⟨t, ht, htext, -, -, honce⟩ := (expand_by_unfolding defs _).2.2 _ he
    exact ⟨_, t, he, ht, htext, rfl, by decide, hmet, honce 2 (by decide) hmet⟩
  · have hthere : Mentions "%\x7bTHERE\x7d".toList "THERE" :=
      ⟨"THERE".toList, ⟨"THERE", none, .text⟩, ⟨_, spells_parts _, by decide +kernel⟩,
        asks_iff.2 (by decide +kernel), rfl⟩
    have hback : Mentions "%\x7bBACK\x7d".toList "BACK" :=
      ⟨"BACK".toList, ⟨"BACK", none, .text⟩, ⟨_, spells_parts _, by decide +kernel⟩,
        asks_iff.2 (by decide +kernel), rfl⟩
    have hcycle : Relation.TransGen (Refers defs) "THERE" "THERE" :=
      .tail (.single ⟨"%\x7bBACK\x7d", by decide +kernel, hback⟩)
        ⟨"%\x7bTHERE\x7d", by decide +kernel, hthere⟩
    exact ⟨hthere, hcycle, (expand_by_unfolding defs "%\x7bTHERE\x7d").2.1 _ _ hthere .refl hcycle⟩

/-- The group of a field is opened twice when the pattern spells it itself, though no definition does. -/
theorem spelt_group_opened_twice :
    let defs : Definitions := [("NOTSPACE", "\\S+")]
    expand defs "(?P<g0>a)%\x7bNOTSPACE:f\x7d" =
      .ok ⟨"(?P<g0>a)(?P<g0>\\S+)".toList, [⟨groupName 0, "f", .text⟩]⟩ ∧
    (∀ p ∈ defs, openings (groupName 0) p.2.toList = 0) ∧
    openings (groupName 0) "(?P<g0>a)(?P<g0>\\S+)".toList = 2 := by
  decide +kernel

end LogWatch.Intake.Grok
