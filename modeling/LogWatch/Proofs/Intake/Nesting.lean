import LogWatch.Proofs.Intake.Unfolding
import Mathlib.Logic.Relation

/-!
# What is met while a pattern is unfolded

A pattern unfolds to a tree of bounded depth when each text that is met on the way can be read and names
known definitions only, and none is met too deep.  Behind a cycle of references texts are met at any depth.

* `Met` — the texts that are met, and how deep;
* `exists_unfolds_iff` — when a pattern unfolds;
* `Refers`, `MentionedAt.exists_of_cycle` — references that lead back to their own definition.
-/

namespace LogWatch.Intake.Grok

/-! ## References in a text -/

/-- A reference with this text stands in a pattern. -/
def HasReference (pattern text : List Char) : Prop :=
  ∃ items, Spells pattern items ∧ .reference text ∈ items

/-- All references of a pattern are closed. -/
def IsClosed (pattern : List Char) : Prop :=
  ∃ items, Spells pattern items ∧ .unterminated ∉ items

/-- A pattern has a reference to a definition. -/
def Mentions (pattern : List Char) (name : String) : Prop :=
  ∃ text r, HasReference pattern text ∧ Asks text r ∧ r.name = name

/-- A pattern can be read, and each of its references asks for a definition that there is. -/
def Resolves (defs : Definitions) (pattern : List Char) : Prop :=
  IsClosed pattern ∧
    ∀ text, HasReference pattern text → ∃ r body, Asks text r ∧ defs.find? r.name = some body

theorem Spells.hasReference_iff {pattern : List Char} {items : List Part} (h : Spells pattern items)
    {text : List Char} : HasReference pattern text ↔ .reference text ∈ items := by
  constructor
  · rintro ⟨items', h', hmem⟩
    rwa [← h.parts_eq, h'.parts_eq]
  · exact fun hmem => ⟨items, h, hmem⟩

theorem hasReference_char_iff {c : Char} {rest text : List Char} (hc : ¬ opening <+: c :: rest) :
    HasReference (c :: rest) text ↔ HasReference rest text := by
  have hrest := spells_parts rest
  rw [hrest.hasReference_iff, (Spells.char hc hrest).hasReference_iff, List.mem_cons]
  simp

theorem hasReference_reference_iff {text rest other : List Char} (htext : '\x7d' ∉ text) :
    HasReference (opening ++ (text ++ '\x7d' :: rest)) other ↔
      other = text ∨ HasReference rest other := by
  have hrest := spells_parts rest
  rw [hrest.hasReference_iff, (Spells.reference htext hrest).hasReference_iff, List.mem_cons,
    Part.reference.injEq]

theorem mentions_char {c : Char} {rest : List Char} (hc : ¬ opening <+: c :: rest) {name : String}
    (h : Mentions rest name) : Mentions (c :: rest) name := by
  obtain ⟨text, r, htext, hasks⟩ := h
  exact ⟨text, r, (hasReference_char_iff hc).2 htext, hasks⟩

theorem mentions_reference {text rest : List Char} (htext : '\x7d' ∉ text) {name : String}
    (h : Mentions rest name) : Mentions (opening ++ (text ++ '\x7d' :: rest)) name := by
  obtain ⟨other, r, hother, hasks⟩ := h
  exact ⟨other, r, (hasReference_reference_iff htext).2 (Or.inr hother), hasks⟩

theorem mentions_name {text rest : List Char} {r : Reference} (htext : '\x7d' ∉ text) (h : Asks text r) :
    Mentions (opening ++ (text ++ '\x7d' :: rest)) r.name :=
  ⟨text, r, (hasReference_reference_iff htext).2 (Or.inl rfl), h, rfl⟩

/-! ## Texts that are met -/

/-- The texts that are met while a pattern is unfolded: the pattern itself, and the definitions that a
text which is met refers to, one step deeper. -/
inductive Met (defs : Definitions) (pattern : List Char) : Nat → List Char → Prop
  | pattern : Met defs pattern 0 pattern
  | definition {k : Nat} {text : List Char} {name body : String} (htext : Met defs pattern k text)
      (hname : Mentions text name) (hbody : defs.find? name = some body) :
      Met defs pattern (k + 1) body.toList

variable {defs : Definitions}

/-- What is met in a definition is met a step deeper in a pattern that refers to it. -/
theorem Met.of_definition {pattern : List Char} {name body : String} (hname : Mentions pattern name)
    (hbody : defs.find? name = some body) {k : Nat} {text : List Char}
    (h : Met defs body.toList k text) : Met defs pattern (k + 1) text := by
  induction h with
  | pattern => exact .definition .pattern hname hbody
  | definition _ hname' hbody' ih => exact .definition ih hname' hbody'

/-- What is met behind the first parts of a pattern is met in the pattern, except the rest itself. -/
theorem Met.of_mentions {pattern rest : List Char} (h : ∀ name, Mentions rest name → Mentions pattern name)
    {k : Nat} {text : List Char} (hmet : Met defs rest k text) :
    (k = 0 ∧ text = rest) ∨ Met defs pattern k text := by
  induction hmet with
  | pattern => exact Or.inl ⟨rfl, rfl⟩
  | definition _ hname hbody ih =>
    rcases ih with ⟨rfl, rfl⟩ | hmet
    · exact Or.inr (.definition .pattern (h _ hname) hbody)
    · exact Or.inr (.definition hmet hname hbody)

/-- Behind the pattern only definitions are met. -/
theorem Met.eq_or_mem {pattern : List Char} {k : Nat} {text : List Char}
    (h : Met defs pattern k text) : text = pattern ∨ ∃ p ∈ defs, text = p.2.toList := by
  cases h with
  | pattern => exact Or.inl rfl
  | definition _ _ hbody => exact Or.inr ⟨_, Dictionary.mem_of_find? hbody, rfl⟩

/-! ## Unfolding and what is met -/

theorem Unfolds.isClosed {pattern : List Char} {t : Unfolded} (h : Unfolds defs pattern t) :
    IsClosed pattern := by
  induction h with
  | done => exact ⟨[], .done, List.not_mem_nil⟩
  | char hc _ ih =>
    obtain ⟨items, hitems, hclosed⟩ := ih
    exact ⟨_, .char hc hitems, by simpa using hclosed⟩
  | reference htext _ _ _ _ _ ih =>
    obtain ⟨items, hitems, hclosed⟩ := ih
    exact ⟨_, .reference htext hitems, by simpa using hclosed⟩

/-- Behind each reference of a pattern that unfolds stands a definition that unfolds less deep. -/
theorem Unfolds.inner {pattern : List Char} {t : Unfolded} (h : Unfolds defs pattern t)
    {text : List Char} (htext : HasReference pattern text) :
    ∃ r body inner, Asks text r ∧ defs.find? r.name = some body ∧
      Unfolds defs body.toList inner ∧ inner.nesting < t.nesting := by
  induction h with
  | done =>
    rw [Spells.done.hasReference_iff] at htext
    cases htext
  | char hc _ ih => exact ih ((hasReference_char_iff hc).1 htext)
  | @reference _ _ r body inner t hclosed hasks hbody hinner _ _ ih =>
    rcases (hasReference_reference_iff hclosed).1 htext with rfl | hrest
    · exact ⟨r, body, inner, hasks, hbody, hinner, Nat.le_max_left ..⟩
    · obtain ⟨r', body', inner', hasks', hbody', hinner', hlt⟩ := ih hrest
      exact ⟨r', body', inner', hasks', hbody', hinner', Nat.lt_of_lt_of_le hlt (Nat.le_max_right ..)⟩

theorem Unfolds.resolves {pattern : List Char} {t : Unfolded} (h : Unfolds defs pattern t) :
    Resolves defs pattern := by
  refine ⟨h.isClosed, fun text htext => ?_⟩
  obtain ⟨r, body, -, hasks, hbody, -⟩ := h.inner htext
  exact ⟨r, body, hasks, hbody⟩

/-- Each text that is met unfolds, and the less deep the deeper it is met. -/
theorem Met.unfolds {pattern : List Char} {t : Unfolded} (h : Unfolds defs pattern t) {k : Nat}
    {text : List Char} (hmet : Met defs pattern k text) :
    ∃ t', Unfolds defs text t' ∧ t'.nesting + k ≤ t.nesting := by
  induction hmet with
  | pattern => exact ⟨t, h, Nat.le_refl _⟩
  | definition _ hname hbody ih =>
    obtain ⟨t', ht', hle⟩ := ih
    obtain ⟨text, r, htext, hasks, rfl⟩ := hname
    obtain ⟨r', body', inner, hasks', hbody', hinner, hlt⟩ := ht'.inner htext
    rw [hasks.unique hasks', hbody'] at hbody
    cases hbody
    exact ⟨inner, hinner, by omega⟩

/-- A text unfolds when its definitions do. -/
theorem exists_unfolds_of_spells {n : Nat} {pattern : List Char} {items : List Part}
    (h : Spells pattern items) (hclosed : .unterminated ∉ items)
    (hinner : ∀ text, .reference text ∈ items → ∃ r body inner, Asks text r ∧
      defs.find? r.name = some body ∧ Unfolds defs body.toList inner ∧ inner.nesting < n) :
    ∃ t, Unfolds defs pattern t ∧ t.nesting ≤ n := by
  induction h with
  | done => exact ⟨.done, .done, Nat.zero_le n⟩
  | char hc _ ih =>
    obtain ⟨t, ht, hle⟩ := ih (fun hmem => hclosed (List.mem_cons_of_mem _ hmem))
      (fun text hmem => hinner text (List.mem_cons_of_mem _ hmem))
    exact ⟨.char _ t, .char hc ht, hle⟩
  | reference htext _ ih =>
    obtain ⟨t, ht, hle⟩ := ih (fun hmem => hclosed (List.mem_cons_of_mem _ hmem))
      (fun text hmem => hinner text (List.mem_cons_of_mem _ hmem))
    obtain ⟨r, body, inner, hasks, hbody, hin, hlt⟩ := hinner _ List.mem_cons_self
    exact ⟨.reference r inner t, .reference htext hasks hbody hin ht, Nat.max_le.2 ⟨hlt, hle⟩⟩
  | unterminated => exact absurd (List.mem_singleton_self _) hclosed

/-- A pattern unfolds to a tree of bounded depth just when nothing is met too deep and each text that is
met can be read and refers to definitions that there are. -/
theorem exists_unfolds_iff {pattern : List Char} {n : Nat} :
    (∃ t, Unfolds defs pattern t ∧ t.nesting ≤ n) ↔
      ∀ k text, Met defs pattern k text → k ≤ n ∧ Resolves defs text := by
  constructor
  · rintro ⟨t, ht, hle⟩ k text hmet
    obtain ⟨t', ht', hle'⟩ := hmet.unfolds ht
    exact ⟨by omega, ht'.resolves⟩
  · intro h
    -- A definition may be met with one step less than the pattern that refers to it.
    induction n using Nat.strongRecOn generalizing pattern with
    | ind n ih =>
      obtain ⟨⟨items, hitems, hclosed⟩, hrefs⟩ := (h 0 pattern .pattern).2
      refine exists_unfolds_of_spells hitems hclosed fun text hmem => ?_
      obtain ⟨r, body, hasks, hbody⟩ := hrefs text ⟨items, hitems, hmem⟩
      have hname : Mentions pattern r.name := ⟨text, r, ⟨items, hitems, hmem⟩, hasks, rfl⟩
      have hpos : 1 ≤ n := (h 1 _ (.definition .pattern hname hbody)).1
      have hbelow : ∀ k met, Met defs body.toList k met → k ≤ n - 1 ∧ Resolves defs met := by
        intro k met hmet
        obtain ⟨hle, hresolves⟩ := h (k + 1) met (hmet.of_definition hname hbody)
        exact ⟨Nat.le_sub_of_add_le hle, hresolves⟩
      obtain ⟨inner, hinner, hle⟩ := ih (n - 1) (Nat.sub_lt hpos Nat.one_pos) hbelow
      exact ⟨r, body, inner, hasks, hbody, hinner, Nat.lt_of_le_sub_one hpos hle⟩

/-! ## Cycles -/

/-- One definition has a reference to another one. -/
def Refers (defs : Definitions) (name other : String) : Prop :=
  ∃ body, defs.find? name = some body ∧ Mentions body.toList other

/-- A text that is met at some depth refers to a definition. -/
def MentionedAt (defs : Definitions) (pattern : List Char) (k : Nat) (name : String) : Prop :=
  ∃ text, Met defs pattern k text ∧ Mentions text name

section Cycles

variable {pattern : List Char} {name other : String} {k : Nat}

/-- What a definition refers to is mentioned one step deeper than the definition. -/
theorem MentionedAt.refers (h : MentionedAt defs pattern k name) (hrefers : Refers defs name other) :
    MentionedAt defs pattern (k + 1) other := by
  obtain ⟨text, hmet, hname⟩ := h
  obtain ⟨body, hbody, hother⟩ := hrefers
  exact ⟨body.toList, .definition hmet hname hbody, hother⟩

theorem MentionedAt.exists_of_reflTransGen (h : MentionedAt defs pattern k name)
    (hpath : Relation.ReflTransGen (Refers defs) name other) :
    ∃ k', k ≤ k' ∧ MentionedAt defs pattern k' other := by
  induction hpath with
  | refl => exact ⟨k, Nat.le_refl k, h⟩
  | tail _ hstep ih =>
    obtain ⟨k', hle, hk'⟩ := ih
    exact ⟨k' + 1, Nat.le_succ_of_le hle, hk'.refers hstep⟩

/-- Behind a cycle a definition is mentioned as deep as one likes. -/
theorem MentionedAt.exists_of_cycle (h : MentionedAt defs pattern k name)
    (hcycle : Relation.TransGen (Refers defs) name name) (n : Nat) :
    ∃ k', n ≤ k' ∧ MentionedAt defs pattern k' name := by
  induction n with
  | zero => exact ⟨k, Nat.zero_le k, h⟩
  | succ n ih =>
    obtain ⟨k', hle, hk'⟩ := ih
    obtain ⟨next, hstep, hback⟩ := Relation.TransGen.head'_iff.1 hcycle
    obtain ⟨k'', hle', hk''⟩ := (hk'.refers hstep).exists_of_reflTransGen hback
    exact ⟨k'', by omega, hk''⟩

end Cycles

end LogWatch.Intake.Grok
