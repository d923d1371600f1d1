import LogWatch.Proofs.Condition.Tokens
import LogWatch.Proofs.Outcome
import Mathlib.Data.List.Basic

/-!
# The grammar of conditions

The grammar of conditions as a relation between tokens and expressions, and the proof that reading
follows it: a text is read as an expression just when the grammar derives the expression from its tokens.

* `Derives` — the grammar;
* `ReadsSound` — what has been read is derived, for every amount of fuel;
* `Derives.readsBack` — what is derived is read, with fuel for three steps a token;
* `ofText_reads_grammar` — both together.
-/

namespace LogWatch.Rule.Condition

open Token

/-! ## The grammar -/

/-- The set that a quantifier names after "of". -/
inductive Quantified : List Token → SelectionSet → Prop
  | them : Quantified [.of, .them] .them
  /-- An asterisk at the end stands for all that begins alike. -/
  | startingWith (start : String) :
      Quantified [.of, .name (start ++ "*")] (.startingWith start)
  /-- A name without one stands for itself. -/
  | named {word : String} : (∀ start : String, word ≠ start ++ "*") →
      Quantified [.of, .name word] (.named word)

/-- The kinds of phrases. -/
inductive Phrase where
  | either
  | both
  | negation
  | primary

/-- The tokens of some parts with a token between them. -/
def joined (sep : Token) (parts : List (List Token × Condition)) : List Token :=
  [sep].intercalate (parts.map (·.1))

/-- The tokens are a phrase of a kind, and this is its expression. -/
inductive Derives : Phrase → List Token → Condition → Prop
  /-- A single part needs no "or". -/
  | oneOr {ts : List Token} {c : Condition} : Derives .both ts c → Derives .either ts c
  /-- Parts with "or" between them. -/
  | manyOr {parts : List (List Token × Condition)} : 2 ≤ parts.length →
      (∀ p ∈ parts, Derives .both p.1 p.2) →
      Derives .either (joined .or parts) (.or (parts.map (·.2)))
  /-- A single part needs no "and". -/
  | oneAnd {ts : List Token} {c : Condition} : Derives .negation ts c → Derives .both ts c
  /-- Parts with "and" between them. -/
  | manyAnd {parts : List (List Token × Condition)} : 2 ≤ parts.length →
      (∀ p ∈ parts, Derives .negation p.1 p.2) →
      Derives .both (joined .and parts) (.and (parts.map (·.2)))
  | not {ts : List Token} {c : Condition} : Derives .negation ts c →
      Derives .negation (.not :: ts) (.not c)
  | plain {ts : List Token} {c : Condition} : Derives .primary ts c → Derives .negation ts c
  /-- A phrase in parentheses. -/
  | group {ts : List Token} {c : Condition} : Derives .either ts c →
      Derives .primary (.opening :: ts ++ [.closing]) c
  | oneOf {ts : List Token} {set : SelectionSet} : Quantified ts set →
      Derives .primary (.one :: ts) (.oneOf set)
  | allOf {ts : List Token} {set : SelectionSet} : Quantified ts set →
      Derives .primary (.all :: ts) (.allOf set)
  /-- The name of a selection has no asterisk in it. -/
  | selection {word : String} : '*' ∉ word.toList → Derives .primary [.name word] (.selection word)

/-- The tokens of a text derive an expression. -/
def Denotes (text : String) (c : Condition) : Prop :=
  ∃ ts, Lexes text.toList ts ∧ Derives .either ts c

/-! ## Chains -/

/-- The tokens of some parts with a token in front of each. -/
def following (sep : Token) (parts : List (List Token × Condition)) : List Token :=
  parts.flatMap fun p => sep :: p.1

/-- Of lists with an item between them, all but the first have it in front. -/
theorem intercalate_cons {α : Type} (sep : α) (first : List α) (others : List (List α)) :
    [sep].intercalate (first :: others) = first ++ others.flatMap fun as => sep :: as := by
  induction others generalizing first with
  | nil => simp
  | cons next others ih =>
    rw [List.intercalate_cons_cons, ih next, List.flatMap_cons]
    simp

theorem joined_cons (sep : Token) (p : List Token × Condition)
    (parts : List (List Token × Condition)) :
    joined sep (p :: parts) = p.1 ++ following sep parts := by
  rw [joined, List.map_cons, intercalate_cons, List.flatMap_map]
  rfl

/-- One part or several of them make up a chain. -/
theorem derives_or {p : List Token × Condition} {parts : List (List Token × Condition)}
    (h : ∀ q ∈ p :: parts, Derives .both q.1 q.2) :
    Derives .either (p.1 ++ following .or parts) (chain .or (p.2 :: parts.map (·.2))) := by
  cases parts with
  | nil =>
    rw [following, List.flatMap_nil, List.append_nil]
    exact .oneOr (h p (List.mem_cons_self ..))
  | cons q parts =>
    rw [← joined_cons]
    exact .manyOr (by simp) h

theorem derives_and {p : List Token × Condition} {parts : List (List Token × Condition)}
    (h : ∀ q ∈ p :: parts, Derives .negation q.1 q.2) :
    Derives .both (p.1 ++ following .and parts) (chain .and (p.2 :: parts.map (·.2))) := by
  cases parts with
  | nil =>
    rw [following, List.flatMap_nil, List.append_nil]
    exact .oneAnd (h p (List.mem_cons_self ..))
  | cons q parts =>
    rw [← joined_cons]
    exact .manyAnd (by simp) h

theorem Quantified.ne_nil {ts : List Token} {set : SelectionSet} (h : Quantified ts set) :
    ts ≠ [] := by
  cases h <;> exact List.cons_ne_nil _ _

/-- Phrases have tokens. -/
theorem Derives.ne_nil {k : Phrase} {ts : List Token} {c : Condition} (h : Derives k ts c) :
    ts ≠ [] := by
  induction h with
  | oneOr _ ih => exact ih
  | @manyOr parts hlen _ ih =>
    cases parts with
    | nil => cases hlen
    | cons p parts =>
      rw [joined_cons]
      exact List.append_ne_nil_of_left_ne_nil (ih p (List.mem_cons_self ..)) _
  | oneAnd _ ih => exact ih
  | @manyAnd parts hlen _ ih =>
    cases parts with
    | nil => cases hlen
    | cons p parts =>
      rw [joined_cons]
      exact List.append_ne_nil_of_left_ne_nil (ih p (List.mem_cons_self ..)) _
  | plain _ ih => exact ih
  | not _ _ => exact List.cons_ne_nil _ _
  | group _ _ => exact List.cons_ne_nil _ _
  | oneOf _ => exact List.cons_ne_nil _ _
  | allOf _ => exact List.cons_ne_nil _ _
  | selection _ => exact List.cons_ne_nil _ _

/-! ## Sets -/

/-- An asterisk at the end of a name is the last of its characters. -/
theorem setOfWord_append (start : String) : setOfWord (start ++ "*") = .startingWith start := by
  have hlist : (start ++ "*").toList = start.toList ++ ['*'] := by simp
  rw [setOfWord, hlist, List.getLast?_concat, List.dropLast_concat, String.ofList_toList]
  rfl

theorem setOfWord_of_not {word : String} (h : ∀ start : String, word ≠ start ++ "*") :
    setOfWord word = .named word := by
  rw [setOfWord]
  split
  · rename_i hlast
    have hlist : word.toList = word.toList.dropLast ++ ['*'] := by
      obtain ⟨front, hfront⟩ := List.getLast?_eq_some_iff.1 hlast
      rw [hfront, List.dropLast_concat]
    refine absurd ?_ (h (String.ofList word.toList.dropLast))
    rw [← String.toList_inj, hlist]
    simp
  · rfl

theorem quantified_name (word : String) : Quantified [.of, .name word] (setOfWord word) := by
  by_cases h : ∃ start : String, word = start ++ "*"
  · obtain ⟨start, rfl⟩ := h
    rw [setOfWord_append]
    exact .startingWith start
  · have h' : ∀ start : String, word ≠ start ++ "*" := fun start heq => h ⟨start, heq⟩
    rw [setOfWord_of_not h']
    exact .named h'

theorem readSet_sound {position : Nat} {tokens : List Token} {p : Progress SelectionSet}
    (h : readSet position tokens = .ok p) :
    ∃ used, tokens = used ++ p.rest ∧ Quantified used p.value := by
  unfold readSet at h
  split at h <;> cases h
  · exact ⟨[.of, .them], rfl, .them⟩
  · exact ⟨_, rfl, quantified_name _⟩

theorem readSet_complete {ts : List Token} {set : SelectionSet} (h : Quantified ts set)
    (position : Nat) (rest : List Token) :
    readSet position (ts ++ rest) = .ok ⟨set, position + ts.length, rest⟩ := by
  cases h with
  | them => rfl
  | startingWith start => simp [readSet, setOfWord_append]
  | named hword => simp [readSet, setOfWord_of_not hword]

/-! ## What is read is derived -/

/-- What is read with some fuel is derived from the tokens that have been used. -/
structure ReadsSound (fuel : Nat) : Prop where
  either : ∀ {position tokens p}, readEither fuel position tokens = .ok p →
    ∃ used, tokens = used ++ p.rest ∧ Derives .either used p.value
  alternatives : ∀ {position tokens p}, readAlternatives fuel position tokens = .ok p →
    ∃ parts, tokens = following .or parts ++ p.rest ∧ p.value = parts.map (·.2) ∧
      ∀ q ∈ parts, Derives .both q.1 q.2
  both : ∀ {position tokens p}, readBoth fuel position tokens = .ok p →
    ∃ used, tokens = used ++ p.rest ∧ Derives .both used p.value
  operands : ∀ {position tokens p}, readOperands fuel position tokens = .ok p →
    ∃ parts, tokens = following .and parts ++ p.rest ∧ p.value = parts.map (·.2) ∧
      ∀ q ∈ parts, Derives .negation q.1 q.2
  negation : ∀ {position tokens p}, readNegation fuel position tokens = .ok p →
    ∃ used, tokens = used ++ p.rest ∧ Derives .negation used p.value

theorem readsSound_zero : ReadsSound 0 where
  either h := by rw [readEither] at h; cases h
  alternatives h := by rw [readAlternatives] at h; cases h
  both h := by rw [readBoth] at h; cases h
  operands h := by rw [readOperands] at h; cases h
  negation h := by rw [readNegation] at h; cases h

section Readers

variable {fuel position : Nat} {tokens : List Token}

theorem ReadsSound.alternatives_succ {p : Progress (List Condition)} (ih : ReadsSound fuel)
    (h : readAlternatives (fuel + 1) position tokens = .ok p) :
    ∃ parts, tokens = following .or parts ++ p.rest ∧ p.value = parts.map (·.2) ∧
      ∀ q ∈ parts, Derives .both q.1 q.2 := by
  unfold readAlternatives at h
  split at h
  · cases ‹_›
  · rename_i tail hfuel
    cases hfuel
    obtain ⟨next, hnext, h⟩ := bind_eq_ok h
    obtain ⟨others, hothers, h⟩ := bind_eq_ok h
    cases h
    obtain ⟨used, rfl, hused⟩ := ih.both hnext
    obtain ⟨parts, hrest, hvalues, hparts⟩ := ih.alternatives hothers
    refine ⟨(used, next.value) :: parts, ?_, ?_, List.forall_mem_cons.2 ⟨hused, hparts⟩⟩
    · rw [hrest]
      simp [following]
    · simp only [hvalues, List.map_cons]
  · cases h
    exact ⟨[], rfl, rfl, by simp⟩

theorem ReadsSound.operands_succ {p : Progress (List Condition)} (ih : ReadsSound fuel)
    (h : readOperands (fuel + 1) position tokens = .ok p) :
    ∃ parts, tokens = following .and parts ++ p.rest ∧ p.value = parts.map (·.2) ∧
      ∀ q ∈ parts, Derives .negation q.1 q.2 := by
  unfold readOperands at h
  split at h
  · cases ‹_›
  · rename_i tail hfuel
    cases hfuel
    obtain ⟨next, hnext, h⟩ := bind_eq_ok h
    obtain ⟨others, hothers, h⟩ := bind_eq_ok h
    cases h
    obtain ⟨used, rfl, hused⟩ := ih.negation hnext
    obtain ⟨parts, hrest, hvalues, hparts⟩ := ih.operands hothers
    refine ⟨(used, next.value) :: parts, ?_, ?_, List.forall_mem_cons.2 ⟨hused, hparts⟩⟩
    · rw [hrest]
      simp [following]
    · simp only [hvalues, List.map_cons]
  · cases h
    exact ⟨[], rfl, rfl, by simp⟩

/-- Alternatives make up a chain. -/
theorem ReadsSound.either_succ {p : Progress Condition} (ih : ReadsSound fuel)
    (h : readEither (fuel + 1) position tokens = .ok p) :
    ∃ used, tokens = used ++ p.rest ∧ Derives .either used p.value := by
  rw [readEither] at h
  obtain ⟨first, hfirst, h⟩ := bind_eq_ok h
  obtain ⟨others, hothers, h⟩ := bind_eq_ok h
  cases h
  obtain ⟨used, rfl, hused⟩ := ih.both hfirst
  obtain ⟨parts, hrest, hvalues, hparts⟩ := ih.alternatives hothers
  refine ⟨used ++ following .or parts, by rw [hrest, List.append_assoc], ?_⟩
  have hall : ∀ q ∈ (used, first.value) :: parts, Derives .both q.1 q.2 :=
    List.forall_mem_cons.2 ⟨hused, hparts⟩
  simpa only [hvalues] using derives_or hall

/-- Operands make up a chain. -/
theorem ReadsSound.both_succ {p : Progress Condition} (ih : ReadsSound fuel)
    (h : readBoth (fuel + 1) position tokens = .ok p) :
    ∃ used, tokens = used ++ p.rest ∧ Derives .both used p.value := by
  rw [readBoth] at h
  obtain ⟨first, hfirst, h⟩ := bind_eq_ok h
  obtain ⟨others, hothers, h⟩ := bind_eq_ok h
  cases h
  obtain ⟨used, rfl, hused⟩ := ih.negation hfirst
  obtain ⟨parts, hrest, hvalues, hparts⟩ := ih.operands hothers
  refine ⟨used ++ following .and parts, by rw [hrest, List.append_assoc], ?_⟩
  have hall : ∀ q ∈ (used, first.value) :: parts, Derives .negation q.1 q.2 :=
    List.forall_mem_cons.2 ⟨hused, hparts⟩
  simpa only [hvalues] using derives_and hall

/-- The first token of a negation decides what it is. -/
theorem ReadsSound.negation_succ {p : Progress Condition} (ih : ReadsSound fuel)
    (h : readNegation (fuel + 1) position tokens = .ok p) :
    ∃ used, tokens = used ++ p.rest ∧ Derives .negation used p.value := by
  unfold readNegation at h
  split at h
  · cases ‹_›
  · rename_i tail hfuel
    cases hfuel
    obtain ⟨operand, hoperand, h⟩ := bind_eq_ok h
    cases h
    obtain ⟨used, rfl, hused⟩ := ih.negation hoperand
    exact ⟨.not :: used, rfl, .not hused⟩
  · rename_i tail hfuel
    cases hfuel
    obtain ⟨⟨value, position, rest⟩, hinner, hclose⟩ := bind_eq_ok h
    obtain ⟨used, rfl, hused⟩ := ih.either hinner
    cases rest with
    | nil => cases hclose
    | cons token rest =>
      cases token <;> cases hclose
      exact ⟨.opening :: used ++ [.closing], by simp, .plain (.group hused)⟩
  · rename_i tail hfuel
    cases hfuel
    obtain ⟨set, hset, h⟩ := bind_eq_ok h
    cases h
    obtain ⟨used, rfl, hused⟩ := readSet_sound hset
    exact ⟨.one :: used, rfl, .plain (.oneOf hused)⟩
  · rename_i tail hfuel
    cases hfuel
    obtain ⟨set, hset, h⟩ := bind_eq_ok h
    cases h
    obtain ⟨used, rfl, hused⟩ := readSet_sound hset
    exact ⟨.all :: used, rfl, .plain (.allOf hused)⟩
  · rename_i word rest hfuel
    split at h
    · cases h
    · rename_i hword
      cases h
      exact ⟨[.name word], rfl, .plain (.selection hword)⟩
  · cases h
  · cases h
  · cases h

end Readers

/-- With one unit of fuel more, the readers use what the others have read. -/
theorem ReadsSound.succ {fuel : Nat} (ih : ReadsSound fuel) : ReadsSound (fuel + 1) where
  either := ih.either_succ
  alternatives := ih.alternatives_succ
  both := ih.both_succ
  operands := ih.operands_succ
  negation := ih.negation_succ

theorem readsSound (fuel : Nat) : ReadsSound fuel := by
  induction fuel with
  | zero => exact readsSound_zero
  | succ fuel ih => exact ih.succ

/-! ## What is derived is read -/

/-- A phrase is read as its expression wherever it stands, if what follows does not prolong it and there
is fuel for three steps a token. -/
def ReadsBack : Phrase → List Token → Condition → Prop
  | .either, used, c => ∀ (fuel : Nat) (rest : List Token) (position : Nat),
    3 * used.length + 2 ≤ fuel → (∀ t ∈ rest.head?, t ≠ .or ∧ t ≠ .and) →
    readEither fuel position (used ++ rest) = .ok ⟨c, position + used.length, rest⟩
  | .both, used, c => ∀ (fuel : Nat) (rest : List Token) (position : Nat),
    3 * used.length + 1 ≤ fuel → (∀ t ∈ rest.head?, t ≠ .and) →
    readBoth fuel position (used ++ rest) = .ok ⟨c, position + used.length, rest⟩
  | _, used, c => ∀ (fuel : Nat) (rest : List Token) (position : Nat), 3 * used.length ≤ fuel →
    readNegation fuel position (used ++ rest) = .ok ⟨c, position + used.length, rest⟩

theorem following_cons (sep : Token) (p : List Token × Condition)
    (parts : List (List Token × Condition)) :
    following sep (p :: parts) = sep :: (p.1 ++ following sep parts) := by
  rw [following, List.flatMap_cons, List.cons_append, following]

/-- What follows a chain of parts starts with the token between them, or with what comes next. -/
theorem head?_following {sep : Token} {parts : List (List Token × Condition)} {rest : List Token}
    {t : Token} (h : t ∈ (following sep parts ++ rest).head?) : t = sep ∨ t ∈ rest.head? := by
  cases parts with
  | nil => exact Or.inr h
  | cons p parts =>
    rw [following_cons] at h
    exact Or.inl (Option.some.inj h).symm

theorem readAlternatives_stop {rest : List Token} (hrest : ∀ t ∈ rest.head?, t ≠ .or)
    (fuel position : Nat) : readAlternatives (fuel + 1) position rest = .ok ⟨[], position, rest⟩ := by
  rw [readAlternatives]
  rintro tail rfl
  exact hrest .or rfl rfl

theorem readOperands_stop {rest : List Token} (hrest : ∀ t ∈ rest.head?, t ≠ .and)
    (fuel position : Nat) : readOperands (fuel + 1) position rest = .ok ⟨[], position, rest⟩ := by
  rw [readOperands]
  rintro tail rfl
  exact hrest .and rfl rfl

theorem readAlternatives_following {parts : List (List Token × Condition)}
    (hparts : ∀ q ∈ parts, ReadsBack .both q.1 q.2) {rest : List Token} (fuel position : Nat)
    (hfuel : 3 * (following .or parts).length + 1 ≤ fuel)
    (hrest : ∀ t ∈ rest.head?, t ≠ .or ∧ t ≠ .and) :
    readAlternatives fuel position (following .or parts ++ rest) =
      .ok ⟨parts.map (·.2), position + (following .or parts).length, rest⟩ := by
  obtain ⟨fuel, rfl⟩ : ∃ n, fuel = n + 1 := ⟨fuel - 1, by omega⟩
  induction parts generalizing fuel position with
  | nil => exact readAlternatives_stop (fun t ht => (hrest t ht).1) fuel position
  | cons p parts ih =>
    rw [List.forall_mem_cons] at hparts
    rw [following_cons, List.length_cons, List.length_append] at hfuel
    obtain ⟨fuel, rfl⟩ : ∃ n, fuel = n + 1 := ⟨fuel - 1, by omega⟩
    have hnext : ∀ t ∈ (following .or parts ++ rest).head?, t ≠ .and := by
      intro t ht
      rcases head?_following ht with rfl | ht
      · exact Token.noConfusion
      · exact (hrest t ht).2
    have hfirst := hparts.1 (fuel + 1) _ (position + 1) (by omega) hnext
    have hothers := ih hparts.2 (position + 1 + p.1.length) fuel (by omega)
    rw [following_cons, List.cons_append, List.append_assoc, readAlternatives, hfirst]
    simp only [bind, Except.bind, hothers, pure, Except.pure, List.map_cons, List.length_cons,
      List.length_append]
    congr 2
    omega

theorem readOperands_following {parts : List (List Token × Condition)}
    (hparts : ∀ q ∈ parts, ReadsBack .negation q.1 q.2) {rest : List Token} (fuel position : Nat)
    (hfuel : 3 * (following .and parts).length + 1 ≤ fuel)
    (hrest : ∀ t ∈ rest.head?, t ≠ .and) :
    readOperands fuel position (following .and parts ++ rest) =
      .ok ⟨parts.map (·.2), position + (following .and parts).length, rest⟩ := by
  obtain ⟨fuel, rfl⟩ : ∃ n, fuel = n + 1 := ⟨fuel - 1, by omega⟩
  induction parts generalizing fuel position with
  | nil => exact readOperands_stop hrest fuel position
  | cons p parts ih =>
    rw [List.forall_mem_cons] at hparts
    rw [following_cons, List.length_cons, List.length_append] at hfuel
    obtain ⟨fuel, rfl⟩ : ∃ n, fuel = n + 1 := ⟨fuel - 1, by omega⟩
    have hfirst := hparts.1 (fuel + 1) (following .and parts ++ rest) (position + 1) (by omega)
    have hothers := ih hparts.2 (position + 1 + p.1.length) fuel (by omega)
    rw [following_cons, List.cons_append, List.append_assoc, readOperands, hfirst]
    simp only [bind, Except.bind, hothers, pure, Except.pure, List.map_cons, List.length_cons,
      List.length_append]
    congr 2
    omega

/-- Parts that are read back make up a chain that is read back. -/
theorem readsBack_or {p : List Token × Condition} {parts : List (List Token × Condition)}
    (h : ∀ q ∈ p :: parts, ReadsBack .both q.1 q.2) :
    ReadsBack .either (p.1 ++ following .or parts) (chain .or (p.2 :: parts.map (·.2))) := by
  intro fuel rest position hfuel hrest
  rw [List.forall_mem_cons] at h
  rw [List.length_append] at hfuel
  obtain ⟨fuel, rfl⟩ : ∃ n, fuel = n + 1 := ⟨fuel - 1, by omega⟩
  have hnext : ∀ t ∈ (following .or parts ++ rest).head?, t ≠ .and := by
    intro t ht
    rcases head?_following ht with rfl | ht
    · exact Token.noConfusion
    · exact (hrest t ht).2
  have hfirst := h.1 fuel _ position (by omega) hnext
  have hothers := readAlternatives_following h.2 fuel (position + p.1.length) (by omega)
    hrest
  rw [List.append_assoc, readEither, hfirst]
  simp only [bind, Except.bind, hothers, pure, Except.pure, List.length_append, Nat.add_assoc]

theorem readsBack_and {p : List Token × Condition} {parts : List (List Token × Condition)}
    (hne : p.1 ≠ []) (h : ∀ q ∈ p :: parts, ReadsBack .negation q.1 q.2) :
    ReadsBack .both (p.1 ++ following .and parts) (chain .and (p.2 :: parts.map (·.2))) := by
  intro fuel rest position hfuel hrest
  rw [List.forall_mem_cons] at h
  rw [List.length_append] at hfuel
  have hpos := List.length_pos_iff.2 hne
  obtain ⟨fuel, rfl⟩ : ∃ n, fuel = n + 1 := ⟨fuel - 1, by omega⟩
  have hfirst := h.1 fuel (following .and parts ++ rest) position (by omega)
  have hothers := readOperands_following h.2 fuel (position + p.1.length) (by omega) hrest
  rw [List.append_assoc, readBoth, hfirst]
  simp only [bind, Except.bind, hothers, pure, Except.pure, List.length_append, Nat.add_assoc]

/-- A phrase in front of a token of its own. -/
theorem readsBack_not {ts : List Token} {c : Condition} (h : ReadsBack .negation ts c) :
    ReadsBack .negation (.not :: ts) (.not c) := by
  intro fuel rest position hfuel
  rw [List.length_cons] at hfuel
  obtain ⟨fuel, rfl⟩ : ∃ n, fuel = n + 1 := ⟨fuel - 1, by omega⟩
  have hoperand := h fuel rest (position + 1) (by omega)
  rw [List.cons_append, readNegation, hoperand]
  simp only [bind, Except.bind, pure, Except.pure, List.length_cons, Nat.add_assoc, Nat.add_comm 1]

/-- The parenthesis that closes a group prolongs no phrase. -/
theorem readsBack_group {ts : List Token} {c : Condition} (h : ReadsBack .either ts c) :
    ReadsBack .primary (.opening :: ts ++ [.closing]) c := by
  intro fuel rest position hfuel
  rw [List.length_append, List.length_cons, List.length_singleton] at hfuel
  obtain ⟨fuel, rfl⟩ : ∃ n, fuel = n + 1 := ⟨fuel - 1, by omega⟩
  have hclosing : ∀ t ∈ (Token.closing :: rest).head?, t ≠ .or ∧ t ≠ .and := by
    rintro t ⟨⟩
    exact ⟨Token.noConfusion, Token.noConfusion⟩
  have hinner := h fuel _ (position + 1) (by omega) hclosing
  rw [List.cons_append, List.cons_append, List.append_assoc, List.singleton_append, readNegation,
    hinner]
  simp only [bind, Except.bind, pure, Except.pure, List.length_append, List.length_cons,
    List.length_nil]
  congr 2
  omega

theorem readsBack_oneOf {ts : List Token} {set : SelectionSet} (h : Quantified ts set) :
    ReadsBack .primary (.one :: ts) (.oneOf set) := by
  intro fuel rest position hfuel
  rw [List.length_cons] at hfuel
  obtain ⟨fuel, rfl⟩ : ∃ n, fuel = n + 1 := ⟨fuel - 1, by omega⟩
  rw [List.cons_append, readNegation, readSet_complete h]
  simp only [bind, Except.bind, pure, Except.pure, List.length_cons, Nat.add_assoc, Nat.add_comm 1]

theorem readsBack_allOf {ts : List Token} {set : SelectionSet} (h : Quantified ts set) :
    ReadsBack .primary (.all :: ts) (.allOf set) := by
  intro fuel rest position hfuel
  rw [List.length_cons] at hfuel
  obtain ⟨fuel, rfl⟩ : ∃ n, fuel = n + 1 := ⟨fuel - 1, by omega⟩
  rw [List.cons_append, readNegation, readSet_complete h]
  simp only [bind, Except.bind, pure, Except.pure, List.length_cons, Nat.add_assoc, Nat.add_comm 1]

theorem readsBack_selection {word : String} (h : '*' ∉ word.toList) :
    ReadsBack .primary [.name word] (.selection word) := by
  intro fuel rest position hfuel
  rw [List.length_singleton] at hfuel
  obtain ⟨fuel, rfl⟩ : ∃ n, fuel = n + 1 := ⟨fuel - 1, by omega⟩
  rw [List.singleton_append, readNegation, if_neg h, List.length_singleton]

/-- What is derived is read. -/
theorem Derives.readsBack {k : Phrase} {ts : List Token} {c : Condition} (h : Derives k ts c) :
    ReadsBack k ts c := by
  induction h with
  | @oneOr ts c _ ih =>
    have hone : ∀ q ∈ [(ts, c)], ReadsBack .both q.1 q.2 := by
      intro q hq
      rw [List.mem_singleton.1 hq]
      exact ih
    have h := readsBack_or hone
    rwa [following, List.flatMap_nil, List.append_nil] at h
  | @manyOr parts hlen _ ih =>
    match parts, hlen with
    | p :: q :: parts, _ =>
      rw [joined_cons]
      exact readsBack_or ih
  | @oneAnd ts c hderives ih =>
    have hone : ∀ q ∈ [(ts, c)], ReadsBack .negation q.1 q.2 := by
      intro q hq
      rw [List.mem_singleton.1 hq]
      exact ih
    have h := readsBack_and hderives.ne_nil hone
    rwa [following, List.flatMap_nil, List.append_nil] at h
  | @manyAnd parts hlen hderives ih =>
    match parts, hlen with
    | p :: q :: parts, _ =>
      rw [joined_cons]
      exact readsBack_and (hderives p (List.mem_cons_self ..)).ne_nil ih
  | not _ ih => exact readsBack_not ih
  | plain _ ih => exact ih
  | group _ ih => exact readsBack_group ih
  | oneOf hset => exact readsBack_oneOf hset
  | allOf hset => exact readsBack_allOf hset
  | selection hword => exact readsBack_selection hword

/-! ## Reading follows the grammar -/

/-- Tokens are read as an expression just when they derive it. -/
theorem ofTokens_eq_ok_iff {ts : List Token} {c : Condition} :
    ofTokens ts = .ok c ↔ Derives .either ts c := by
  constructor
  · intro h
    rw [ofTokens] at h
    split at h
    · cases h
    · split at h <;> cases h
      rename_i hread
      obtain ⟨used, hts, hused⟩ := (readsSound _).either hread
      rw [List.append_nil] at hts
      rwa [hts]
  · intro h
    have hread := h.readsBack (4 * ts.length + 4) [] 0 (by omega) (by simp)
    rw [List.append_nil] at hread
    rw [ofTokens, if_neg (by simpa using h.ne_nil), hread]

/-- A text is read as an expression just when its tokens derive it. -/
theorem ofText_eq_ok_iff {text : String} {c : Condition} :
    ofText text = .ok c ↔ Denotes text c := by
  rw [ofText, ofTokens_eq_ok_iff]
  constructor
  · intro h
    exact ⟨_, Token.scan_eq_iff.1 rfl, h⟩
  · rintro ⟨ts, hts, h⟩
    rwa [Token.scan_eq_iff.2 hts]

/-- Each text has one list of tokens.  It is read as an expression just when the grammar derives the
expression from them, there is one such expression at most, and any other text is refused. -/
theorem ofText_reads_grammar (text : String) :
    (∃! ts, Lexes text.toList ts) ∧
    (∀ c, ofText text = .ok c ↔ Denotes text c) ∧
    (∀ c d, Denotes text c → Denotes text d → c = d) ∧
    ((¬ ∃ c, Denotes text c) → ∃ fault, ofText text = .error fault) := by
  refine ⟨?_, fun c => ofText_eq_ok_iff, ?_, ?_⟩
  · refine ⟨Token.scan text, Token.scan_eq_iff.1 rfl, ?_⟩
    intro ts hts
    exact (Token.scan_eq_iff.2 hts).symm
  · intro c d hc hd
    have heq := (ofText_eq_ok_iff.2 hc).symm.trans (ofText_eq_ok_iff.2 hd)
    exact Except.ok.inj heq
  · intro hnone
    cases h : ofText text with
    | error fault => exact ⟨fault, rfl⟩
    | ok c => exact absurd ⟨c, ofText_eq_ok_iff.1 h⟩ hnone

end LogWatch.Rule.Condition
