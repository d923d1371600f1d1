import LogWatch.Proofs.Pattern.Rewriting

/-!
# Numbers that stand alone

Numbers are replaced token by token, a token being what stands between blanks.  Nothing else of the text
is touched, no expression comes to match anew, and no token of the new text holds a number.

* `isNumber_iff` — what counts as a number is a numeral;
* `HoldsNumber`, `IsTokenOf` — a token that is a number between brackets and punctuation;
* `occursAfter_of_replaceNumbers`, `not_holdsNumber_of_isTokenOf`, `replaceNumbers_eq_self` — what
  replacing numbers does to a text.
-/

namespace LogWatch.Report.Pattern

open Text

/-! ## Numerals -/

theorem isDigits_iff {cs : List Char} : isDigits cs = true ↔ cs ∈ some1 isDigit := by
  rw [mem_some1, isDigits, Bool.and_eq_true, List.all_eq_true, Bool.not_eq_true',
    ← Bool.not_eq_true, List.isEmpty_iff]

theorem mem_unsigned {w : List Char} :
    w ∈ unsigned ↔ w ∈ some1 isDigit ∨
      ∃ a b, (∀ c ∈ a, isDigit c = true) ∧ b ∈ some1 isDigit ∧ w = a ++ '.' :: b := by
  constructor
  · intro h
    rcases (Language.mem_add _ _ _).1 h with h | h
    · obtain ⟨a, ha, x, hx, rfl⟩ := Language.mem_mul.1 h
      rcases (Language.mem_add _ _ _).1 hx with hx | hx
      · rw [Language.mem_one] at hx
        subst hx
        exact Or.inl (by rwa [List.append_nil])
      · obtain ⟨p, hp, b, hb, rfl⟩ := Language.mem_mul.1 hx
        rw [mem_mark] at hp
        subst hp
        exact Or.inr ⟨a, b, (mem_some1.1 ha).2, hb, rfl⟩
    · obtain ⟨p, hp, b, hb, rfl⟩ := Language.mem_mul.1 h
      rw [mem_mark] at hp
      subst hp
      exact Or.inr ⟨[], b, by simp, hb, rfl⟩
  · have hdot : ['.'] ∈ mark '.' := mem_mark.2 rfl
    rintro (h | ⟨a, b, ha, hb, rfl⟩)
    · refine (Language.mem_add _ _ _).2 (Or.inl ?_)
      have := Language.append_mem_mul h ((Language.mem_add 1 (mark '.' * some1 isDigit) []).2
        (Or.inl Language.nil_mem_one))
      rwa [List.append_nil] at this
    · have hfraction : '.' :: b ∈ mark '.' * some1 isDigit := Language.append_mem_mul hdot hb
      by_cases hne : a = []
      · subst hne
        exact (Language.mem_add _ _ _).2 (Or.inr hfraction)
      · refine (Language.mem_add _ _ _).2 (Or.inl (Language.append_mem_mul
          (mem_some1.2 ⟨hne, ha⟩) ((Language.mem_add _ _ _).2 (Or.inr hfraction))))

theorem mem_numeral {w : List Char} :
    w ∈ numeral ↔ w ∈ unsigned ∨ ∃ s v, (s = '+' ∨ s = '-') ∧ v ∈ unsigned ∧ w = s :: v := by
  constructor
  · intro h
    obtain ⟨s, hs, v, hv, rfl⟩ := Language.mem_mul.1 h
    rcases (Language.mem_add _ _ _).1 hs with hs | hs
    · rcases (Language.mem_add _ _ _).1 hs with hs | hs
      · rw [Language.mem_one] at hs
        subst hs
        exact Or.inl hv
      · rw [mem_mark] at hs
        subst hs
        exact Or.inr ⟨'+', v, Or.inl rfl, hv, rfl⟩
    · rw [mem_mark] at hs
      subst hs
      exact Or.inr ⟨'-', v, Or.inr rfl, hv, rfl⟩
  · rintro (h | ⟨s, v, hs, hv, rfl⟩)
    · have hnil : [] ∈ 1 + mark '+' + mark '-' :=
        (Language.mem_add _ _ _).2 (Or.inl ((Language.mem_add _ _ _).2 (Or.inl Language.nil_mem_one)))
      exact Language.append_mem_mul hnil h
    · have hsign : [s] ∈ 1 + mark '+' + mark '-' := by
        rcases hs with rfl | rfl
        · exact (Language.mem_add _ _ _).2 (Or.inl ((Language.mem_add _ _ _).2
            (Or.inr (mem_mark.2 rfl))))
        · exact (Language.mem_add _ _ _).2 (Or.inr (mem_mark.2 rfl))
      exact Language.append_mem_mul hsign hv

/-- A character that unsigned numbers are made of. -/
def isUnsigned (c : Char) : Bool :=
  isDigit c || c == '.'

/-- A character that numerals are made of. -/
def isNumeric (c : Char) : Bool :=
  isUnsigned c || c == '+' || c == '-'

theorem isUnsigned_of_isDigit {c : Char} (h : isDigit c = true) : isUnsigned c = true := by
  rw [isUnsigned, h, Bool.true_or]

theorem isNumeric_of_isUnsigned {c : Char} (h : isUnsigned c = true) : isNumeric c = true := by
  rw [isNumeric, h, Bool.true_or, Bool.true_or]

theorem unsigned_over : Over isUnsigned unsigned := by
  have hdigits : Over isUnsigned (some1 isDigit) := over_some1 fun _ => isUnsigned_of_isDigit
  intro w hw c hc
  rcases mem_unsigned.1 hw with h | ⟨a, b, ha, hb, rfl⟩
  · exact hdigits w h c hc
  · rcases List.mem_append.1 hc with h | h
    · exact isUnsigned_of_isDigit (ha c h)
    · rcases List.mem_cons.1 h with rfl | h
      · decide
      · exact hdigits b hb c h

theorem numeral_over : Over isNumeric numeral := by
  intro w hw c hc
  rcases mem_numeral.1 hw with h | ⟨s, v, hs, hv, rfl⟩
  · exact isNumeric_of_isUnsigned (unsigned_over w h c hc)
  · rcases List.mem_cons.1 hc with rfl | h
    · rcases hs with rfl | rfl <;> decide
    · exact isNumeric_of_isUnsigned (unsigned_over v hv c h)

theorem unsigned_ne_nil {w : List Char} (hw : w ∈ unsigned) : w ≠ [] := by
  rcases mem_unsigned.1 hw with h | ⟨a, b, -, -, rfl⟩
  · exact (mem_some1.1 h).1
  · simp

theorem numeral_ne_nil {w : List Char} (hw : w ∈ numeral) : w ≠ [] := by
  rcases mem_numeral.1 hw with h | ⟨s, v, -, -, rfl⟩
  · exact unsigned_ne_nil h
  · exact List.cons_ne_nil s v

/-- What follows a sign, if there is one. -/
def dropSign : List Char → List Char
  | '+' :: rest => rest
  | '-' :: rest => rest
  | rest => rest

/-- Digits, and then nothing or a point and further digits. -/
def readsUnsigned (body : List Char) : Bool :=
  match body.drop (body.takeWhile isDigit).length with
  | [] => isDigits (body.takeWhile isDigit)
  | '.' :: rest => isDigits rest
  | _ => false

theorem isNumber_eq (cs : List Char) : isNumber cs = readsUnsigned (dropSign cs) := rfl

theorem readsUnsigned_iff {body : List Char} : readsUnsigned body = true ↔ body ∈ unsigned := by
  have hsplit : body = body.takeWhile isDigit ++ body.drop (body.takeWhile isDigit).length :=
    (List.prefix_iff_eq_append.1 (List.takeWhile_prefix isDigit)).symm
  have hwhole : ∀ c ∈ body.takeWhile isDigit, isDigit c = true := fun c hc =>
    List.mem_takeWhile_imp hc
  rw [mem_unsigned, readsUnsigned]
  constructor
  · intro h
    split at h
    · rename_i hnil
      rw [hnil, List.append_nil] at hsplit
      rw [← hsplit] at h
      exact Or.inl (isDigits_iff.1 h)
    · rename_i rest hrest
      rw [hrest] at hsplit
      exact Or.inr ⟨_, rest, hwhole, isDigits_iff.1 h, hsplit⟩
    · cases h
  · rintro (h | ⟨a, b, ha, hb, rfl⟩)
    · have htake : body.takeWhile isDigit = body :=
        List.takeWhile_eq_self_iff.2 (mem_some1.1 h).2
      rw [htake, List.drop_length]
      exact isDigits_iff.2 h
    · have htake : (a ++ '.' :: b).takeWhile isDigit = a :=
        takeWhile_append_of_stop ha (by rintro c ⟨⟩; decide)
      rw [htake, List.drop_left]
      exact isDigits_iff.2 hb

/-- Unsigned numbers have no sign to drop. -/
theorem mem_numeral_iff_dropSign {cs : List Char} : cs ∈ numeral ↔ dropSign cs ∈ unsigned := by
  have hnot : ∀ {s v}, s = '+' ∨ s = '-' → s :: v ∉ unsigned := by
    intro s v hs hmem
    have := unsigned_over _ hmem s (List.mem_cons_self ..)
    rcases hs with rfl | rfl <;> exact absurd this (by decide)
  have hsigned : ∀ {s v}, s = '+' ∨ s = '-' → (s :: v ∈ numeral ↔ v ∈ unsigned) := by
    intro s v hs
    rw [mem_numeral]
    constructor
    · rintro (h | ⟨t, u, -, hu, heq⟩)
      · exact absurd h (hnot hs)
      · rwa [(List.cons.inj heq).2]
    · exact fun h => Or.inr ⟨s, v, hs, h, rfl⟩
  rw [dropSign.eq_def]
  split
  · exact hsigned (Or.inl rfl)
  · exact hsigned (Or.inr rfl)
  · rename_i hplus hminus
    rw [mem_numeral]
    constructor
    · rintro (h | ⟨s, u, hs, -, rfl⟩)
      · exact h
      · rcases hs with rfl | rfl
        · exact absurd rfl (hplus u)
        · exact absurd rfl (hminus u)
    · exact Or.inl

theorem isNumber_iff {cs : List Char} : isNumber cs = true ↔ cs ∈ numeral := by
  rw [isNumber_eq, readsUnsigned_iff, mem_numeral_iff_dropSign]

/-! ## Tokens -/

/-- There is no blank in it. -/
def Unbroken (t : List Char) : Prop :=
  ∀ c ∈ t, isBlank c = false

/-- A token that is a number between brackets and punctuation. -/
def HoldsNumber (t : List Char) : Prop :=
  ∃ front core back, t = front ++ core ++ back ∧ (∀ c ∈ front, opensToken c = true) ∧
    core ∈ numeral ∧ ∀ c ∈ back, closesToken c = true

/-- The token is what stands in a text between two blanks, or between a blank and an end. -/
def IsTokenOf (t cs : List Char) : Prop :=
  ∃ a b, cs = a ++ t ++ b ∧ Unbroken t ∧ (∀ c ∈ a.getLast?, isBlank c = true) ∧
    ∀ c ∈ b.head?, isBlank c = true

theorem not_opensToken_of_isNumeric {c : Char} (h : isNumeric c = true) : opensToken c = false := by
  rw [← Bool.not_eq_true]
  intro hopen
  simp only [opensToken, Bool.or_eq_true, beq_iff_eq] at hopen
  rcases hopen with rfl | rfl <;> exact absurd h (by decide)

theorem not_closesToken_of_isNumeric {c : Char} (h : isNumeric c = true) :
    closesToken c = false := by
  rw [← Bool.not_eq_true]
  intro hclose
  simp only [closesToken, Bool.or_eq_true, beq_iff_eq] at hclose
  rcases hclose with (((rfl | rfl) | rfl) | rfl) | rfl <;> exact absurd h (by decide)

theorem dropWhile_append_of_stop {isIn : Char → Bool} {w rest : List Char}
    (hw : ∀ c ∈ w, isIn c = true) (hrest : ∀ c ∈ rest.head?, isIn c = false) :
    (w ++ rest).dropWhile isIn = rest := by
  rw [List.dropWhile_append_of_pos hw]
  cases rest with
  | nil => rfl
  | cons c rest => simp [hrest c rfl]

/-- A token has no other parts than those around a numeral it holds. -/
theorem tokenParts_eq {front core back : List Char} (hfront : ∀ c ∈ front, opensToken c = true)
    (hcore : core ∈ numeral) (hback : ∀ c ∈ back, closesToken c = true) :
    tokenParts (front ++ core ++ back) = (front, core, back) := by
  have hne := numeral_ne_nil hcore
  have hhead : ∀ c ∈ (core ++ back).head?, opensToken c = false := by
    intro c hc
    rw [List.head?_append_of_ne_nil core hne] at hc
    exact not_opensToken_of_isNumeric (numeral_over core hcore c (List.mem_of_mem_head? hc))
  have hlast : ∀ c ∈ core.reverse.head?, closesToken c = false := by
    intro c hc
    have hmem := List.mem_reverse.1 (List.mem_of_mem_head? hc)
    exact not_closesToken_of_isNumeric (numeral_over core hcore c hmem)
  have hback' : ∀ c ∈ back.reverse, closesToken c = true := fun c hc =>
    hback c (List.mem_reverse.1 hc)
  simp only [tokenParts, List.append_assoc, takeWhile_append_of_stop hfront hhead,
    dropWhile_append_of_stop hfront hhead, List.reverse_append,
    dropWhile_append_of_stop hback' hlast, List.reverse_reverse, List.drop_left]

/-- The three parts make up the token. -/
theorem tokenParts_append (t : List Char) :
    (tokenParts t).1 ++ (tokenParts t).2.1 ++ (tokenParts t).2.2 = t ∧
      (∀ c ∈ (tokenParts t).1, opensToken c = true) ∧
      ∀ c ∈ (tokenParts t).2.2, closesToken c = true := by
  simp only [tokenParts]
  generalize hrest : t.dropWhile opensToken = rest
  have hsplit : rest = (rest.reverse.dropWhile closesToken).reverse ++
      (rest.reverse.takeWhile closesToken).reverse := by
    rw [← List.reverse_append, List.takeWhile_append_dropWhile, List.reverse_reverse]
  have hback : rest.drop (rest.reverse.dropWhile closesToken).reverse.length =
      (rest.reverse.takeWhile closesToken).reverse := by
    conv_lhs => rw [hsplit]
    simp only [List.reverse_append, List.reverse_reverse, List.takeWhile_append_dropWhile,
      List.drop_left]
  rw [hback]
  refine ⟨?_, fun c hc => List.mem_takeWhile_imp hc, fun c hc => ?_⟩
  · rw [List.append_assoc, ← hsplit, ← hrest, List.takeWhile_append_dropWhile]
  · exact List.mem_takeWhile_imp (List.mem_reverse.1 hc)

/-! ## Replacing in a token -/

theorem replaceNumber_of_not {t : List Char} (h : ¬ HoldsNumber t) : replaceNumber t = t := by
  obtain ⟨hsplit, hfront, hback⟩ := tokenParts_append t
  have hnot : isNumber (tokenParts t).2.1 = false := by
    rw [← Bool.not_eq_true, isNumber_iff]
    exact fun hcore => h ⟨_, _, _, hsplit.symm, hfront, hcore, hback⟩
  simp [replaceNumber, hnot]

theorem replaceNumber_of_holdsNumber {t : List Char} (h : HoldsNumber t) :
    ∃ front core back, t = front ++ core ++ back ∧ (∀ c ∈ front, opensToken c = true) ∧
      (∀ c ∈ back, closesToken c = true) ∧
      replaceNumber t = front ++ '#' :: (['N', 'U', 'M'] ++ '#' :: back) := by
  obtain ⟨front, core, back, rfl, hfront, hcore, hback⟩ := h
  refine ⟨front, core, back, rfl, hfront, hback, ?_⟩
  rw [replaceNumber, tokenParts_eq hfront hcore hback]
  simp [isNumber_iff.2 hcore, numberToken]

/-- A new token holds no number: if it has been replaced, it holds a sign. -/
theorem not_holdsNumber_replaceNumber (t : List Char) : ¬ HoldsNumber (replaceNumber t) := by
  by_cases h : HoldsNumber t
  · obtain ⟨front, core, back, -, -, -, heq⟩ := replaceNumber_of_holdsNumber h
    rintro ⟨front', core', back', hsplit, hfront, hcore, hback⟩
    have hmem : '#' ∈ front' ++ core' ++ back' := by
      rw [← hsplit, heq]
      exact List.mem_append_right front (List.mem_cons_self ..)
    rcases List.mem_append.1 hmem with hmem | hmem
    · rcases List.mem_append.1 hmem with hmem | hmem
      · exact absurd (hfront '#' hmem) (by decide)
      · exact absurd (numeral_over core' hcore '#' hmem) (by decide)
    · exact absurd (hback '#' hmem) (by decide)
  · rwa [replaceNumber_of_not h]

theorem unbroken_replaceNumber {t : List Char} (ht : Unbroken t) : Unbroken (replaceNumber t) := by
  by_cases h : HoldsNumber t
  · obtain ⟨front, core, back, rfl, -, -, heq⟩ := replaceNumber_of_holdsNumber h
    rw [heq]
    intro c hc
    rcases List.mem_append.1 hc with hc | hc
    · exact ht c (List.mem_append_left back (List.mem_append_left core hc))
    · have hmark : c ∈ ['#', 'N', 'U', 'M', '#'] ++ back := hc
      rcases List.mem_append.1 hmark with hc | hc
      · have hall : ['#', 'N', 'U', 'M', '#'].all (!isBlank ·) = true := by decide
        simpa using List.all_eq_true.1 hall c hc
      · exact ht c (List.mem_append_right (front ++ core) hc)
  · rwa [replaceNumber_of_not h]

/-- Nothing matches in a token that has been replaced: brackets, punctuation and the name of the marker
do not make up a match. -/
theorem not_match_replaceNumber {f : Expression} (hf : f.Plain) {t a w b : List Char}
    (ht : HoldsNumber t) (hw : w ∈ f.texts) : replaceNumber t ≠ a ++ w ++ b := by
  obtain ⟨front, core, back, -, hfront, hback, heq⟩ := replaceNumber_of_holdsNumber ht
  have hne := hf.ne_nil hw
  have hsign : '#' ∉ w := fun hmem => absurd (hf.visible w hw '#' hmem) (by decide)
  obtain ⟨c, hc, halnum⟩ := hf.hasAlnum w hw
  intro h
  rw [heq] at h
  rcases append_around hsign hne h with ⟨z, rfl, -⟩ | ⟨z, -, hrest⟩
  · have hopen := hfront c (by simp [hc])
    simp only [opensToken, Bool.or_eq_true, beq_iff_eq] at hopen
    rcases hopen with rfl | rfl <;> exact absurd halnum (by decide)
  · rcases append_around hsign hne hrest with ⟨z', hname, -⟩ | ⟨z', -, rfl⟩
    · obtain ⟨d, hd, hother⟩ := hf.hasOther w hw
      have hall : ['N', 'U', 'M'].all isLetter = true := by decide
      simp [List.all_eq_true.1 hall d (by rw [hname]; simp [hd])] at hother
    · have hclose := hback c (by simp [hc])
      simp only [closesToken, Bool.or_eq_true, beq_iff_eq] at hclose
      rcases hclose with (((rfl | rfl) | rfl) | rfl) | rfl <;> exact absurd halnum (by decide)

/-! ## Replacing in a text -/

/-- The characters of a token are collected first. -/
theorem replaceNumbersFrom_append {t : List Char} (ht : Unbroken t) (token rest : List Char) :
    replaceNumbersFrom token (t ++ rest) = replaceNumbersFrom (t.reverse ++ token) rest := by
  induction t generalizing token with
  | nil => rfl
  | cons c t ih =>
    rw [Unbroken, List.forall_mem_cons] at ht
    rw [List.cons_append, replaceNumbersFrom, if_neg (by rw [ht.1]; exact Bool.false_ne_true),
      ih ht.2, List.reverse_cons, List.append_assoc, List.singleton_append]

theorem replaceNumbers_token {t : List Char} (ht : Unbroken t) :
    replaceNumbers t = replaceNumber t := by
  have h := replaceNumbersFrom_append ht [] []
  rw [List.append_nil, List.append_nil, replaceNumbersFrom, List.reverse_reverse] at h
  exact h

theorem replaceNumbers_blank {t : List Char} {c : Char} (ht : Unbroken t) (hc : isBlank c = true)
    (cs : List Char) :
    replaceNumbers (t ++ c :: cs) = replaceNumber t ++ c :: replaceNumbers cs := by
  rw [replaceNumbers, replaceNumbersFrom_append ht, List.append_nil, replaceNumbersFrom, if_pos hc,
    List.reverse_reverse, replaceNumbers]

/-- A text is a token, or a token, a blank and a text. -/
theorem token_induction {P : List Char → Prop} (htoken : ∀ t, Unbroken t → P t)
    (hblank : ∀ t c cs, Unbroken t → isBlank c = true → P cs → P (t ++ c :: cs))
    (cs : List Char) : P cs := by
  induction hn : cs.length using Nat.strong_induction_on generalizing cs with
  | _ n ih =>
    subst hn
    have hall : Unbroken (cs.takeWhile (!isBlank ·)) := fun c hc => by
      simpa using List.mem_takeWhile_imp hc
    have hstop := List.head?_dropWhile_not (!isBlank ·) cs
    have hsplit := List.takeWhile_append_dropWhile (p := (!isBlank ·)) (l := cs)
    generalize cs.takeWhile (!isBlank ·) = t at hall hsplit
    generalize cs.dropWhile (!isBlank ·) = rest at hstop hsplit
    subst hsplit
    cases rest with
    | nil =>
      rw [List.append_nil]
      exact htoken t hall
    | cons c rest =>
      have hlt : rest.length < (t ++ c :: rest).length := by
        rw [List.length_append, List.length_cons]
        omega
      exact hblank t c rest hall (by simpa using hstop) (ih rest.length hlt rest rfl)

theorem not_mem_of_isBlank {f : Expression} (hf : f.Plain) {w : List Char} (hw : w ∈ f.texts)
    {c : Char} (hc : isBlank c = true) : c ∉ w := by
  intro hmem
  have h := hf.visible w hw c hmem
  rw [isPlain, hc] at h
  simp at h

/-- No replaced number makes room for a match that was not there. -/
theorem occursAfter_of_replaceNumbers {f : Expression} (hf : f.Plain) {cs : List Char}
    {before : Option Char} (h : f.OccursAfter before (replaceNumbers cs)) :
    f.OccursAfter before cs := by
  -- A match in a token leaves the token as it was.
  have hkept : ∀ {t a w b}, w ∈ f.texts → replaceNumber t = a ++ w ++ b → t = a ++ w ++ b := by
    intro t a w b hw heq
    by_cases ht : HoldsNumber t
    · exact absurd heq (not_match_replaceNumber hf ht hw)
    · rwa [replaceNumber_of_not ht] at heq
  induction cs using token_induction generalizing before with
  | htoken t ht =>
    obtain ⟨a, w, b, heq, hmatch⟩ := h
    rw [replaceNumbers_token ht] at heq
    exact ⟨a, w, b, hkept hmatch.1 heq, hmatch⟩
  | hblank t c cs ht hc ih =>
    obtain ⟨a, w, b, heq, hmatch⟩ := h
    rw [replaceNumbers_blank ht hc] at heq
    rcases append_around (not_mem_of_isBlank hf hmatch.1 hc) (hf.ne_nil hmatch.1) heq with
      ⟨z, htoken, rfl⟩ | ⟨z, rfl, hrest⟩
    · have hhead : (z ++ c :: replaceNumbers cs).head? = (z ++ c :: cs).head? := by
        cases z <;> rfl
      refine ⟨a, w, z ++ c :: cs, ?_, hhead ▸ hmatch⟩
      rw [hkept hmatch.1 htoken, List.append_assoc]
    · rw [lastOr_append, lastOr_cons] at hmatch
      obtain ⟨a', w', b', rfl, hmatch'⟩ := ih ⟨z, w, b, hrest, hmatch⟩
      exact ⟨t ++ c :: a', w', b', by simp, by rwa [lastOr_append, lastOr_cons]⟩

/-- The tokens of a token are itself. -/
theorem IsTokenOf.eq_of_unbroken {t u : List Char} (hu : Unbroken u) (h : IsTokenOf t u) :
    t = u := by
  obtain ⟨a, b, rfl, -, ha, hb⟩ := h
  have hanil : a = [] := by
    by_contra hne
    have hlast := ha _ (List.getLast?_eq_getLast_of_ne_nil hne)
    have hmem : a.getLast hne ∈ a ++ t ++ b := by simp
    rw [hu _ hmem] at hlast
    cases hlast
  have hbnil : b = [] := by
    cases b with
    | nil => rfl
    | cons c b =>
      have hhead := hb c rfl
      rw [hu c (by simp)] at hhead
      cases hhead
  rw [hanil, hbnil, List.nil_append, List.append_nil]

/-- A token lies on one side of a blank. -/
theorem isTokenOf_blank {t u cs : List Char} {c : Char} (hc : isBlank c = true) (ht : t ≠ []) :
    IsTokenOf t (u ++ c :: cs) ↔ IsTokenOf t u ∨ IsTokenOf t cs := by
  constructor
  · rintro ⟨a, b, heq, hall, ha, hb⟩
    have hnot : c ∉ t := fun hmem => by
      rw [hall c hmem] at hc
      cases hc
    rcases append_around hnot ht heq with ⟨z, rfl, rfl⟩ | ⟨z, rfl, rfl⟩
    · refine Or.inl ⟨a, z, rfl, hall, ha, ?_⟩
      cases z with
      | nil => simp
      | cons d z => exact hb
    · refine Or.inr ⟨z, b, rfl, hall, ?_, hb⟩
      rcases List.eq_nil_or_concat z with rfl | ⟨z, d, rfl⟩
      · simp
      · simpa [List.getLast?_cons] using ha
  · rintro (⟨a, b, rfl, hall, ha, hb⟩ | ⟨a, b, rfl, hall, ha, hb⟩)
    · refine ⟨a, b ++ c :: cs, by simp, hall, ha, ?_⟩
      cases b with
      | nil => simpa using hc
      | cons d b => exact hb
    · refine ⟨u ++ c :: a, b, by simp, hall, ?_, hb⟩
      rcases List.eq_nil_or_concat a with rfl | ⟨a, d, rfl⟩
      · simpa using hc
      · simpa [List.getLast?_cons] using ha

theorem HoldsNumber.ne_nil {t : List Char} (h : HoldsNumber t) : t ≠ [] := by
  obtain ⟨front, core, back, rfl, -, hcore, -⟩ := h
  simp [numeral_ne_nil hcore]

/-- No token of the new text holds a number. -/
theorem not_holdsNumber_of_isTokenOf {t cs : List Char} (h : IsTokenOf t (replaceNumbers cs)) :
    ¬ HoldsNumber t := by
  intro hnumber
  induction cs using token_induction with
  | htoken u hu =>
    rw [replaceNumbers_token hu] at h
    rw [h.eq_of_unbroken (unbroken_replaceNumber hu)] at hnumber
    exact not_holdsNumber_replaceNumber u hnumber
  | hblank u c cs hu hc ih =>
    rw [replaceNumbers_blank hu hc, isTokenOf_blank hc hnumber.ne_nil] at h
    rcases h with h | h
    · rw [h.eq_of_unbroken (unbroken_replaceNumber hu)] at hnumber
      exact not_holdsNumber_replaceNumber u hnumber
    · exact ih h

theorem Unbroken.isTokenOf_self {t : List Char} (ht : Unbroken t) : IsTokenOf t t :=
  ⟨[], [], by simp, ht, by simp, by simp⟩

/-- Where no token holds a number, nothing changes. -/
theorem replaceNumbers_eq_self {cs : List Char} (h : ∀ t, IsTokenOf t cs → ¬ HoldsNumber t) :
    replaceNumbers cs = cs := by
  induction cs using token_induction with
  | htoken t ht => rw [replaceNumbers_token ht, replaceNumber_of_not (h t ht.isTokenOf_self)]
  | hblank t c cs ht hc ih =>
    have hleft : ¬ HoldsNumber t := fun hnumber =>
      h t ((isTokenOf_blank hc hnumber.ne_nil).2 (Or.inl ht.isTokenOf_self)) hnumber
    have hright : ∀ u, IsTokenOf u cs → ¬ HoldsNumber u := fun u hu hnumber =>
      h u ((isTokenOf_blank hc hnumber.ne_nil).2 (Or.inr hu)) hnumber
    rw [replaceNumbers_blank ht hc, replaceNumber_of_not hleft, ih hright]

end LogWatch.Report.Pattern
