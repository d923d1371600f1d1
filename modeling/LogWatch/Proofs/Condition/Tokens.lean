import LogWatch.Rule.Condition

/-!
# The tokens of a condition

A condition is a sequence of marks and words with blanks between them.  `Token.Lexes` says which tokens a
text consists of, and the scanner finds just these.

* `Token.OfWord` — the token of a word: a keyword in any case, or a name;
* `Token.Lexes` — the tokens of a text;
* `Token.scan_eq_iff` — the scanner returns the tokens of a text.
-/

namespace LogWatch.Rule.Condition.Token

open Text

/-! ## Words -/

/-- The words that are no names, and their tokens. -/
def keywords : List (String × Token) :=
  [("and", .and), ("or", .or), ("not", .not), ("of", .of), ("1", .one), ("any", .one),
    ("all", .all), ("them", .them)]

/-- The token of a word. -/
inductive OfWord (w : List Char) : Token → Prop
  /-- A keyword, whatever the case of its letters. -/
  | keyword {key : String} {token : Token} :
      (key, token) ∈ keywords → sameIgnoringCase key.toList w = true → OfWord w token
  /-- Any other word is a name, as it is written. -/
  | name : (∀ p ∈ keywords, sameIgnoringCase p.1.toList w = false) →
      OfWord w (.name (String.ofList w))

/-- A text in lower case is compared with a keyword without regard to case. -/
theorem asciiLowered_eq_iff {key : String} (hkey : key.toList.map asciiLower = key.toList)
    {w : List Char} :
    asciiLowered (String.ofList w) = key ↔ sameIgnoringCase key.toList w = true := by
  rw [asciiLowered, String.toList_ofList, sameIgnoringCase, beq_iff_eq, hkey]
  constructor
  · intro h
    rw [← h, String.toList_ofList]
  · intro h
    rw [← h, String.ofList_toList]

theorem ofWord_of_keyword {w : List Char} {key : String} {token : Token}
    (hmem : (key, token) ∈ keywords) (h : sameIgnoringCase key.toList w = true) :
    ofWord w = token := by
  simp only [keywords, List.mem_cons, Prod.mk.injEq, List.not_mem_nil, or_false] at hmem
  rcases hmem with ⟨rfl, rfl⟩ | ⟨rfl, rfl⟩ | ⟨rfl, rfl⟩ | ⟨rfl, rfl⟩ | ⟨rfl, rfl⟩ | ⟨rfl, rfl⟩ |
    ⟨rfl, rfl⟩ | ⟨rfl, rfl⟩ <;>
  · have hkey := (asciiLowered_eq_iff (by decide)).2 h
    simp [ofWord, hkey]

theorem ofWord_of_name {w : List Char}
    (h : ∀ p ∈ keywords, sameIgnoringCase p.1.toList w = false) :
    ofWord w = .name (String.ofList w) := by
  have hne : ∀ key token, (key, token) ∈ keywords → key.toList.map asciiLower = key.toList →
      asciiLowered (String.ofList w) ≠ key := by
    intro key token hmem hkey heq
    have h' := (asciiLowered_eq_iff hkey).1 heq
    rw [h _ hmem] at h'
    cases h'
  rw [ofWord]
  rw [if_neg (hne _ .and (by decide) (by decide)),
    if_neg (hne _ .or (by decide) (by decide)),
    if_neg (hne _ .not (by decide) (by decide)),
    if_neg (hne _ .of (by decide) (by decide)),
    if_neg (not_or.2 ⟨hne _ .one (by decide) (by decide),
      hne _ .one (by decide) (by decide)⟩),
    if_neg (hne _ .all (by decide) (by decide)),
    if_neg (hne _ .them (by decide) (by decide))]

/-- Every word has one token. -/
theorem ofWord_iff {w : List Char} {token : Token} : OfWord w token ↔ ofWord w = token := by
  constructor
  · rintro (⟨hmem, h⟩ | h)
    · exact ofWord_of_keyword hmem h
    · exact ofWord_of_name h
  · rintro rfl
    by_cases h : ∃ p ∈ keywords, sameIgnoringCase p.1.toList w = true
    · obtain ⟨⟨key, token⟩, hmem, hsame⟩ := h
      rw [ofWord_of_keyword hmem hsame]
      exact .keyword hmem hsame
    · have h' : ∀ p ∈ keywords, sameIgnoringCase p.1.toList w = false := fun p hp =>
        Bool.eq_false_iff.2 fun hsame => h ⟨p, hp, hsame⟩
      rw [ofWord_of_name h']
      exact .name h'

/-! ## Texts -/

/-- A character of a word: neither a mark nor a blank. -/
def isWordChar (c : Char) : Bool :=
  !(c == '(' || c == ')' || c == '|' || isBlank c)

/-- The tokens that a text consists of. -/
inductive Lexes : List Char → List Token → Prop
  | done : Lexes [] []
  | blank {c : Char} {cs : List Char} {ts : List Token} :
      isBlank c = true → Lexes cs ts → Lexes (c :: cs) ts
  | opening {cs : List Char} {ts : List Token} : Lexes cs ts → Lexes ('(' :: cs) (.opening :: ts)
  | closing {cs : List Char} {ts : List Token} : Lexes cs ts → Lexes (')' :: cs) (.closing :: ts)
  | bar {cs : List Char} {ts : List Token} : Lexes cs ts → Lexes ('|' :: cs) (.bar :: ts)
  /-- A word ends where no further character of a word follows. -/
  | word {w cs : List Char} {token : Token} {ts : List Token} :
      w ≠ [] → (∀ c ∈ w, isWordChar c = true) → (∀ c ∈ cs.head?, isWordChar c = false) →
      OfWord w token → Lexes cs ts → Lexes (w ++ cs) (token :: ts)

theorem ofMark?_eq_none_of_isWordChar {c : Char} (h : isWordChar c = true) : ofMark? c = none := by
  unfold ofMark?
  split
  · exact absurd h (by decide)
  · exact absurd h (by decide)
  · exact absurd h (by decide)
  · rfl

theorem ofMark?_eq_none_of_isBlank {c : Char} (h : isBlank c = true) : ofMark? c = none := by
  unfold ofMark?
  split
  · exact absurd h (by decide)
  · exact absurd h (by decide)
  · exact absurd h (by decide)
  · rfl

theorem isBlank_of_isWordChar {c : Char} (h : isWordChar c = true) : isBlank c = false := by
  simp only [isWordChar, Bool.not_eq_true', Bool.or_eq_false_iff] at h
  exact h.2

/-! ## Scanning -/

/-- The characters of a word are collected. -/
theorem scanAfter_word {w : List Char} (hw : ∀ c ∈ w, isWordChar c = true) (word cs : List Char) :
    scanAfter word (w ++ cs) = scanAfter (w.reverse ++ word) cs := by
  induction w generalizing word with
  | nil => rfl
  | cons c w ih =>
    rw [List.forall_mem_cons] at hw
    rw [List.cons_append, scanAfter]
    simp only [ofMark?_eq_none_of_isWordChar hw.1, isBlank_of_isWordChar hw.1, Bool.false_eq_true,
      if_false, ih hw.2, List.reverse_cons, List.append_assoc, List.singleton_append]

/-- Where no character of a word follows, the word that has been collected ends. -/
theorem scanAfter_stop {cs : List Char} (hcs : ∀ c ∈ cs.head?, isWordChar c = false)
    (word : List Char) : scanAfter word cs = ended word ++ scanAfter [] cs := by
  cases cs with
  | nil => simp [scanAfter, ended]
  | cons c cs =>
    have hc := hcs c rfl
    simp only [scanAfter]
    split
    · simp [ended]
    · rename_i hmark
      have hblank : isBlank c = true := by
        simp only [isWordChar, Bool.not_eq_false', Bool.or_eq_true, beq_iff_eq] at hc
        rcases hc with ((rfl | rfl) | rfl) | hc
        · cases hmark
        · cases hmark
        · cases hmark
        · exact hc
      simp [hblank, ended]

theorem ended_reverse {w : List Char} (hw : w ≠ []) : ended w.reverse = [ofWord w] := by
  simp [ended, hw]

theorem scanAfter_blank {c : Char} (hc : isBlank c = true) (cs : List Char) :
    scanAfter [] (c :: cs) = scanAfter [] cs := by
  simp [scanAfter, ofMark?_eq_none_of_isBlank hc, hc, ended]

/-- The tokens of a text are those that the scanner finds. -/
theorem scanAfter_of_lexes {cs : List Char} {ts : List Token} (h : Lexes cs ts) :
    scanAfter [] cs = ts := by
  induction h with
  | done => rfl
  | blank hc _ ih => rw [scanAfter_blank hc, ih]
  | opening _ ih => rw [← ih]; rfl
  | closing _ ih => rw [← ih]; rfl
  | bar _ ih => rw [← ih]; rfl
  | word hne hall hstop hword _ ih =>
    rw [scanAfter_word hall, List.append_nil, scanAfter_stop hstop, ended_reverse hne, ih,
      ofWord_iff.1 hword, List.singleton_append]

/-- A word that ends here is one token more, if there is such a word. -/
theorem Lexes.ended {word cs : List Char} {ts : List Token}
    (hword : ∀ c ∈ word, isWordChar c = true) (hcs : ∀ c ∈ cs.head?, isWordChar c = false)
    (h : Lexes cs ts) : Lexes (word.reverse ++ cs) (ended word ++ ts) := by
  cases word with
  | nil => exact h
  | cons c word =>
    have hall : ∀ d ∈ (c :: word).reverse, isWordChar d = true := fun d hd =>
      hword d (List.mem_reverse.1 hd)
    exact .word (by simp) hall hcs (ofWord_iff.2 rfl) h

/-- What the scanner finds are the tokens of the text, from the word on that has been begun. -/
theorem lexes_scanAfter (word : List Char) (hword : ∀ c ∈ word, isWordChar c = true)
    (cs : List Char) : Lexes (word.reverse ++ cs) (scanAfter word cs) := by
  induction cs generalizing word with
  | nil =>
    rw [scanAfter]
    simpa using Lexes.done.ended hword (by simp)
  | cons c cs ih =>
    have htail : Lexes cs (scanAfter [] cs) := ih [] (by simp)
    rw [scanAfter]
    split
    · rename_i mark hmark
      unfold ofMark? at hmark
      split at hmark <;> cases hmark
      · exact (Lexes.opening htail).ended hword (by rintro c ⟨⟩; decide)
      · exact (Lexes.closing htail).ended hword (by rintro c ⟨⟩; decide)
      · exact (Lexes.bar htail).ended hword (by rintro c ⟨⟩; decide)
    · rename_i hmark
      split
      · rename_i hblank
        exact (Lexes.blank hblank htail).ended hword (by rintro c ⟨⟩; simp [isWordChar, hblank])
      · rename_i hblank
        have hchar : isWordChar c = true := by
          have hne : c ≠ '(' ∧ c ≠ ')' ∧ c ≠ '|' := by
            refine ⟨?_, ?_, ?_⟩ <;> rintro rfl <;> cases hmark
          simp [isWordChar, hne, hblank]
        have h := ih (c :: word) (List.forall_mem_cons.2 ⟨hchar, hword⟩)
        rwa [List.reverse_cons, List.append_assoc, List.singleton_append] at h

/-- The scanner returns the tokens of a text, and a text has no other tokens. -/
theorem scan_eq_iff {text : String} {ts : List Token} : scan text = ts ↔ Lexes text.toList ts := by
  constructor
  · rintro rfl
    exact lexes_scanAfter [] (by simp) text.toList
  · exact scanAfter_of_lexes

end LogWatch.Rule.Condition.Token
