import LogWatch.Proofs.Condition.Grammar
import LogWatch.Rule.Basic

/-!
# Conditions with alternatives

A condition may be given as a list of alternatives.  They are put into parentheses, joined with "or" and
read as one text, which is compared here with reading each of them on its own.

* `Token.openAfter` — the parentheses that are open after some tokens;
* `Derives.paired` — a phrase closes just the parentheses that it opens;
* `Token.scan_alternativesText` — the tokens of the joined text;
* `alternatives_read_together` — alternatives that can be read can be read together, as the chain of what
  they are; and what can be read together can be read one by one if no alternative closes a
  parenthesis of its surroundings.
-/

namespace LogWatch.Rule.Condition

open Token

/-! ## Parentheses -/

namespace Token

/-- The number of parentheses that are open after a token, given the number before, unless it closes one
that is not open. -/
def openAfterOne : Nat → Token → Option Nat
  | n, .opening => some (n + 1)
  | 0, .closing => none
  | n + 1, .closing => some n
  | n, _ => some n

/-- The number of parentheses that are open after some tokens. -/
def openAfter (n : Nat) (ts : List Token) : Option Nat :=
  ts.foldlM openAfterOne n

/-- No parenthesis is closed that has not been opened before. -/
def ClosesOwn (ts : List Token) : Prop :=
  (openAfter 0 ts).isSome = true

instance (ts : List Token) : Decidable (ClosesOwn ts) :=
  inferInstanceAs (Decidable (_ = true))

/-- Just the parentheses that are opened are closed. -/
def Paired (ts : List Token) : Prop :=
  openAfter 0 ts = some 0

theorem openAfter_cons (n : Nat) (t : Token) (ts : List Token) :
    openAfter n (t :: ts) = (openAfterOne n t).bind fun k => openAfter k ts :=
  List.foldlM_cons ..

theorem openAfter_append (n : Nat) (ts us : List Token) :
    openAfter n (ts ++ us) = (openAfter n ts).bind fun k => openAfter k us :=
  List.foldlM_append ..

theorem openAfterOne_add {n k : Nat} {t : Token} (h : openAfterOne n t = some k) (m : Nat) :
    openAfterOne (n + m) t = some (k + m) := by
  cases t with
  | opening =>
    cases h
    simp [openAfterOne, Nat.add_right_comm]
  | closing =>
    cases n with
    | zero => cases h
    | succ n =>
      cases h
      simp [openAfterOne, Nat.add_right_comm]
  | _ =>
    cases h
    rfl

/-- Parentheses that have been open before stay so. -/
theorem openAfter_add {n k : Nat} {ts : List Token} (h : openAfter n ts = some k) (m : Nat) :
    openAfter (n + m) ts = some (k + m) := by
  induction ts generalizing n with
  | nil =>
    cases h
    rfl
  | cons t ts ih =>
    rw [openAfter_cons] at h ⊢
    obtain ⟨l, hl, h⟩ := Option.bind_eq_some_iff.1 h
    rw [openAfterOne_add hl]
    exact ih h

/-- Tokens that are no parentheses. -/
def isPlain (t : Token) : Bool :=
  t != .opening && t != .closing

theorem openAfterOne_of_isPlain {t : Token} (h : isPlain t = true) (n : Nat) :
    openAfterOne n t = some n := by
  cases t with
  | opening => cases h
  | closing => cases h
  | _ => rfl

theorem openAfter_of_isPlain {t : Token} (h : isPlain t = true) (n : Nat) (ts : List Token) :
    openAfter n (t :: ts) = openAfter n ts := by
  rw [openAfter_cons, openAfterOne_of_isPlain h, Option.bind_some]

namespace Paired

variable {ts us : List Token}

theorem closesOwn (h : Paired ts) : ClosesOwn ts := by
  rw [ClosesOwn, h]
  rfl

theorem openAfter_eq (h : Paired ts) (n : Nat) : openAfter n ts = some n := by
  simpa using openAfter_add h n

theorem append (hts : Paired ts) (hus : Paired us) : Paired (ts ++ us) := by
  rw [Paired, openAfter_append, hts]
  exact hus

theorem cons {t : Token} (ht : isPlain t = true) (h : Paired ts) : Paired (t :: ts) := by
  rw [Paired, openAfter_of_isPlain ht]
  exact h

/-- What follows paired tokens within paired tokens does not start by closing a parenthesis. -/
theorem not_closing_of_append (hts : Paired ts) : ¬ Paired (ts ++ .closing :: us) := by
  rw [Paired, openAfter_append, hts]
  nofun

/-- The parenthesis that closes a group is the first after paired tokens. -/
theorem eq_of_append_eq {rest rest' : List Token} (hts : Paired ts) (hus : Paired us)
    (h : ts ++ .closing :: rest = us ++ .closing :: rest') : ts = us ∧ rest = rest' := by
  rcases List.append_eq_append_iff.1 h with ⟨more, rfl, hmore⟩ | ⟨more, rfl, hmore⟩
  · cases more with
    | nil => simp_all
    | cons t more =>
      cases hmore
      exact absurd hus hts.not_closing_of_append
  · cases more with
    | nil => simp_all
    | cons t more =>
      cases hmore
      exact absurd hts hus.not_closing_of_append

end Paired

end Token

/-! ## Phrases are paired -/

theorem paired_joined {sep : Token} (hsep : isPlain sep = true)
    {parts : List (List Token × Condition)} (h : ∀ p ∈ parts, Paired p.1) :
    Paired (joined sep parts) := by
  have hfollowing : ∀ {others : List (List Token × Condition)}, (∀ p ∈ others, Paired p.1) →
      Paired (following sep others) := by
    intro others hothers
    induction others with
    | nil => rfl
    | cons p others ih =>
      rw [List.forall_mem_cons] at hothers
      rw [following_cons]
      exact (hothers.1.append (ih hothers.2)).cons hsep
  cases parts with
  | nil => rfl
  | cons p parts =>
    rw [List.forall_mem_cons] at h
    rw [joined_cons]
    exact h.1.append (hfollowing h.2)

theorem Quantified.paired {ts : List Token} {set : SelectionSet} (h : Quantified ts set) :
    Paired ts := by
  cases h <;> rfl

/-- A phrase closes just the parentheses that it opens. -/
theorem Derives.paired {k : Phrase} {ts : List Token} {c : Condition} (h : Derives k ts c) :
    Paired ts := by
  induction h with
  | oneOr _ ih => exact ih
  | manyOr _ _ ih => exact paired_joined rfl ih
  | oneAnd _ ih => exact ih
  | manyAnd _ _ ih => exact paired_joined rfl ih
  | not _ ih => exact ih.cons rfl
  | plain _ ih => exact ih
  | group _ ih =>
    rw [Paired, List.cons_append, openAfter_cons, openAfterOne, Option.bind_some, openAfter_append,
      ih.openAfter_eq]
    rfl
  | oneOf h => exact h.paired.cons rfl
  | allOf h => exact h.paired.cons rfl
  | selection _ => rfl

theorem paired_of_forall₂ {k : Phrase} {tss : List (List Token)} {cs : List Condition}
    (h : List.Forall₂ (Derives k) tss cs) : ∀ ts ∈ tss, Paired ts := by
  induction h with
  | nil => simp
  | cons hone _ ih => exact List.forall_mem_cons.2 ⟨hone.paired, ih⟩

/-! ## Groups -/

/-- Some tokens in parentheses. -/
def grouped (ts : List Token) : List Token :=
  .opening :: ts ++ [.closing]

/-- Groups with "or" between them. -/
def spliced (tss : List (List Token)) : List Token :=
  [Token.or].intercalate (tss.map grouped)

/-- Groups with "or" in front of each. -/
def moreGroups (tss : List (List Token)) : List Token :=
  tss.flatMap fun ts => .or :: grouped ts

theorem moreGroups_cons (ts : List Token) (tss : List (List Token)) :
    moreGroups (ts :: tss) = .or :: (grouped ts ++ moreGroups tss) := by
  rw [moreGroups, List.flatMap_cons, List.cons_append, moreGroups]

theorem spliced_cons (ts : List Token) (tss : List (List Token)) :
    spliced (ts :: tss) = grouped ts ++ moreGroups tss := by
  rw [spliced, List.map_cons, intercalate_cons, List.flatMap_map]
  rfl

/-- What is open after a group is what was open before, and what the group has left open. -/
theorem openAfter_grouped {ts : List Token} {k : Nat} (h : openAfter 0 ts = some k) (n : Nat) :
    openAfter n (grouped ts) = some (k + n) := by
  have hinner := openAfter_add h (n + 1)
  rw [Nat.zero_add] at hinner
  rw [grouped, List.cons_append, openAfter_cons, openAfterOne, Option.bind_some, openAfter_append, hinner]
  rfl

/-- Groups that close nothing outside and leave nothing open together leave nothing open each. -/
theorem paired_of_moreGroups {tss : List (List Token)} (h : ∀ ts ∈ tss, ClosesOwn ts) {n : Nat}
    (hall : openAfter n (moreGroups tss) = some 0) : n = 0 ∧ ∀ ts ∈ tss, Paired ts := by
  induction tss generalizing n with
  | nil =>
    rw [moreGroups, List.flatMap_nil] at hall
    exact ⟨Option.some.inj hall, by simp⟩
  | cons ts tss ih =>
    rw [List.forall_mem_cons] at h
    obtain ⟨k, hk⟩ := Option.isSome_iff_exists.1 h.1
    rw [moreGroups_cons, openAfter_of_isPlain rfl, openAfter_append, openAfter_grouped hk,
      Option.bind_some] at hall
    obtain ⟨hsum, hrest⟩ := ih h.2 hall
    obtain ⟨rfl, rfl⟩ : k = 0 ∧ n = 0 := by omega
    exact ⟨rfl, List.forall_mem_cons.2 ⟨hk, hrest⟩⟩

theorem paired_of_spliced {tss : List (List Token)} (h : ∀ ts ∈ tss, ClosesOwn ts)
    (hall : Paired (spliced tss)) : ∀ ts ∈ tss, Paired ts := by
  cases tss with
  | nil => simp
  | cons ts tss =>
    rw [List.forall_mem_cons] at h
    obtain ⟨k, hk⟩ := Option.isSome_iff_exists.1 h.1
    rw [Paired, spliced_cons, openAfter_append, openAfter_grouped hk, Option.bind_some] at hall
    obtain ⟨rfl, hrest⟩ := paired_of_moreGroups h.2 hall
    exact List.forall_mem_cons.2 ⟨hk, hrest⟩

/-! ## Reading groups -/

/-- Groups of phrases make up a chain. -/
theorem derives_spliced {tss : List (List Token)} {cs : List Condition} (hne : tss ≠ [])
    (h : List.Forall₂ (Derives .either) tss cs) : Derives .either (spliced tss) (chain .or cs) := by
  obtain ⟨parts, htokens, rfl, hparts⟩ : ∃ parts : List (List Token × Condition),
      parts.map (·.1) = tss.map grouped ∧ parts.map (·.2) = cs ∧
        ∀ q ∈ parts, Derives .both q.1 q.2 := by
    clear hne
    induction h with
    | nil => exact ⟨[], rfl, rfl, by simp⟩
    | @cons ts c tss cs hone _ ih =>
      obtain ⟨parts, htokens, hvalues, hparts⟩ := ih
      refine ⟨(grouped ts, c) :: parts, ?_, ?_, ?_⟩
      · rw [List.map_cons, htokens, List.map_cons]
      · rw [List.map_cons, hvalues]
      · exact List.forall_mem_cons.2 ⟨.oneAnd (.plain (.group hone)), hparts⟩
  rw [spliced, ← htokens]
  cases parts with
  | nil => simp_all
  | cons p parts =>
    have hchain := derives_or hparts
    rwa [← joined_cons] at hchain

section Readers

variable {fuel position : Nat} {ts rest : List Token}

/-- What is read of a group is what it contains. -/
theorem readNegation_grouped {p : Progress Condition} (hts : Paired ts)
    (h : readNegation fuel position (grouped ts ++ rest) = .ok p) :
    Derives .either ts p.value ∧ p.rest = rest := by
  cases fuel with
  | zero =>
    rw [readNegation] at h
    cases h
  | succ fuel =>
    rw [grouped, List.append_assoc, List.cons_append, List.singleton_append, readNegation] at h
    obtain ⟨⟨value, position, rest'⟩, hinner, hclose⟩ := bind_eq_ok h
    obtain ⟨used, heq, hused⟩ := (readsSound _).either hinner
    cases rest' with
    | nil => cases hclose
    | cons token rest' =>
      cases token <;> cases hclose
      obtain ⟨rfl, rfl⟩ := hts.eq_of_append_eq hused.paired heq
      exact ⟨hused, rfl⟩

/-- A group that no "and" follows is an operand of its own. -/
theorem readBoth_grouped {p : Progress Condition} (hts : Paired ts)
    (hrest : ∀ t ∈ rest.head?, t ≠ .and)
    (h : readBoth fuel position (grouped ts ++ rest) = .ok p) :
    Derives .either ts p.value ∧ p.rest = rest := by
  cases fuel with
  | zero =>
    rw [readBoth] at h
    cases h
  | succ fuel =>
    rw [readBoth] at h
    obtain ⟨first, hfirst, h⟩ := bind_eq_ok h
    obtain ⟨others, hothers, h⟩ := bind_eq_ok h
    obtain ⟨hderives, hafter⟩ := readNegation_grouped hts hfirst
    cases fuel with
    | zero =>
      rw [readOperands] at hothers
      cases hothers
    | succ fuel =>
      rw [hafter, readOperands_stop hrest] at hothers
      cases hothers
      cases h
      exact ⟨hderives, rfl⟩

end Readers

theorem head?_moreGroups {tss : List (List Token)} {t : Token} (h : t ∈ (moreGroups tss).head?) :
    t ≠ .and := by
  cases tss with
  | nil => cases h
  | cons ts tss =>
    rw [moreGroups_cons] at h
    cases h
    exact nofun

theorem readAlternatives_moreGroups {tss : List (List Token)} (h : ∀ ts ∈ tss, Paired ts)
    {fuel position : Nat} {p : Progress (List Condition)}
    (hread : readAlternatives fuel position (moreGroups tss) = .ok p) :
    ∃ cs, List.Forall₂ (Derives .either) tss cs := by
  induction tss generalizing fuel position p with
  | nil => exact ⟨[], .nil⟩
  | cons ts tss ih =>
    rw [List.forall_mem_cons] at h
    cases fuel with
    | zero =>
      rw [readAlternatives] at hread
      cases hread
    | succ fuel =>
      rw [moreGroups_cons, readAlternatives] at hread
      obtain ⟨next, hnext, hread⟩ := bind_eq_ok hread
      obtain ⟨others, hothers, -⟩ := bind_eq_ok hread
      obtain ⟨hderives, hafter⟩ := readBoth_grouped h.1 (fun t => head?_moreGroups) hnext
      rw [hafter] at hothers
      obtain ⟨cs, hcs⟩ := ih h.2 hothers
      exact ⟨next.value :: cs, .cons hderives hcs⟩

/-- Groups that can be read together can be read one by one. -/
theorem exists_derives_of_spliced {tss : List (List Token)} {c : Condition}
    (h : ∀ ts ∈ tss, Paired ts) (hread : Derives .either (spliced tss) c) :
    ∃ cs, List.Forall₂ (Derives .either) tss cs := by
  cases tss with
  | nil => exact ⟨[], .nil⟩
  | cons ts tss =>
    rw [List.forall_mem_cons] at h
    have hback := hread.readsBack (3 * (spliced (ts :: tss)).length + 3) [] 0 (by omega) (by simp)
    rw [List.append_nil, spliced_cons, readEither] at hback
    obtain ⟨first, hfirst, hback⟩ := bind_eq_ok hback
    obtain ⟨others, hothers, -⟩ := bind_eq_ok hback
    obtain ⟨hderives, hafter⟩ := readBoth_grouped h.1 (fun t => head?_moreGroups) hfirst
    rw [hafter] at hothers
    obtain ⟨cs, hcs⟩ := readAlternatives_moreGroups h.2 hothers
    exact ⟨first.value :: cs, .cons hderives hcs⟩

/-! ## Texts -/

/-- The text of some alternatives. -/
def alternativesText (ss : List String) : String :=
  " or ".intercalate (ss.map fun s => "(" ++ s ++ ")")

theorem conditionParts_strings (ss : List String) :
    conditionParts (ss.map .str) = .ok (ss.map fun s => "(" ++ s ++ ")") := by
  induction ss with
  | nil => rfl
  | cons s ss ih =>
    rw [List.map_cons, conditionParts]
    simp [Yaml.str?, Yaml.untagged, ih, bind, Except.bind, pure, Except.pure]

theorem conditionText_strings {ss : List String} (hne : ss ≠ []) :
    conditionText (.seq (ss.map .str)) = .ok (alternativesText ss) := by
  rw [conditionText, conditionParts_strings]
  simp [hne, bind, Except.bind, pure, Except.pure, alternativesText]

namespace Token

theorem scanAfter_closing (word cs rest : List Char) :
    scanAfter word (cs ++ ')' :: rest) = scanAfter word cs ++ .closing :: scanAfter [] rest := by
  induction cs generalizing word with
  | nil => simp [scanAfter, ofMark?]
  | cons c cs ih =>
    rw [List.cons_append, scanAfter, scanAfter]
    split
    · rw [ih, List.append_assoc, List.cons_append]
    · split
      · rw [ih, List.append_assoc]
      · exact ih _

/-- A text in parentheses is a group of its tokens. -/
theorem scanAfter_group (s : String) (rest : List Char) :
    scanAfter [] (("(" ++ s ++ ")").toList ++ rest) = grouped (scan s) ++ scanAfter [] rest := by
  have hlist : ("(" ++ s ++ ")").toList ++ rest = '(' :: (s.toList ++ ')' :: rest) := by simp
  have hopening : scanAfter [] ('(' :: (s.toList ++ ')' :: rest)) =
      .opening :: scanAfter [] (s.toList ++ ')' :: rest) := rfl
  rw [hlist, hopening, scanAfter_closing]
  simp [grouped, scan]

theorem scanAfter_or (rest : List Char) :
    scanAfter [] (" or ".toList ++ rest) = .or :: scanAfter [] rest := by
  rfl

/-- The tokens of alternatives are groups of the tokens of each. -/
theorem scan_alternativesText (ss : List String) :
    scan (alternativesText ss) = spliced (ss.map scan) := by
  rw [scan, alternativesText, String.toList_intercalate]
  induction ss with
  | nil => rfl
  | cons s ss ih =>
    cases ss with
    | nil =>
      have h := scanAfter_group s []
      simpa [spliced, scanAfter, ended] using h
    | cons r ss =>
      simp only [List.map_cons] at ih ⊢
      rw [List.intercalate_cons_cons, List.append_assoc, scanAfter_group, scanAfter_or, ih, spliced,
        spliced]
      simp

end Token

/-! ## Alternatives -/

/-- Alternatives can be read one by one just when the tokens of each derive an expression. -/
theorem mapM_ofText_eq_ok_iff {ss : List String} {cs : List Condition} :
    ss.mapM ofText = .ok cs ↔ List.Forall₂ (Derives .either) (ss.map scan) cs := by
  rw [mapM_eq_ok_iff, List.forall₂_map_left_iff]
  simp only [ofText, ofTokens_eq_ok_iff]

/-- Alternatives that can be read can be read together, as the chain of what each of them is.  What can be
read together can be read one by one if no alternative closes a parenthesis that it has not opened, and
only then. -/
theorem alternatives_read_together {ss : List String} (hne : ss ≠ []) :
    ∃ text, conditionText (.seq (ss.map .str)) = .ok text ∧
      (∀ cs, ss.mapM ofText = .ok cs → ofText text = .ok (chain .or cs)) ∧
      ((∃ cs, ss.mapM ofText = .ok cs) ↔
        (∃ c, ofText text = .ok c) ∧ ∀ s ∈ ss, ClosesOwn (scan s)) := by
  have htogether : ∀ c, ofText (alternativesText ss) = .ok c ↔
      Derives .either (spliced (ss.map scan)) c := by
    intro c
    rw [ofText, scan_alternativesText, ofTokens_eq_ok_iff]
  have hchain : ∀ cs, ss.mapM ofText = .ok cs →
      ofText (alternativesText ss) = .ok (chain .or cs) := by
    intro cs hcs
    rw [htogether]
    exact derives_spliced (by simpa using hne) (mapM_ofText_eq_ok_iff.1 hcs)
  refine ⟨_, conditionText_strings hne, hchain, ?_⟩
  constructor
  · rintro ⟨cs, hcs⟩
    refine ⟨⟨_, hchain cs hcs⟩, ?_⟩
    intro s hs
    have hpaired := paired_of_forall₂ (mapM_ofText_eq_ok_iff.1 hcs)
    exact (hpaired _ (List.mem_map_of_mem hs)).closesOwn
  · rintro ⟨⟨c, hc⟩, hown⟩
    have hderives := (htogether c).1 hc
    have hpaired := paired_of_spliced (List.forall_mem_map.2 hown) hderives.paired
    obtain ⟨cs, hcs⟩ := exists_derives_of_spliced hpaired hderives
    exact ⟨cs, mapM_ofText_eq_ok_iff.2 hcs⟩

/-- The parentheses around an alternative do not keep it together: one that could not be read on its own
breaks out of them and passes for two. -/
theorem alternative_passes_for_two :
    ∃ text, conditionText (.seq [.str "a) or (b"]) = .ok text ∧
      ofText text = .ok (.or [.selection "a", .selection "b"]) ∧
      ¬ ∃ cs, ["a) or (b"].mapM ofText = .ok cs := by
  obtain ⟨text, htext, -, hread⟩ := alternatives_read_together (List.cons_ne_nil "a) or (b" [])
  have hspliced : conditionText (.seq [.str "a) or (b"]) = .ok "(a) or (b)" := by rfl
  cases hspliced.symm.trans htext
  refine ⟨_, htext, by cbv, ?_⟩
  rw [hread]
  rintro ⟨-, hown⟩
  exact absurd (hown _ (List.mem_singleton_self _)) (by decide)

end LogWatch.Rule.Condition
