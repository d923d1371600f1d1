import LogWatch.Proofs.Pattern.NormalForm
import LogWatch.Proofs.Text.Categories
import LogWatch.Report.Tally

/-!
# Patterns piece by piece

Nothing that is replaced reaches across a blank, and none of the passes looks beyond one: what stands on either
side of a blank has its own pattern, whatever is on the other side.

* `StopsAtBlank` — a recogniser looks no further than the next blank, and takes a blank in front of a place
  for the beginning of the text;
* `StopsAtBlank.replaceAll_blank` — hence a pass replaces on either side of a blank on its own;
* `normalizeChars_blank`, `filter_isBlank_normalizeChars` — so do all passes, and they leave the blanks;
* `normalize_piecewise` — patterns are put together from those of the pieces.
-/

namespace LogWatch.Report.Pattern

open Text

/-! ## Matches beside a blank -/

theorem isFree_of_isBlank {c : Char} (hc : isBlank c = true) : isFree (some c) = isFree none := by
  rw [isFree, Unicode.not_isWord_of_isBlank hc]
  rfl

/-- Does a match of a length start at a place? -/
def Expression.SpansAt (e : Expression) (before : Option Char) (cs : List Char) (n : ℕ) : Prop :=
  ∃ w rest, cs = w ++ rest ∧ w.length = n ∧ e.Matches before w rest.head?

section Expressions

variable {e : Expression} {before : Option Char} {c : Char} {cs rest : List Char} {n : ℕ}

/-- What stands on either side of a match only matters for being free. -/
theorem Expression.matches_congr {before' after after' : Option Char} {w : List Char}
    (hbefore : isFree before = isFree before') (hafter : isFree after = isFree after') :
    e.Matches before w after ↔ e.Matches before' w after' := by
  simp only [Matches, Boundary, hbefore, hafter]

/-- A blank in front is like the beginning of the text. -/
theorem Expression.spansAt_blank_iff (hc : isBlank c = true) :
    e.SpansAt (some c) cs n ↔ e.SpansAt none cs n := by
  simp only [SpansAt, matches_congr (isFree_of_isBlank hc) rfl]

/-- A blank behind is like the end of the text. -/
theorem Expression.Plain.spansAt_append_blank_iff (he : e.Plain) (hc : isBlank c = true) :
    e.SpansAt before (cs ++ c :: rest) n ↔ e.SpansAt before cs n := by
  -- The same character follows the match, or else the blank does, or nothing.
  have hafter : ∀ tail : List Char,
      isFree (tail ++ c :: rest).head? = isFree tail.head? := by
    intro tail
    cases tail with
    | nil => exact isFree_of_isBlank hc
    | cons d tail => rfl
  constructor
  · rintro ⟨w, tail, hsplit, hlen, hmatch⟩
    obtain ⟨z, rfl, rfl⟩ := prefix_of_append_eq (not_mem_of_isBlank he hmatch.1 hc) hsplit.symm
    exact ⟨w, z, rfl, hlen, (matches_congr rfl (hafter z)).1 hmatch⟩
  · rintro ⟨w, tail, rfl, hlen, hmatch⟩
    exact ⟨w, tail ++ c :: rest, List.append_assoc .., hlen, (matches_congr rfl (hafter tail)).2 hmatch⟩

end Expressions

/-! ## Recognisers beside a blank -/

/-- A recogniser looks no further than the next blank, and takes a blank in front of a place for the
beginning of the text. -/
structure StopsAtBlank (r : Recogniser) : Prop where
  ahead : ∀ {before c} (cs rest), isBlank c = true → r before (cs ++ c :: rest) = r before cs
  behind : ∀ {c cs}, isBlank c = true → r (some c) cs = r none cs
  inside : ∀ {before cs n}, r before cs = some n → n ≤ cs.length

section Recognisers

variable {r : Recogniser} {e : Expression}

theorem Recognises.le_length (hr : Recognises r e) {before : Option Char} {cs : List Char} {n : ℕ}
    (h : r before cs = some n) : n ≤ cs.length := by
  obtain ⟨w, rest, rfl, rfl, -⟩ := hr.sound h
  simp

/-- Where only one match can start at a place, the recogniser stops at blanks because the expression
does. -/
theorem Recognises.stopsAtBlank (hr : Recognises r e) (he : e.Plain)
    (honly : ∀ {before cs n m}, e.SpansAt before cs n → e.SpansAt before cs m → n = m) :
    StopsAtBlank r := by
  have hiff : ∀ {before cs n}, r before cs = some n ↔ e.SpansAt before cs n := by
    intro before cs n
    refine ⟨hr.sound, fun h => ?_⟩
    obtain ⟨m, hm⟩ : ∃ m, r before cs = some m := by
      obtain ⟨w, rest, rfl, -, hmatch⟩ := h
      exact hr.complete hmatch
    rwa [honly h (hr.sound hm)]
  refine ⟨fun _ _ hc => Option.ext fun n => ?_, fun hc => Option.ext fun n => ?_, hr.le_length⟩
  · rw [hiff, hiff, he.spansAt_append_blank_iff hc]
  · rw [hiff, hiff, Expression.spansAt_blank_iff hc]

/-- Matches of one length are the only ones at their places. -/
theorem HasLength.spansAt_only {k : ℕ} (hk : HasLength k e.texts) {before : Option Char}
    {cs : List Char} {n m : ℕ} (hn : e.SpansAt before cs n) (hm : e.SpansAt before cs m) : n = m := by
  obtain ⟨v, _, -, rfl, hv⟩ := hn
  obtain ⟨w, _, -, rfl, hw⟩ := hm
  rw [hk v hv.1, hk w hw.1]

/-- Octets end where the digits do, so only one address can start at a place. -/
theorem ipv4_spansAt_only {before : Option Char} {cs : List Char} {n m : ℕ}
    (hn : ipv4.SpansAt before cs n) (hm : ipv4.SpansAt before cs m) : n = m := by
  have hoctets : ∀ {k}, ipv4.SpansAt before cs k → ∃ rest, octets? 4 cs = some (k, rest) := by
    rintro k ⟨w, rest, hcs, hlen, hmatch⟩
    obtain ⟨hw, -, hafter⟩ := (ipv4_plain.matches_iff rfl).1 hmatch
    exact ⟨rest, octets?_eq_some.2 ⟨w, hw, stopsDigits_of_isFree hafter, hcs, hlen⟩⟩
  obtain ⟨_, hn⟩ := hoctets hn
  obtain ⟨_, hm⟩ := hoctets hm
  rw [hn] at hm
  cases hm
  rfl

end Recognisers

theorem matchUuid?_stopsAtBlank : StopsAtBlank matchUuid? :=
  matchUuid?_recognises.stopsAtBlank uuid_plain uuid_hasLength.spansAt_only

theorem matchIpv4?_stopsAtBlank : StopsAtBlank matchIpv4? :=
  matchIpv4?_recognises.stopsAtBlank ipv4_plain ipv4_spansAt_only

theorem matchMac?_stopsAtBlank : StopsAtBlank matchMac? :=
  matchMac?_recognises.stopsAtBlank mac_plain mac_hasLength.spansAt_only

/-- What is taken of a text while it belongs to a class without blanks ends before the next blank. -/
theorem takeWhile_append_blank {isIn : Char → Bool} (hin : ∀ c, isIn c = true → isPlain c = true)
    {c : Char} (hc : isBlank c = true) (cs rest : List Char) :
    (cs ++ c :: rest).takeWhile isIn = cs.takeWhile isIn := by
  have hstop : isIn c = false := by
    rw [← Bool.not_eq_true]
    intro h
    have hplain := hin c h
    simp [isPlain, hc] at hplain
  induction cs with
  | nil => simp [hstop]
  | cons d cs ih => rw [List.cons_append, List.takeWhile_cons, List.takeWhile_cons, ih]

/-- A mail address may go on in several ways, but both its parts are read up to the next blank at most. -/
theorem matchEmail?_stopsAtBlank : StopsAtBlank matchEmail? where
  ahead := by
    intro before c cs rest hc
    have hfront := takeWhile_append_blank (fun _ => isPlain_of_isLocal) hc cs rest
    have hdrop : (cs ++ c :: rest).drop (cs.takeWhile isLocal).length =
        cs.drop (cs.takeWhile isLocal).length ++ c :: rest :=
      List.drop_append_of_le_length (List.takeWhile_prefix isLocal).length_le
    rw [matchEmail?, matchEmail?]
    simp only [hfront, hdrop]
    cases cs.drop (cs.takeWhile isLocal).length with
    | nil =>
      have hsign : c ≠ '@' := by
        rintro rfl
        cases hc
      simp [hsign]
    | cons d after =>
      by_cases hsign : d = '@'
      · subst hsign
        simp only [List.cons_append, takeWhile_append_blank (fun _ => isPlain_of_isDomain) hc]
      · simp [hsign]
  behind := fun _ => rfl
  inside := matchEmail?_recognises.le_length

/-! ## Replacing beside a blank -/

namespace StopsAtBlank

variable {r : Recogniser} (h : StopsAtBlank r) (token : List Char) {c : Char}
  (hc : isBlank c = true)
include h hc

/-- Behind a blank replacing goes on as at the beginning. -/
theorem replaceFrom_behind (cs : List Char) :
    replaceFrom r token (some c) 0 cs = replaceFrom r token none 0 cs := by
  cases cs with
  | nil => rw [replaceFrom, replaceFrom]
  | cons d cs => rw [replaceFrom, replaceFrom, h.behind hc]

/-- What has been replaced ends before the next blank, wherever replacing began. -/
theorem replaceFrom_blank (before : Option Char) {skip : ℕ} {cs : List Char}
    (hskip : skip ≤ cs.length) (rest : List Char) :
    replaceFrom r token before skip (cs ++ c :: rest) =
      replaceFrom r token before skip cs ++ c :: replaceFrom r token none 0 rest := by
  induction cs generalizing before skip with
  | nil =>
    obtain rfl : skip = 0 := Nat.le_zero.1 hskip
    have hblank : r before (c :: rest) = r before [] := h.ahead [] rest hc
    rw [List.nil_append, replaceFrom, replaceFrom, hblank, h.replaceFrom_behind token hc]
    cases hr : r before [] with
    | none => rfl
    | some n =>
      obtain rfl : n = 0 := Nat.le_zero.1 (h.inside hr)
      rfl
  | cons d cs ih =>
    cases skip with
    | succ skip =>
      rw [List.cons_append, replaceFrom, replaceFrom]
      exact ih (some d) (Nat.le_of_succ_le_succ hskip)
    | zero =>
      have hahead : r before (d :: (cs ++ c :: rest)) = r before (d :: cs) :=
        h.ahead (d :: cs) rest hc
      rw [List.cons_append, replaceFrom, replaceFrom, hahead]
      cases hr : r before (d :: cs) with
      | none => exact congrArg (d :: ·) (ih (some d) (Nat.zero_le _))
      | some n =>
        cases n with
        | zero => exact congrArg (d :: ·) (ih (some d) (Nat.zero_le _))
        | succ n =>
          have hn : n ≤ cs.length := Nat.le_of_succ_le_succ (h.inside hr)
          simp only [ih (some d) hn, List.append_assoc]

end StopsAtBlank

/-- A pass replaces on either side of a blank on its own. -/
theorem StopsAtBlank.replaceAll_blank {r : Recogniser} (h : StopsAtBlank r) (token : String) {c : Char}
    (hc : isBlank c = true) (as bs : List Char) :
    replaceAll r token (as ++ c :: bs) = replaceAll r token as ++ c :: replaceAll r token bs :=
  h.replaceFrom_blank token.toList hc none (Nat.zero_le _) bs

theorem replaceNumbers_append_blank {c : Char} (hc : isBlank c = true) (as bs : List Char) :
    replaceNumbers (as ++ c :: bs) = replaceNumbers as ++ c :: replaceNumbers bs := by
  induction as using token_induction with
  | htoken t ht => rw [replaceNumbers_blank ht hc, replaceNumbers_token ht]
  | hblank t d as ht hd ih =>
    rw [List.append_assoc, List.cons_append, replaceNumbers_blank ht hd, ih, replaceNumbers_blank ht hd,
      List.append_assoc, List.cons_append]

/-! ## Patterns beside a blank -/

theorem normalizeChars_blank {c : Char} (hc : isBlank c = true) (as bs : List Char) :
    normalizeChars (as ++ c :: bs) = normalizeChars as ++ c :: normalizeChars bs := by
  simp only [normalizeChars, matchUuid?_stopsAtBlank.replaceAll_blank _ hc,
    matchEmail?_stopsAtBlank.replaceAll_blank _ hc, matchIpv4?_stopsAtBlank.replaceAll_blank _ hc,
    matchMac?_stopsAtBlank.replaceAll_blank _ hc, replaceNumbers_append_blank hc]

theorem normalize_append_blank (a b : String) {w : Char} (hw : isBlank w = true) :
    normalize (a ++ String.singleton w ++ b) = normalize a ++ String.singleton w ++ normalize b := by
  apply String.toList_injective
  simp only [toList_normalize, String.toList_append, String.toList_singleton, List.append_assoc,
    List.singleton_append, normalizeChars_blank hw]

/-- Replacing only brings in the characters of the marker. -/
theorem mem_replaceFrom {r : Recogniser} {token : List Char} {before : Option Char} {skip : ℕ}
    {cs : List Char} {d : Char} (hd : d ∈ replaceFrom r token before skip cs) : d ∈ token ∨ d ∈ cs := by
  fun_induction replaceFrom r token before skip cs with
  | case1 => exact Or.inr hd
  | case2 before skip c cs ih => exact (ih hd).imp_right (List.mem_cons_of_mem c)
  | case3 before c cs n hn ih =>
    rcases List.mem_append.1 hd with hd | hd
    · exact Or.inl hd
    · exact (ih hd).imp_right (List.mem_cons_of_mem c)
  | case4 before c cs hr ih =>
    rcases List.mem_cons.1 hd with rfl | hd
    · exact Or.inr (List.mem_cons_self ..)
    · exact (ih hd).imp_right (List.mem_cons_of_mem c)

theorem Unbroken.replaceAll {t : List Char} (ht : Unbroken t) (r : Recogniser) {token : String}
    (htoken : Unbroken token.toList) : Unbroken (replaceAll r token t) := fun d hd =>
  (mem_replaceFrom hd).elim (htoken d) (ht d)

theorem IsMarker.unbroken {token : List Char} (h : IsMarker token) : Unbroken token := by
  obtain ⟨name, rfl, hname⟩ := h
  have hsign : isBlank '#' = false := by decide
  intro c hc
  rcases List.mem_cons.1 hc with rfl | hc
  · exact hsign
  · rcases List.mem_append.1 hc with hc | hc
    · have := isPlain_of_isLetter (hname c hc)
      simpa using (Bool.and_eq_true_iff.1 this).2
    · rw [List.mem_singleton.1 hc]
      exact hsign

/-- The pattern of a token has no blank in it either. -/
theorem Unbroken.normalizeChars {t : List Char} (ht : Unbroken t) :
    Unbroken (normalizeChars t) := by
  have h := (((ht.replaceAll matchUuid? isMarker_uuid.unbroken).replaceAll matchEmail?
    isMarker_email.unbroken).replaceAll matchIpv4? isMarker_ipv4.unbroken).replaceAll matchMac?
    isMarker_mac.unbroken
  rw [Pattern.normalizeChars, replaceNumbers_token h]
  exact unbroken_replaceNumber h

/-- The blanks of a text are those of its pattern, in the same order. -/
theorem filter_isBlank_normalizeChars (cs : List Char) :
    (normalizeChars cs).filter isBlank = cs.filter isBlank := by
  have hnone : ∀ {t}, Unbroken t → t.filter isBlank = [] := fun ht =>
    List.filter_eq_nil_iff.2 fun c hc => by simp [ht c hc]
  induction cs using token_induction with
  | htoken t ht => rw [hnone ht, hnone ht.normalizeChars]
  | hblank t c cs ht hc ih =>
    rw [normalizeChars_blank hc, List.filter_append, List.filter_append, hnone ht,
      hnone ht.normalizeChars, List.filter_cons_of_pos hc, List.filter_cons_of_pos hc, ih]

/-- A text that is put together with spaces has the patterns of its parts, with spaces between them. -/
theorem normalize_spaced (host tag message : String) :
    normalize (host ++ " " ++ tag ++ " " ++ message) =
      normalize host ++ " " ++ normalize tag ++ " " ++ normalize message := by
  have hspace : " " = String.singleton ' ' := rfl
  rw [hspace, normalize_append_blank _ _ rfl, normalize_append_blank _ _ rfl]

/-- **Patterns are put together piece by piece.**  The pattern of a text with a blank in it is that of what
comes before, the blank, and that of what comes behind; so the blanks stay as they are, and a record of the
system log is counted under the patterns of its host, its tag and its message, with spaces between them,
whatever these contain. -/
theorem normalize_piecewise :
    (∀ (a b : String) (w : Char), isBlank w = true →
      normalize (a ++ String.singleton w ++ b) =
        normalize a ++ String.singleton w ++ normalize b) ∧
    (∀ s : String, (normalize s).toList.filter isBlank = s.toList.filter isBlank) ∧
    ∀ (m : MessageTally) (severity : UInt8) (host tag message : String),
      let key := normalize host ++ " " ++ normalize tag ++ " " ++ normalize message
      (Tally.syslog m).add (.syslog severity host tag message) =
        .syslog
          { counts := countSeverity m.counts (.ofSyslog severity)
            patterns := m.patterns.increment key
            errorPatterns :=
              if Severity.ofSyslog severity = .error then m.errorPatterns.increment key
              else m.errorPatterns } := by
  refine ⟨fun a b w hw => normalize_append_blank a b hw, fun s => ?_, ?_⟩
  · rw [toList_normalize, filter_isBlank_normalizeChars]
  · intro m severity host tag message key
    rw [Tally.add, MessageTally.add, normalize_spaced]

/-- An address that an em space cuts in two is no address any more. -/
theorem normalize_piecewise_emSpace :
    isBlank '\u2003' = true ∧
      normalize ("from 10.0.0." ++ String.singleton '\u2003' ++ "5 port 22") =
        "from 10.0.0.\u2003#NUM# port #NUM#" := by
  have hblank : isBlank '\u2003' = true := by decide
  refine ⟨hblank, ?_⟩
  rw [normalize_piecewise.1 _ _ _ hblank]
  decide +kernel

end LogWatch.Report.Pattern
