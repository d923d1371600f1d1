import LogWatch.Proofs.Pattern.Expressions
import Mathlib.Data.List.TakeWhile

/-!
# Recognisers find what their expressions match

Each recogniser looks at one place of a text.  It finds something there just when its expression matches
there, and what it passes over is then a match.

* `Recognises` — the two directions;
* `matchUuid?_recognises`, `matchEmail?_recognises`, `matchIpv4?_recognises`,
  `matchMac?_recognises` — they hold of the four recognisers.
-/

namespace LogWatch.Report.Pattern

open Text
open scoped Computability

/-- A recogniser finds matches of an expression and misses none. -/
structure Recognises (r : Recogniser) (e : Expression) : Prop where
  sound : ∀ {before cs n}, r before cs = some n →
    ∃ w rest, cs = w ++ rest ∧ w.length = n ∧ e.Matches before w rest.head?
  complete : ∀ {before w rest}, e.Matches before w rest.head? → ∃ n, r before (w ++ rest) = some n

/-! ## Boundaries -/

/-- Next to a character of a word, a boundary of words means that the other side is free. -/
theorem boundary_right_iff {before : Option Char} {c : Char} (hc : Unicode.isWord c = true) :
    Boundary before (some c) ↔ isFree before = true := by
  have h : isFree (some c) = false := by rw [isFree, hc, Bool.not_true]
  rw [Boundary, h, Bool.ne_false_iff]

theorem boundary_left_iff {after : Option Char} {c : Char} (hc : Unicode.isWord c = true) :
    Boundary (some c) after ↔ isFree after = true := by
  rw [← boundary_right_iff hc, Boundary, Boundary, ne_comm]

/-- A whole word matches where it has no character of a word on either side. -/
theorem Expression.Plain.matches_iff {e : Expression} (he : e.Plain) (hwhole : e.isWhole = true)
    {before after : Option Char} {w : List Char} :
    e.Matches before w after ↔ w ∈ e.texts ∧ isFree before = true ∧ isFree after = true := by
  rw [Matches]
  refine and_congr_right fun hw => ?_
  obtain ⟨c, hc, hcw⟩ := he.starts hwhole w hw
  obtain ⟨d, hd, hdw⟩ := he.ends hwhole w hw
  rw [hc, hd, boundary_right_iff hcw, boundary_left_iff hdw]
  exact ⟨fun h => h hwhole, fun h _ => h⟩

/-! ## Reading from the front -/

/-- A function drops the texts of a language from the front, and nothing else. -/
def Drops (f : List Char → Option (List Char)) (l : Language Char) : Prop :=
  ∀ cs rest, f cs = some rest ↔ ∃ w, w ∈ l ∧ cs = w ++ rest

theorem Drops.bind {f g : List Char → Option (List Char)} {l m : Language Char} (hf : Drops f l)
    (hg : Drops g m) : Drops (fun cs => (f cs).bind g) (l * m) := by
  intro cs rest
  rw [Option.bind_eq_some_iff]
  constructor
  · rintro ⟨mid, hmid, hrest⟩
    obtain ⟨a, ha, rfl⟩ := (hf _ _).1 hmid
    obtain ⟨b, hb, rfl⟩ := (hg _ _).1 hrest
    exact ⟨a ++ b, Language.append_mem_mul ha hb, by rw [List.append_assoc]⟩
  · rintro ⟨_, ⟨a, ha, b, hb, rfl⟩, rfl⟩
    exact ⟨b ++ rest, (hf _ _).2 ⟨a, ha, by simp⟩, (hg _ _).2 ⟨b, hb, rfl⟩⟩

theorem dropExactly?_drops (isIn : Char → Bool) (n : ℕ) :
    Drops (dropExactly? isIn n) (single isIn ^ n) := by
  induction n with
  | zero =>
    intro cs rest
    rw [dropExactly?, pow_zero, Option.some_inj]
    constructor
    · rintro rfl
      exact ⟨[], rfl, rfl⟩
    · rintro ⟨_, rfl, rfl⟩
      rfl
  | succ n ih =>
    intro cs rest
    rw [pow_succ']
    cases cs with
    | nil =>
      constructor
      · intro h
        cases h
      · rintro ⟨_, ⟨_, ⟨c, -, rfl⟩, v, -, rfl⟩, hw⟩
        cases hw
    | cons c cs =>
      rw [dropExactly?]
      constructor
      · intro h
        split at h
        · rename_i hc
          obtain ⟨w, hw, rfl⟩ := (ih _ _).1 h
          exact ⟨c :: w, ⟨[c], ⟨c, hc, rfl⟩, w, hw, rfl⟩, rfl⟩
        · cases h
      · rintro ⟨_, ⟨_, ⟨d, hd, rfl⟩, v, hv, rfl⟩, hw⟩
        obtain ⟨rfl, rfl⟩ := List.cons.inj hw
        rw [if_pos hd]
        exact (ih _ _).2 ⟨v, hv, rfl⟩

theorem dropChar?_drops (c : Char) : Drops (dropChar? c) (mark c) := by
  intro cs rest
  simp only [mem_mark]
  cases cs with
  | nil => simp [dropChar?]
  | cons d cs =>
    by_cases h : d = c
    · simp [dropChar?, h]
    · simp [dropChar?, h]

/-! ## Lengths -/

/-- All texts of a language have one length. -/
def HasLength (n : ℕ) (l : Language Char) : Prop :=
  ∀ w ∈ l, w.length = n

theorem hasLength_mark (c : Char) : HasLength 1 (mark c) := by
  intro w hw
  rw [mem_mark.1 hw, List.length_singleton]

theorem hasLength_single_pow (isIn : Char → Bool) (n : ℕ) : HasLength n (single isIn ^ n) :=
  fun _ hw => (mem_single_pow.1 hw).1

theorem HasLength.mul {n k : ℕ} {l m : Language Char} (hl : HasLength n l) (hm : HasLength k m) :
    HasLength (n + k) (l * m) := by
  rintro _ ⟨a, ha, b, hb, rfl⟩
  rw [List.length_append, hl a ha, hm b hb]

theorem HasLength.add {n : ℕ} {l m : Language Char} (hl : HasLength n l) (hm : HasLength n m) :
    HasLength n (l + m) := by
  rintro w (h | h)
  · exact hl w h
  · exact hm w h

theorem HasLength.pow {k : ℕ} {l : Language Char} (hl : HasLength k l) (n : ℕ) :
    HasLength (n * k) (l ^ n) := by
  induction n with
  | zero =>
    intro w hw
    rw [pow_zero, Language.mem_one] at hw
    rw [hw, Nat.zero_mul, List.length_nil]
  | succ n ih =>
    rw [pow_succ, Nat.succ_mul]
    exact ih.mul hl

/-! ## Identifiers -/

theorem dropGroups?_drops_cons {n k : ℕ} {more : List ℕ} {l : Language Char}
    (h : Drops (dropGroups? (k :: more)) l) :
    Drops (dropGroups? (n :: k :: more)) (single isHex ^ n * (mark '-' * l)) :=
  (dropExactly?_drops isHex n).bind ((dropChar?_drops '-').bind h)

/-- The texts of an identifier are dropped group by group. -/
theorem dropGroups?_drops_uuid : Drops (dropGroups? [8, 4, 4, 4, 12]) uuid.texts := by
  have h12 : Drops (dropGroups? [12]) (single isHex ^ 12) := dropExactly?_drops isHex 12
  have h := dropGroups?_drops_cons (n := 8) (dropGroups?_drops_cons (n := 4)
    (dropGroups?_drops_cons (n := 4) (dropGroups?_drops_cons (n := 4) h12)))
  simpa only [uuid, mul_assoc] using h

theorem uuid_hasLength : HasLength 36 uuid.texts := by
  have hhex := hasLength_single_pow isHex
  have hmark := hasLength_mark '-'
  exact (((((((((hhex 8).mul hmark).mul (hhex 4)).mul hmark).mul (hhex 4)).mul hmark).mul
    (hhex 4)).mul hmark).mul (hhex 12))

theorem matchUuid?_recognises : Recognises matchUuid? uuid where
  sound := by
    intro before cs n h
    obtain ⟨rest, hrest, rfl⟩ := Option.map_eq_some_iff.1 h
    obtain ⟨w, hw, rfl⟩ := (dropGroups?_drops_uuid _ _).1 hrest
    exact ⟨w, rest, rfl, uuid_hasLength w hw, hw, fun h => nomatch h⟩
  complete := by
    rintro before w rest ⟨hw, -⟩
    have h := (dropGroups?_drops_uuid (w ++ rest) rest).2 ⟨w, hw, rfl⟩
    exact ⟨36, by rw [matchUuid?, h, Option.map_some]⟩

/-! ## Hardware addresses -/

theorem dropPairs?_drops (k : ℕ) :
    Drops (dropPairs? (k + 1)) ((single isHex ^ 2 * (mark ':' + mark '-')) ^ k * single isHex ^ 2) := by
  induction k with
  | zero =>
    rw [pow_zero, one_mul]
    exact dropExactly?_drops isHex 2
  | succ k ih =>
    intro cs rest
    rw [dropPairs?, pow_succ', mul_assoc]
    constructor
    · intro h
      split at h
      · rename_i c mid hmid
        obtain ⟨v, hv, rfl⟩ := (dropExactly?_drops isHex 2 _ _).1 hmid
        split at h
        · rename_i hc
          obtain ⟨w, hw, rfl⟩ := (ih _ _).1 h
          have hmark : [c] ∈ mark ':' + mark '-' := by
            rw [Language.mem_add, mem_mark, mem_mark]
            simpa using hc
          exact ⟨v ++ [c] ++ w, ⟨v ++ [c], Language.append_mem_mul hv hmark, w, hw, rfl⟩, by simp⟩
        · cases h
      · cases h
    · rintro ⟨x, hx, rfl⟩
      obtain ⟨y, hy, w, hw, rfl⟩ := Language.mem_mul.1 hx
      obtain ⟨v, hv, s, hs, rfl⟩ := Language.mem_mul.1 hy
      obtain ⟨c, hc, rfl⟩ : ∃ c, (c = ':' ∨ c = '-') ∧ s = [c] := by
        rcases (Language.mem_add _ _ _).1 hs with hs | hs <;> rw [mem_mark] at hs <;> subst hs
        · exact ⟨':', Or.inl rfl, rfl⟩
        · exact ⟨'-', Or.inr rfl, rfl⟩
      have h : dropExactly? isHex 2 (v ++ [c] ++ w ++ rest) = some (c :: (w ++ rest)) :=
        (dropExactly?_drops isHex 2 _ _).2 ⟨v, hv, by simp⟩
      rw [h]
      simp only [if_pos hc]
      exact (ih _ _).2 ⟨w, hw, rfl⟩

theorem mac_hasLength : HasLength 17 mac.texts := by
  have hpair := hasLength_single_pow isHex 2
  exact ((hpair.mul ((hasLength_mark ':').add (hasLength_mark '-'))).pow 5).mul hpair

theorem matchMac?_recognises : Recognises matchMac? mac where
  sound := by
    intro before cs n h
    rw [matchMac?] at h
    split at h
    · rename_i rest hrest
      obtain ⟨w, hw, rfl⟩ := (dropPairs?_drops 5 _ _).1 hrest
      split at h
      · rename_i hfree
        rw [Bool.and_eq_true] at hfree
        cases h
        exact ⟨w, rest, rfl, mac_hasLength w hw, (mac_plain.matches_iff rfl).2 ⟨hw, hfree⟩⟩
      · cases h
    · cases h
  complete := by
    intro before w rest h
    obtain ⟨hw, hbefore, hafter⟩ := (mac_plain.matches_iff rfl).1 h
    have hdrop : dropPairs? 6 (w ++ rest) = some rest := (dropPairs?_drops 5 _ _).2 ⟨w, hw, rfl⟩
    exact ⟨17, by simp [matchMac?, hdrop, hbefore, hafter]⟩

/-! ## Network addresses -/

/-- What is taken while it belongs to a class ends where the class does. -/
theorem takeWhile_append_of_stop {isIn : Char → Bool} {w rest : List Char}
    (hw : ∀ c ∈ w, isIn c = true) (hrest : ∀ c ∈ rest.head?, isIn c = false) :
    (w ++ rest).takeWhile isIn = w := by
  rw [List.takeWhile_append_of_pos hw]
  cases rest with
  | nil => simp
  | cons c rest => simp [hrest c rfl]

theorem mem_octet {w : List Char} :
    w ∈ octet ↔ (1 ≤ w.length ∧ w.length ≤ 3) ∧ ∀ c ∈ w, isDigit c = true := by
  have hone : w ∈ single isDigit ↔ w.length = 1 ∧ ∀ c ∈ w, isDigit c = true := by
    rw [← mem_single_pow, pow_one]
  rw [octet, Language.mem_add, Language.mem_add, hone, mem_single_pow, mem_single_pow]
  constructor
  · rintro ((⟨hlen, hall⟩ | ⟨hlen, hall⟩) | ⟨hlen, hall⟩)
    all_goals exact ⟨by omega, hall⟩
  · rintro ⟨hlen, hall⟩
    have : w.length = 1 ∨ w.length = 2 ∨ w.length = 3 := by omega
    tauto

/-- No digit stands at the front. -/
def StopsDigits (rest : List Char) : Prop :=
  ∀ c ∈ rest.head?, isDigit c = false

theorem stopsDigits_of_isFree {rest : List Char} (h : isFree rest.head? = true) :
    StopsDigits rest := by
  intro c hc
  rw [Option.mem_def.1 hc, isFree, Bool.not_eq_true', ← Bool.not_eq_true] at h
  rw [← Bool.not_eq_true]
  exact fun hd => h (isWord_of_isAlnum (isAlnum_of_isDigit hd))

theorem octetLength?_eq_some {cs : List Char} {n : ℕ} :
    octetLength? cs = some n ↔ ∃ w rest, w ∈ octet ∧ StopsDigits rest ∧ cs = w ++ rest ∧ w.length = n := by
  rw [octetLength?]
  constructor
  · intro h
    split at h
    · rename_i hlen
      cases h
      refine ⟨cs.takeWhile isDigit, cs.dropWhile isDigit, mem_octet.2 ⟨hlen, ?_⟩, ?_,
        List.takeWhile_append_dropWhile.symm, rfl⟩
      · exact fun c hc => List.mem_takeWhile_imp hc
      · intro c hc
        have h := List.head?_dropWhile_not isDigit cs
        rwa [Option.mem_def.1 hc] at h
    · cases h
  · rintro ⟨w, rest, hw, hrest, rfl, rfl⟩
    obtain ⟨hlen, hall⟩ := mem_octet.1 hw
    rw [takeWhile_append_of_stop hall hrest, if_pos hlen]

theorem octets?_one_eq_some {n : ℕ} {cs rest : List Char} :
    octets? 1 cs = some (n, rest) ↔
      ∃ w, w ∈ octet ∧ StopsDigits rest ∧ cs = w ++ rest ∧ w.length = n := by
  rw [octets?, Option.map_eq_some_iff]
  constructor
  · rintro ⟨m, hm, h⟩
    obtain ⟨w, tail, hw, htail, rfl, rfl⟩ := octetLength?_eq_some.1 hm
    rw [List.drop_left] at h
    cases h
    exact ⟨w, hw, htail, rfl, rfl⟩
  · rintro ⟨w, hw, hrest, rfl, rfl⟩
    exact ⟨w.length, octetLength?_eq_some.2 ⟨w, rest, hw, hrest, rfl, rfl⟩, by rw [List.drop_left]⟩

/-- Of several octets the first one is followed by a dot and the others. -/
theorem octets?_succ_eq_some {k n : ℕ} {cs rest : List Char} :
    octets? (k + 2) cs = some (n, rest) ↔
      ∃ v l tail, v ∈ octet ∧ octets? (k + 1) tail = some (l, rest) ∧ cs = v ++ '.' :: tail ∧
        v.length + 1 + l = n := by
  rw [octets?]
  constructor
  · intro h
    split at h
    · cases h
    · rename_i m hm
      obtain ⟨v, tail, hv, -, rfl, rfl⟩ := octetLength?_eq_some.1 hm
      rw [List.drop_left] at h
      split at h
      · cases h
      · rename_i more hmore
        obtain ⟨s, hs, rfl⟩ := (dropChar?_drops '.' _ _).1 hmore
        obtain ⟨⟨l, rest'⟩, hl, h⟩ := Option.map_eq_some_iff.1 h
        cases h
        rw [mem_mark] at hs
        subst hs
        exact ⟨v, l, more, hv, hl, rfl, rfl⟩
  · rintro ⟨v, l, tail, hv, htail, rfl, rfl⟩
    have hstop : StopsDigits ('.' :: tail) := by
      intro c hc
      cases hc
      decide
    have hv' : octetLength? (v ++ '.' :: tail) = some v.length :=
      octetLength?_eq_some.2 ⟨v, '.' :: tail, hv, hstop, rfl, rfl⟩
    rw [hv']
    simp [dropChar?, htail]

theorem octets?_eq_some {k n : ℕ} {cs rest : List Char} :
    octets? (k + 1) cs = some (n, rest) ↔
      ∃ w, w ∈ (octet * mark '.') ^ k * octet ∧ StopsDigits rest ∧ cs = w ++ rest ∧ w.length = n := by
  induction k generalizing n cs with
  | zero =>
    rw [pow_zero, one_mul]
    exact octets?_one_eq_some
  | succ k ih =>
    rw [octets?_succ_eq_some, pow_succ', mul_assoc]
    constructor
    · rintro ⟨v, l, tail, hv, htail, rfl, rfl⟩
      obtain ⟨w, hw, hrest, rfl, rfl⟩ := ih.1 htail
      have hdot : v ++ ['.'] ∈ octet * mark '.' := Language.append_mem_mul hv (mem_mark.2 rfl)
      refine ⟨v ++ ['.'] ++ w, Language.append_mem_mul hdot hw, hrest, by simp, ?_⟩
      rw [List.length_append, List.length_append, List.length_singleton]
    · rintro ⟨x, hx, hrest, rfl, rfl⟩
      obtain ⟨y, hy, w, hw, rfl⟩ := Language.mem_mul.1 hx
      obtain ⟨v, hv, s, hs, rfl⟩ := Language.mem_mul.1 hy
      rw [mem_mark] at hs
      subst hs
      refine ⟨v, w.length, w ++ rest, hv, ih.2 ⟨w, hw, hrest, rfl, rfl⟩, by simp, ?_⟩
      rw [List.length_append, List.length_append, List.length_singleton]

theorem matchIpv4?_recognises : Recognises matchIpv4? ipv4 where
  sound := by
    intro before cs n h
    rw [matchIpv4?] at h
    split at h
    · rename_i m rest hrest
      obtain ⟨w, hw, -, rfl, rfl⟩ := octets?_eq_some.1 hrest
      split at h
      · rename_i hfree
        rw [Bool.and_eq_true] at hfree
        cases h
        exact ⟨w, rest, rfl, rfl, (ipv4_plain.matches_iff rfl).2 ⟨hw, hfree⟩⟩
      · cases h
    · cases h
  complete := by
    intro before w rest h
    obtain ⟨hw, hbefore, hafter⟩ := (ipv4_plain.matches_iff rfl).1 h
    have hoctets : octets? 4 (w ++ rest) = some (w.length, rest) :=
      octets?_eq_some.2 ⟨w, hw, stopsDigits_of_isFree hafter, rfl, rfl⟩
    exact ⟨w.length, by simp [matchIpv4?, hoctets, hbefore, hafter]⟩

/-! ## Mail addresses -/

/-- At least two letters. -/
theorem mem_letters {t : List Char} :
    t ∈ single isLetter ^ 2 * (single isLetter)∗ ↔ 2 ≤ t.length ∧ ∀ c ∈ t, isLetter c = true := by
  rw [Language.mem_mul]
  constructor
  · rintro ⟨a, ha, b, hb, rfl⟩
    obtain ⟨hlen, hall⟩ := mem_single_pow.1 ha
    refine ⟨by simp [hlen], fun c hc => ?_⟩
    rcases List.mem_append.1 hc with hc | hc
    · exact hall c hc
    · exact mem_single_kstar.1 hb c hc
  · rintro ⟨hlen, hall⟩
    refine ⟨t.take 2, mem_single_pow.2 ⟨by simpa using hlen, ?_⟩, t.drop 2, mem_single_kstar.2 ?_,
      List.take_append_drop 2 t⟩
    · exact fun c hc => hall c (List.mem_of_mem_take hc)
    · exact fun c hc => hall c (List.mem_of_mem_drop hc)

/-- An address is a local part, the sign, a name, a dot and letters. -/
theorem mem_email {w : List Char} :
    w ∈ email.texts ↔ ∃ l d t, l ∈ some1 isLocal ∧ d ∈ some1 isDomain ∧
      t ∈ single isLetter ^ 2 * (single isLetter)∗ ∧ w = l ++ '@' :: (d ++ '.' :: t) := by
  constructor
  · intro h
    obtain ⟨x, hx, t, ht, rfl⟩ := Language.mem_mul.1 h
    obtain ⟨y, hy, p, hp, rfl⟩ := Language.mem_mul.1 hx
    obtain ⟨z, hz, d, hd, rfl⟩ := Language.mem_mul.1 hy
    obtain ⟨l, hl, q, hq, rfl⟩ := Language.mem_mul.1 hz
    rw [mem_mark] at hp hq
    subst hp hq
    exact ⟨l, d, t, hl, hd, ht, by simp⟩
  · rintro ⟨l, d, t, hl, hd, ht, rfl⟩
    have hat : ['@'] ∈ mark '@' := mem_mark.2 rfl
    have hdot : ['.'] ∈ mark '.' := mem_mark.2 rfl
    have h := Language.append_mem_mul (Language.append_mem_mul (Language.append_mem_mul
      (Language.append_mem_mul hl hat) hd) hdot) ht
    simpa [email] using h

theorem isDomain_of_isLetter {c : Char} (h : isLetter c = true) : isDomain c = true := by
  simp [isDomain, h]

/-- What is found ends in a dot and letters, and something stands in front of the dot. -/
theorem domainLength?_sound {cs : List Char} {i n : ℕ} (h : domainLength? i cs = some n) :
    ∃ d t rest, cs = d ++ '.' :: (t ++ rest) ∧ 0 < i + d.length ∧
      t ∈ single isLetter ^ 2 * (single isLetter)∗ ∧ n = i + d.length + 1 + t.length := by
  induction cs generalizing i with
  | nil => cases h
  | cons c cs ih =>
    rw [domainLength?] at h
    split at h
    · rename_i m hm
      cases h
      obtain ⟨d, t, rest, rfl, -, ht, rfl⟩ := ih hm
      exact ⟨c :: d, t, rest, rfl, by rw [List.length_cons]; omega, ht,
        by rw [List.length_cons]; omega⟩
    · dsimp only at h
      split at h
      · rename_i hfound
        obtain ⟨rfl, hpos, hlen⟩ := hfound
        cases h
        refine ⟨[], cs.takeWhile isLetter, cs.dropWhile isLetter, ?_, hpos, mem_letters.2 ⟨hlen, ?_⟩, rfl⟩
        · rw [List.takeWhile_append_dropWhile, List.nil_append]
        · exact fun c hc => List.mem_takeWhile_imp hc
      · cases h

theorem domainLength?_complete {d t rest : List Char} {i : ℕ} (hpos : 0 < i + d.length)
    (ht : t ∈ single isLetter ^ 2 * (single isLetter)∗) :
    ∃ n, domainLength? i (d ++ '.' :: (t ++ rest)) = some n := by
  obtain ⟨hlen, hall⟩ := mem_letters.1 ht
  induction d generalizing i with
  | nil =>
    rw [List.nil_append, domainLength?]
    split
    · rename_i n _
      exact ⟨n, rfl⟩
    · have hlong : 2 ≤ ((t ++ rest).takeWhile isLetter).length := by
        rw [List.takeWhile_append_of_pos hall, List.length_append]
        omega
      rw [if_pos ⟨rfl, by simpa using hpos, hlong⟩]
      exact ⟨_, rfl⟩
  | cons c d ih =>
    obtain ⟨n, hn⟩ := ih (i := i + 1) (by omega)
    rw [List.cons_append, domainLength?, hn]
    exact ⟨n, rfl⟩

theorem matchEmail?_recognises : Recognises matchEmail? email where
  sound := by
    intro before cs n h
    rw [matchEmail?] at h
    split at h
    · rename_i after hafter
      split at h
      · cases h
      · rename_i hfront
        obtain ⟨m, hm, rfl⟩ := Option.map_eq_some_iff.1 h
        obtain ⟨d, t, rest, hdomain, hpos, ht, rfl⟩ := domainLength?_sound hm
        have hover : ∀ c ∈ d, isDomain c = true := by
          intro c hc
          have : c ∈ after.takeWhile isDomain := by rw [hdomain]; exact List.mem_append_left _ hc
          exact List.mem_takeWhile_imp this
        have hsplit : cs = cs.takeWhile isLocal ++ '@' :: after := by
          rw [← hafter]
          exact (List.prefix_iff_eq_append.1 (List.takeWhile_prefix isLocal)).symm
        have hafter' : after = d ++ '.' :: (t ++ rest) ++ after.dropWhile isDomain := by
          rw [← hdomain, List.takeWhile_append_dropWhile]
        refine ⟨cs.takeWhile isLocal ++ '@' :: (d ++ '.' :: t), rest ++ after.dropWhile isDomain, ?_, ?_,
          mem_email.2 ⟨_, d, t, mem_some1.2 ⟨?_, ?_⟩, mem_some1.2 ⟨?_, hover⟩, ht, rfl⟩, ?_⟩
        · conv_lhs => rw [hsplit, hafter']
          simp
        · simp only [List.length_append, List.length_cons]
          omega
        · exact fun h => hfront (by rw [h, List.length_nil])
        · exact fun c hc => List.mem_takeWhile_imp hc
        · exact List.length_pos_iff.1 (by simpa using hpos)
        · exact fun h => nomatch h
    · cases h
  complete := by
    rintro before w rest ⟨hw, -⟩
    obtain ⟨l, d, t, hl, hd, ht, rfl⟩ := mem_email.1 hw
    obtain ⟨hne, hall⟩ := mem_some1.1 hl
    obtain ⟨hdne, hdall⟩ := mem_some1.1 hd
    have hlist : l ++ '@' :: (d ++ '.' :: t) ++ rest = l ++ '@' :: (d ++ '.' :: (t ++ rest)) := by simp
    have hfront : (l ++ '@' :: (d ++ '.' :: (t ++ rest))).takeWhile isLocal = l :=
      takeWhile_append_of_stop hall (by rintro c ⟨⟩; decide)
    have hdomain : (d ++ '.' :: (t ++ rest)).takeWhile isDomain =
        d ++ '.' :: (t ++ rest.takeWhile isDomain) := by
      rw [List.takeWhile_append_of_pos hdall, List.takeWhile_cons_of_pos (by decide),
        List.takeWhile_append_of_pos fun c hc => isDomain_of_isLetter ((mem_letters.1 ht).2 c hc)]
    obtain ⟨n, hn⟩ : ∃ n, domainLength? 0 (d ++ '.' :: (t ++ rest.takeWhile isDomain)) = some n :=
      domainLength?_complete (by simpa using List.length_pos_iff.2 hdne) ht
    refine ⟨l.length + 1 + n, ?_⟩
    rw [hlist, matchEmail?]
    simp only [hfront, List.drop_left, hdomain, hn, Option.map_some,
      if_neg fun h => hne (List.length_eq_zero_iff.1 h)]

end LogWatch.Report.Pattern
