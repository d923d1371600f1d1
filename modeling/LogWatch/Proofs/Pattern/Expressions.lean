import LogWatch.Report.Pattern
import Mathlib.Computability.Language

/-!
# The expressions that patterns stand for

What a pattern replaces is described here without any reference to how it is found: as languages of
texts, built from classes of characters by concatenation, powers, union and closure.

* `uuid`, `email`, `ipv4`, `mac` — the four expressions; the last two are whole words only;
* `Expression.Matches`, `Expression.OccursIn` — an expression matches a part of a text, with the
  characters on either side of it;
* `numeral` — the numbers that stand alone;
* `Expression.Plain` — what the expressions have in common and replacing relies on.
-/

namespace LogWatch.Report.Pattern

open Text
open scoped Computability

/-! ## Languages of characters -/

/-- The texts of one character of a class. -/
def single (isIn : Char → Bool) : Language Char :=
  {w | ∃ c, isIn c = true ∧ w = [c]}

/-- The text of one character. -/
def mark (c : Char) : Language Char :=
  single (· == c)

/-- At least one character of a class. -/
def some1 (isIn : Char → Bool) : Language Char :=
  single isIn * (single isIn)∗

theorem mem_single {isIn : Char → Bool} {w : List Char} :
    w ∈ single isIn ↔ ∃ c, isIn c = true ∧ w = [c] := Iff.rfl

theorem mem_mark {c : Char} {w : List Char} : w ∈ mark c ↔ w = [c] := by
  rw [mark, mem_single]
  constructor
  · rintro ⟨d, hd, rfl⟩
    rw [beq_iff_eq.1 hd]
  · rintro rfl
    exact ⟨c, beq_self_eq_true c, rfl⟩

/-- A power of a class holds the texts of that length over the class. -/
theorem mem_single_pow {isIn : Char → Bool} {n : ℕ} {w : List Char} :
    w ∈ single isIn ^ n ↔ w.length = n ∧ ∀ c ∈ w, isIn c = true := by
  induction n generalizing w with
  | zero =>
    rw [pow_zero, Language.mem_one, List.length_eq_zero_iff]
    constructor
    · rintro rfl
      exact ⟨rfl, by simp⟩
    · exact fun h => h.1
  | succ n ih =>
    rw [pow_succ', Language.mem_mul]
    constructor
    · rintro ⟨_, ⟨c, hc, rfl⟩, v, hv, rfl⟩
      obtain ⟨hlen, hall⟩ := ih.1 hv
      exact ⟨by simp [hlen], by simpa using ⟨hc, hall⟩⟩
    · rintro ⟨hlen, hall⟩
      cases w with
      | nil => simp at hlen
      | cons c v =>
        rw [List.forall_mem_cons] at hall
        exact ⟨[c], ⟨c, hall.1, rfl⟩, v, ih.2 ⟨by simpa using hlen, hall.2⟩, rfl⟩

/-- The closure of a class holds the texts over the class. -/
theorem mem_single_kstar {isIn : Char → Bool} {w : List Char} :
    w ∈ (single isIn)∗ ↔ ∀ c ∈ w, isIn c = true := by
  rw [Language.kstar_eq_iSup_pow, Language.mem_iSup]
  constructor
  · rintro ⟨n, hn⟩
    exact (mem_single_pow.1 hn).2
  · exact fun h => ⟨w.length, mem_single_pow.2 ⟨rfl, h⟩⟩

theorem mem_some1 {isIn : Char → Bool} {w : List Char} :
    w ∈ some1 isIn ↔ w ≠ [] ∧ ∀ c ∈ w, isIn c = true := by
  rw [some1, Language.mem_mul]
  constructor
  · rintro ⟨_, ⟨c, hc, rfl⟩, v, hv, rfl⟩
    exact ⟨by simp, by simpa using ⟨hc, mem_single_kstar.1 hv⟩⟩
  · rintro ⟨hne, hall⟩
    cases w with
    | nil => exact absurd rfl hne
    | cons c v =>
      rw [List.forall_mem_cons] at hall
      exact ⟨[c], ⟨c, hall.1, rfl⟩, v, mem_single_kstar.2 hall.2, rfl⟩

/-! ## Expressions and where they match -/

/-- Texts to be replaced. -/
structure Expression where
  texts : Language Char
  /-- Must there be a boundary of words on either side? -/
  isWhole : Bool

/-- A word begins or ends between two characters: just one of them belongs to words.  An end of the text
counts as a character that does not. -/
def Boundary (before after : Option Char) : Prop :=
  isFree before ≠ isFree after

/-- Does the expression match a text between the two given characters? -/
def Expression.Matches (e : Expression) (before : Option Char) (w : List Char)
    (after : Option Char) : Prop :=
  w ∈ e.texts ∧ (e.isWhole = true → Boundary before w.head? ∧ Boundary w.getLast? after)

/-- The character in front of what follows `a`, where `before` is in front of `a`. -/
def lastOr (before : Option Char) (a : List Char) : Option Char :=
  a.getLast?.or before

/-- Does the expression match somewhere in a text that follows a character? -/
def Expression.OccursAfter (e : Expression) (before : Option Char) (cs : List Char) : Prop :=
  ∃ a w b, cs = a ++ w ++ b ∧ e.Matches (lastOr before a) w b.head?

/-- Does the expression match some part of a text? -/
def Expression.OccursIn (e : Expression) (cs : List Char) : Prop :=
  ∃ a w b, cs = a ++ w ++ b ∧ e.Matches a.getLast? w b.head?

@[simp] theorem lastOr_nil (before : Option Char) : lastOr before [] = before := rfl

theorem lastOr_cons (before : Option Char) (c : Char) (a : List Char) :
    lastOr before (c :: a) = lastOr (some c) a := by
  cases h : a.getLast? <;> simp [lastOr, List.getLast?_cons, h]

theorem lastOr_append (before : Option Char) (a b : List Char) :
    lastOr before (a ++ b) = lastOr (lastOr before a) b := by
  simp only [lastOr, List.getLast?_append, Option.or_assoc]

theorem lastOr_of_ne_nil {a : List Char} (h : a ≠ []) (before : Option Char) :
    lastOr before a = a.getLast? := by
  cases ha : a.getLast? with
  | none => exact absurd (List.getLast?_eq_none_iff.1 ha) h
  | some c => rw [lastOr, ha, Option.some_or]

theorem Expression.occursIn_iff {e : Expression} {cs : List Char} :
    e.OccursIn cs ↔ e.OccursAfter none cs := by
  simp only [OccursIn, OccursAfter, lastOr, Option.or_none]

/-! ## The expressions -/

/-- Five groups of hexadecimal digits with hyphens between them. -/
def uuid : Expression where
  texts := single isHex ^ 8 * mark '-' * single isHex ^ 4 * mark '-' * single isHex ^ 4 * mark '-' *
    single isHex ^ 4 * mark '-' * single isHex ^ 12
  isWhole := false

/-- A local part, the sign, and a domain that ends in a dot and at least two letters. -/
def email : Expression where
  texts := some1 isLocal * mark '@' * some1 isDomain * mark '.' *
    (single isLetter ^ 2 * (single isLetter)∗)
  isWhole := false

/-- One to three digits. -/
def octet : Language Char :=
  single isDigit + single isDigit ^ 2 + single isDigit ^ 3

/-- Four octets with dots between them. -/
def ipv4 : Expression where
  texts := (octet * mark '.') ^ 3 * octet
  isWhole := true

/-- Six pairs of hexadecimal digits, each but the last followed by a colon or a hyphen. -/
def mac : Expression where
  texts := (single isHex ^ 2 * (mark ':' + mark '-')) ^ 5 * single isHex ^ 2
  isWhole := true

/-- Digits with a fraction or without, or a fraction alone. -/
def unsigned : Language Char :=
  some1 isDigit * (1 + mark '.' * some1 isDigit) + mark '.' * some1 isDigit

/-- A number with a sign or without. -/
def numeral : Language Char :=
  (1 + mark '+' + mark '-') * unsigned

/-! ## Classes in numbers -/

theorem toNat_le_toNat {a b : Char} : a.toNat ≤ b.toNat ↔ a ≤ b := Iff.rfl

theorem isDigit_iff {c : Char} : isDigit c = true ↔ 48 ≤ c.toNat ∧ c.toNat ≤ 57 := by
  simp [isDigit, ← toNat_le_toNat]

theorem isLetter_iff {c : Char} :
    isLetter c = true ↔ (97 ≤ c.toNat ∧ c.toNat ≤ 122) ∨ (65 ≤ c.toNat ∧ c.toNat ≤ 90) := by
  simp [isLetter, ← toNat_le_toNat]

theorem isHex_iff {c : Char} :
    isHex c = true ↔ isDigit c = true ∨
      (97 ≤ c.toNat ∧ c.toNat ≤ 102) ∨ (65 ≤ c.toNat ∧ c.toNat ≤ 70) := by
  simp [isHex, ← toNat_le_toNat, or_assoc]

/-- A character that stands neither at the edge of a marker nor between tokens. -/
def isPlain (c : Char) : Bool :=
  c != '#' && !isBlank c

theorem isPlain_of_visible {c : Char} (hlow : 36 ≤ c.toNat) (hhigh : c.toNat ≤ 126) :
    isPlain c = true := by
  have hne : c ≠ '#' := by
    rintro rfl
    exact absurd hlow (by decide)
  simp [isPlain, hne, isBlank]
  omega

theorem isHex_of_isDigit {c : Char} (h : isDigit c = true) : isHex c = true :=
  isHex_iff.2 (Or.inl h)

theorem isPlain_of_isHex {c : Char} (h : isHex c = true) : isPlain c = true := by
  rw [isHex_iff, isDigit_iff] at h
  exact isPlain_of_visible (by omega) (by omega)

theorem isPlain_of_isDigit {c : Char} (h : isDigit c = true) : isPlain c = true :=
  isPlain_of_isHex (isHex_of_isDigit h)

theorem isPlain_of_isLetter {c : Char} (h : isLetter c = true) : isPlain c = true := by
  rw [isLetter_iff] at h
  exact isPlain_of_visible (by omega) (by omega)

theorem isPlain_of_isDomain {c : Char} (h : isDomain c = true) : isPlain c = true := by
  simp only [isDomain, Bool.or_eq_true, beq_iff_eq] at h
  rcases h with ((h | h) | rfl) | rfl
  · exact isPlain_of_isLetter h
  · exact isPlain_of_isDigit h
  · decide
  · decide

theorem isPlain_of_isLocal {c : Char} (h : isLocal c = true) : isPlain c = true := by
  simp only [isLocal, Bool.or_eq_true, beq_iff_eq] at h
  rcases h with (((((h | h) | rfl) | rfl) | rfl) | rfl) | rfl
  · exact isPlain_of_isLetter h
  · exact isPlain_of_isDigit h
  all_goals decide

theorem not_isLetter_of_isDigit {c : Char} (h : isDigit c = true) : isLetter c = false := by
  rw [isDigit_iff] at h
  rw [← Bool.not_eq_true, isLetter_iff]
  omega

/-- A letter or a digit. -/
def isAlnum (c : Char) : Bool :=
  isLetter c || isDigit c

theorem isAlnum_of_isDigit {c : Char} (h : isDigit c = true) : isAlnum c = true := by
  rw [isAlnum, h, Bool.or_true]

theorem isAlnum_of_isLetter {c : Char} (h : isLetter c = true) : isAlnum c = true := by
  rw [isAlnum, h, Bool.true_or]

theorem isAlnum_of_isHex {c : Char} (h : isHex c = true) : isAlnum c = true := by
  rcases isHex_iff.1 h with h | h
  · exact isAlnum_of_isDigit h
  · exact isAlnum_of_isLetter (isLetter_iff.2 (by omega))

/-- Letters and digits belong to words. -/
theorem isWord_of_isAlnum {c : Char} (h : isAlnum c = true) : Unicode.isWord c = true := by
  rw [isAlnum, Bool.or_eq_true, isLetter_iff, isDigit_iff] at h
  have hlt : c.toNat < 128 := by omega
  simp [Unicode.isWord, hlt]
  omega

/-! ## What the texts of a language consist of -/

/-- All characters of all texts belong to a class. -/
def Over (isIn : Char → Bool) (l : Language Char) : Prop :=
  ∀ w ∈ l, ∀ c ∈ w, isIn c = true

/-- Every text has a character of a class. -/
def Has (isIn : Char → Bool) (l : Language Char) : Prop :=
  ∀ w ∈ l, ∃ c ∈ w, isIn c = true

/-- Every text starts with a character of a class. -/
def StartsIn (isIn : Char → Bool) (l : Language Char) : Prop :=
  ∀ w ∈ l, ∃ c, w.head? = some c ∧ isIn c = true

/-- Every text ends with a character of a class. -/
def EndsIn (isIn : Char → Bool) (l : Language Char) : Prop :=
  ∀ w ∈ l, ∃ c, w.getLast? = some c ∧ isIn c = true

section Closure

variable {isIn isOut : Char → Bool} {l m : Language Char}

theorem over_single (h : ∀ c, isOut c = true → isIn c = true) : Over isIn (single isOut) := by
  rintro _ ⟨c, hc, rfl⟩ d hd
  rw [List.mem_singleton.1 hd]
  exact h c hc

theorem over_mark {c : Char} (h : isIn c = true) : Over isIn (mark c) :=
  over_single fun d hd => by rwa [beq_iff_eq.1 hd]

theorem Over.mul (hl : Over isIn l) (hm : Over isIn m) : Over isIn (l * m) := by
  rintro _ ⟨a, ha, b, hb, rfl⟩ c hc
  rcases List.mem_append.1 hc with h | h
  · exact hl a ha c h
  · exact hm b hb c h

theorem Over.add (hl : Over isIn l) (hm : Over isIn m) : Over isIn (l + m) := by
  rintro w (h | h)
  · exact hl w h
  · exact hm w h

theorem Over.pow (hl : Over isIn l) (n : ℕ) : Over isIn (l ^ n) := by
  intro w hw c hc
  obtain ⟨ws, rfl, -, hall⟩ := Language.mem_pow.1 hw
  obtain ⟨v, hv, hcv⟩ := List.mem_flatten.1 hc
  exact hl v (hall v hv) c hcv

theorem over_some1 (h : ∀ c, isOut c = true → isIn c = true) : Over isIn (some1 isOut) :=
  fun _ hw c hc => h c ((mem_some1.1 hw).2 c hc)

theorem has_single (h : ∀ c, isOut c = true → isIn c = true) : Has isIn (single isOut) := by
  rintro _ ⟨c, hc, rfl⟩
  exact ⟨c, List.mem_singleton_self c, h c hc⟩

theorem has_mark {c : Char} (h : isIn c = true) : Has isIn (mark c) :=
  has_single fun d hd => by rwa [beq_iff_eq.1 hd]

theorem Has.mul_right (hl : Has isIn l) (m : Language Char) : Has isIn (l * m) := by
  rintro _ ⟨a, ha, b, -, rfl⟩
  obtain ⟨c, hc, hin⟩ := hl a ha
  exact ⟨c, List.mem_append_left b hc, hin⟩

theorem Has.mul_left (hm : Has isIn m) (l : Language Char) : Has isIn (l * m) := by
  rintro _ ⟨a, -, b, hb, rfl⟩
  obtain ⟨c, hc, hin⟩ := hm b hb
  exact ⟨c, List.mem_append_right a hc, hin⟩

theorem Has.pow (hl : Has isIn l) (n : ℕ) : Has isIn (l ^ (n + 1)) := by
  rw [pow_succ']
  exact hl.mul_right _

theorem StartsIn.has (hl : StartsIn isIn l) : Has isIn l := by
  intro w hw
  obtain ⟨c, hc, hin⟩ := hl w hw
  exact ⟨c, List.mem_of_head? hc, hin⟩

theorem startsIn_single (h : ∀ c, isOut c = true → isIn c = true) :
    StartsIn isIn (single isOut) := by
  rintro _ ⟨c, hc, rfl⟩
  exact ⟨c, rfl, h c hc⟩

theorem StartsIn.mul (hl : StartsIn isIn l) (m : Language Char) : StartsIn isIn (l * m) := by
  rintro _ ⟨a, ha, b, -, rfl⟩
  obtain ⟨c, hc, hin⟩ := hl a ha
  exact ⟨c, by simp [List.head?_append, hc], hin⟩

theorem StartsIn.pow (hl : StartsIn isIn l) (n : ℕ) : StartsIn isIn (l ^ (n + 1)) := by
  rw [pow_succ']
  exact hl.mul _

theorem StartsIn.add (hl : StartsIn isIn l) (hm : StartsIn isIn m) : StartsIn isIn (l + m) := by
  rintro w (h | h)
  · exact hl w h
  · exact hm w h

theorem endsIn_single (h : ∀ c, isOut c = true → isIn c = true) : EndsIn isIn (single isOut) := by
  rintro _ ⟨c, hc, rfl⟩
  exact ⟨c, rfl, h c hc⟩

theorem EndsIn.mul (hm : EndsIn isIn m) (l : Language Char) : EndsIn isIn (l * m) := by
  rintro _ ⟨a, -, b, hb, rfl⟩
  obtain ⟨c, hc, hin⟩ := hm b hb
  exact ⟨c, by simp [List.getLast?_append, hc], hin⟩

theorem EndsIn.pow (hl : EndsIn isIn l) (n : ℕ) : EndsIn isIn (l ^ (n + 1)) := by
  rw [pow_succ]
  exact hl.mul _

theorem EndsIn.add (hl : EndsIn isIn l) (hm : EndsIn isIn m) : EndsIn isIn (l + m) := by
  rintro w (h | h)
  · exact hl w h
  · exact hm w h

end Closure

/-! ## What the expressions have in common -/

/-- The texts of an expression lie inside tokens and outside markers, they are no mere names and no
mere punctuation, and whole words have characters of words at both ends. -/
structure Expression.Plain (e : Expression) : Prop where
  visible : Over isPlain e.texts
  hasOther : Has (fun c => !isLetter c) e.texts
  hasAlnum : Has isAlnum e.texts
  starts : e.isWhole = true → StartsIn Unicode.isWord e.texts
  ends : e.isWhole = true → EndsIn Unicode.isWord e.texts

theorem Expression.Plain.ne_nil {e : Expression} (he : e.Plain) {w : List Char}
    (hw : w ∈ e.texts) : w ≠ [] := by
  obtain ⟨c, hc, -⟩ := he.hasAlnum w hw
  exact List.ne_nil_of_mem hc

theorem uuid_plain : uuid.Plain where
  visible := by
    have hhex : Over isPlain (single isHex) := over_single fun _ => isPlain_of_isHex
    have hmark : Over isPlain (mark '-') := over_mark (by decide)
    exact (((((((((hhex.pow 8).mul hmark).mul (hhex.pow 4)).mul hmark).mul (hhex.pow 4)).mul
      hmark).mul (hhex.pow 4)).mul hmark).mul (hhex.pow 12))
  hasOther := by
    have hmark : Has (fun c => !isLetter c) (mark '-') := has_mark (by decide)
    exact (hmark.mul_left _).mul_right _
  hasAlnum := ((has_single fun _ => isAlnum_of_isHex).pow 11).mul_left _
  starts := fun h => nomatch h
  ends := fun h => nomatch h

theorem email_plain : email.Plain where
  visible := by
    have hletter : Over isPlain (single isLetter ^ 2 * (single isLetter)∗) :=
      ((over_single fun _ => isPlain_of_isLetter).pow 2).mul
        fun _ hw c hc => isPlain_of_isLetter (mem_single_kstar.1 hw c hc)
    exact ((((over_some1 fun _ => isPlain_of_isLocal).mul (over_mark (by decide))).mul
      (over_some1 fun _ => isPlain_of_isDomain)).mul (over_mark (by decide))).mul hletter
  hasOther := by
    have hmark : Has (fun c => !isLetter c) (mark '.') := has_mark (by decide)
    exact (hmark.mul_left _).mul_right _
  hasAlnum := (((has_single fun _ => isAlnum_of_isLetter).pow 1).mul_right _).mul_left _
  starts := fun h => nomatch h
  ends := fun h => nomatch h

theorem octet_over : Over isDigit octet := by
  have hdigit : Over isDigit (single isDigit) := over_single fun _ => id
  exact (hdigit.add (hdigit.pow 2)).add (hdigit.pow 3)

theorem octet_startsIn : StartsIn isDigit octet := by
  have hdigit : StartsIn isDigit (single isDigit) := startsIn_single fun _ => id
  exact (hdigit.add (hdigit.pow 1)).add (hdigit.pow 2)

theorem octet_endsIn : EndsIn isDigit octet := by
  have hdigit : EndsIn isDigit (single isDigit) := endsIn_single fun _ => id
  exact (hdigit.add (hdigit.pow 1)).add (hdigit.pow 2)

theorem ipv4_startsIn : StartsIn isDigit ipv4.texts :=
  ((octet_startsIn.mul _).pow 2).mul _

theorem ipv4_endsIn : EndsIn isDigit ipv4.texts :=
  octet_endsIn.mul _

theorem ipv4_plain : ipv4.Plain where
  visible := by
    have hoctet : Over isPlain octet := fun w hw c hc => isPlain_of_isDigit (octet_over w hw c hc)
    exact ((hoctet.mul (over_mark (by decide))).pow 3).mul hoctet
  hasOther := by
    intro w hw
    obtain ⟨c, hc, hd⟩ := ipv4_startsIn.has w hw
    exact ⟨c, hc, by simp [not_isLetter_of_isDigit hd]⟩
  hasAlnum := by
    intro w hw
    obtain ⟨c, hc, hd⟩ := ipv4_startsIn.has w hw
    exact ⟨c, hc, isAlnum_of_isDigit hd⟩
  starts := by
    intro _ w hw
    obtain ⟨c, hc, hd⟩ := ipv4_startsIn w hw
    exact ⟨c, hc, isWord_of_isAlnum (isAlnum_of_isDigit hd)⟩
  ends := by
    intro _ w hw
    obtain ⟨c, hc, hd⟩ := ipv4_endsIn w hw
    exact ⟨c, hc, isWord_of_isAlnum (isAlnum_of_isDigit hd)⟩

theorem mac_plain : mac.Plain where
  visible := by
    have hpair : Over isPlain (single isHex ^ 2) := (over_single fun _ => isPlain_of_isHex).pow 2
    have hmark : Over isPlain (mark ':' + mark '-') :=
      (over_mark (by decide)).add (over_mark (by decide))
    exact ((hpair.mul hmark).pow 5).mul hpair
  hasOther := by
    have hmark : Has (fun c => !isLetter c) (mark ':' + mark '-') := by
      rintro w (h | h)
      · exact has_mark (by decide) w h
      · exact has_mark (by decide) w h
    exact ((hmark.mul_left _).pow 4).mul_right _
  hasAlnum := ((has_single fun _ => isAlnum_of_isHex).pow 1).mul_left _
  starts := by
    intro _
    have hhex : StartsIn Unicode.isWord (single isHex) :=
      startsIn_single fun _ h => isWord_of_isAlnum (isAlnum_of_isHex h)
    exact (((hhex.pow 1).mul _).pow 4).mul _
  ends := by
    intro _
    have hhex : EndsIn Unicode.isWord (single isHex) :=
      endsIn_single fun _ h => isWord_of_isAlnum (isAlnum_of_isHex h)
    exact (hhex.pow 1).mul _

end LogWatch.Report.Pattern
