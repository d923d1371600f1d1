import LogWatch.Proofs.Pattern.Recognition

/-!
# Replacing from left to right

A text in which all matches of an expression have been replaced consists of markers and of what lies
between the matches.  `Rewrites` says so without a recogniser.  What an expression matches between the
markers it had matched before, and the replaced expression itself matches nothing there.

* `Recognises.rewrites_replaceAll` — `replaceAll` rewrites;
* `Rewrites.occursIn` — no replacement makes room for a match that was not there;
* `Rewrites.not_occursIn` — what has been replaced does not occur any more;
* `Rewrites.eq_self` — where nothing occurs, nothing changes.
-/

namespace LogWatch.Report.Pattern

open Text

/-- A marker: a name between two signs. -/
def IsMarker (token : List Char) : Prop :=
  ∃ name, token = '#' :: (name ++ ['#']) ∧ ∀ c ∈ name, isLetter c = true

/-- Does a match of the expression start at a place? -/
def Expression.StartsAt (e : Expression) (before : Option Char) (cs : List Char) : Prop :=
  ∃ w rest, cs = w ++ rest ∧ e.Matches before w rest.head?

/-- The second text is the first one with a token for every match, found from left to right. -/
inductive Rewrites (e : Expression) (token : List Char) :
    Option Char → List Char → List Char → Prop
  /-- The text is at its end. -/
  | done {before : Option Char} : Rewrites e token before [] []
  /-- No match starts here, and the next character is kept. -/
  | keep {before : Option Char} {c : Char} {cs out : List Char} :
      ¬ e.StartsAt before (c :: cs) → Rewrites e token (some c) cs out →
      Rewrites e token before (c :: cs) (c :: out)
  /-- A match starts here, and rewriting goes on behind it. -/
  | replace {before : Option Char} {w rest out : List Char} :
      e.Matches before w rest.head? → Rewrites e token w.getLast? rest out →
      Rewrites e token before (w ++ rest) (token ++ out)

/-! ## Recognisers rewrite -/

/-- Replacing goes on behind the characters that are to be skipped. -/
theorem replaceFrom_skip (r : Recogniser) (token : List Char) (before : Option Char)
    (w rest : List Char) :
    replaceFrom r token before w.length (w ++ rest) =
      replaceFrom r token (lastOr before w) 0 rest := by
  induction w generalizing before with
  | nil => rfl
  | cons c w ih =>
    rw [lastOr_cons, ← ih (some c), List.length_cons, List.cons_append, replaceFrom]

theorem Recognises.rewrites_replaceFrom {r : Recogniser} {e : Expression} (hr : Recognises r e)
    (he : e.Plain) (token : List Char) (before : Option Char) (cs : List Char) :
    Rewrites e token before cs (replaceFrom r token before 0 cs) := by
  induction hn : cs.length using Nat.strong_induction_on generalizing before cs with
  | _ n ih =>
    subst hn
    cases cs with
    | nil =>
      rw [replaceFrom]
      exact .done
    | cons c cs =>
      rw [replaceFrom]
      cases hm : r before (c :: cs) with
      | none =>
        refine .keep ?_ (ih cs.length (by simp) (some c) cs rfl)
        rintro ⟨w, rest, hw, hmatch⟩
        obtain ⟨n, hn⟩ := hr.complete hmatch
        rw [hw, hn] at hm
        cases hm
      | some n =>
        obtain ⟨w, rest, hw, hlen, hmatch⟩ := hr.sound hm
        cases w with
        | nil => exact absurd rfl (he.ne_nil hmatch.1)
        | cons d w =>
          obtain ⟨rfl, hcs⟩ := List.cons.inj hw
          have hlast : lastOr (some c) w = (c :: w).getLast? := by
            rw [← lastOr_cons none, lastOr_of_ne_nil (List.cons_ne_nil c w)]
          have hlt : rest.length < (c :: cs).length := by
            rw [hw, List.length_append, List.length_cons]
            omega
          rw [hw, ← hlen, List.length_cons]
          simp only [hcs, List.append_eq, replaceFrom_skip r token (some c) w rest]
          exact .replace hmatch (hlast ▸ ih rest.length hlt (lastOr (some c) w) rest rfl)

/-- A recogniser rewrites the whole text. -/
theorem Recognises.rewrites_replaceAll {r : Recogniser} {e : Expression} (hr : Recognises r e)
    (he : e.Plain) (token : String) (cs : List Char) :
    Rewrites e token.toList none cs (replaceAll r token cs) :=
  hr.rewrites_replaceFrom he token.toList none cs

/-! ## What lies between the markers -/

section Between

variable {e f : Expression} {token : List Char} {before : Option Char} {cs out : List Char}

/-- What follows a place in the new text starts as in the old one, or with a marker for a match. -/
theorem Rewrites.head?_eq (htoken : IsMarker token) (h : Rewrites e token before cs out) :
    out.head? = cs.head? ∨ (out.head? = some '#' ∧ e.StartsAt before cs) := by
  obtain ⟨name, rfl, -⟩ := htoken
  cases h with
  | done => exact Or.inl rfl
  | keep _ _ => exact Or.inl rfl
  | replace hmatch _ => exact Or.inr ⟨rfl, _, _, rfl, hmatch⟩

/-- Where the new text goes on without a marker, it goes on as the old one, and no match starts
there. -/
theorem Rewrites.of_append (htoken : IsMarker token) {w b : List Char} (hw : '#' ∉ w)
    (h : Rewrites e token before cs (w ++ b)) :
    ∃ rest, cs = w ++ rest ∧ Rewrites e token (lastOr before w) rest b ∧
      (w ≠ [] → ¬ e.StartsAt before cs) := by
  obtain ⟨name, rfl, -⟩ := htoken
  induction w generalizing before cs with
  | nil => exact ⟨cs, rfl, h, fun hne => absurd rfl hne⟩
  | cons c w ih =>
    rw [List.mem_cons, not_or] at hw
    generalize hout : c :: w ++ b = out at h
    cases h with
    | done => cases hout
    | keep hnone hrest =>
      obtain ⟨rfl, rfl⟩ := List.cons.inj hout
      obtain ⟨rest, rfl, h, -⟩ := ih hw.2 hrest
      exact ⟨rest, rfl, by rwa [lastOr_cons], fun _ => hnone⟩
    | replace hmatch _ => exact absurd (List.cons.inj hout).1.symm hw.1

/-- A part of a joined text starts behind the first piece or inside it. -/
theorem append_eq_append_cases {x y a z : List Char} (h : x ++ y = a ++ z) :
    (∃ a', a = x ++ a' ∧ y = a' ++ z) ∨ ∃ z', z' ≠ [] ∧ x = a ++ z' ∧ z = z' ++ y := by
  rcases List.append_eq_append_iff.1 h with h | ⟨z', rfl, rfl⟩
  · exact Or.inl h
  · by_cases hz : z' = []
    · subst hz
      exact Or.inl ⟨[], by simp, rfl⟩
    · exact Or.inr ⟨z', hz, rfl, rfl⟩

/-- A text without a given character ends before that character does. -/
theorem prefix_of_append_eq {w b x y : List Char} {s : Char} (hs : s ∉ w)
    (h : w ++ b = x ++ s :: y) : ∃ z, x = w ++ z ∧ b = z ++ s :: y := by
  rcases append_eq_append_cases h with h | ⟨z, hz, rfl, hrest⟩
  · exact h
  · cases z with
    | nil => exact absurd rfl hz
    | cons c z =>
      obtain ⟨rfl, -⟩ := List.cons.inj hrest
      exact absurd (List.mem_append_right x (List.mem_cons_self ..)) hs

/-- A part without a given character lies on one side of it. -/
theorem append_around {x y a w b : List Char} {s : Char} (hs : s ∉ w) (hw : w ≠ [])
    (h : x ++ s :: y = a ++ w ++ b) :
    (∃ z, x = a ++ w ++ z ∧ b = z ++ s :: y) ∨ ∃ z, a = x ++ s :: z ∧ y = z ++ w ++ b := by
  rw [List.append_assoc] at h
  rcases append_eq_append_cases h with ⟨z, rfl, hrest⟩ | ⟨z, -, rfl, hrest⟩
  · cases z with
    | nil =>
      cases w with
      | nil => exact absurd rfl hw
      | cons c w =>
        obtain ⟨rfl, -⟩ := List.cons.inj hrest
        exact absurd (List.mem_cons_self ..) hs
    | cons c z =>
      obtain ⟨rfl, rfl⟩ := List.cons.inj hrest
      exact Or.inr ⟨z, rfl, (List.append_assoc z w b).symm⟩
  · obtain ⟨z', rfl, rfl⟩ := prefix_of_append_eq hs hrest
    exact Or.inl ⟨z', (List.append_assoc a w z').symm, rfl⟩

/-- No match starts inside a marker: it would meet one of the signs or consist of letters. -/
theorem IsMarker.not_inside (htoken : IsMarker token) (hf : f.Plain) {a z w b rest : List Char}
    (hz : z ≠ []) (hsplit : token = a ++ z) (hw : w ∈ f.texts) (h : w ++ b = z ++ rest) : False := by
  obtain ⟨name, rfl, hname⟩ := htoken
  have hsign : '#' ∉ w := fun hmem => absurd (hf.visible w hw '#' hmem) (by decide)
  -- What is left of the name, if the match does not start at the first sign.
  obtain ⟨y, hy, hyname⟩ : ∃ y, z = y ++ ['#'] ∧ ∀ c ∈ y, isLetter c = true := by
    cases a with
    | nil =>
      rw [List.nil_append] at hsplit
      rw [← hsplit] at h
      cases w with
      | nil => exact absurd rfl (hf.ne_nil hw)
      | cons c w =>
        obtain ⟨rfl, -⟩ := List.cons.inj h
        exact absurd (List.mem_cons_self ..) hsign
    | cons d a =>
      obtain ⟨-, hsplit⟩ := List.cons.inj hsplit
      rcases append_eq_append_cases hsplit with ⟨a', -, ha⟩ | ⟨y, -, rfl, rfl⟩
      · cases a' with
        | nil => exact ⟨[], ha.symm, by simp⟩
        | cons x a' =>
          obtain ⟨-, ha⟩ := List.cons.inj ha
          exact absurd (List.append_eq_nil_iff.1 ha.symm).2 hz
      · exact ⟨y, rfl, fun c hc => hname c (List.mem_append_right a hc)⟩
  rw [hy, List.append_assoc] at h
  obtain ⟨c, hc, hother⟩ := hf.hasOther w hw
  obtain ⟨z', rfl, -⟩ := prefix_of_append_eq hsign h
  simp [hyname c (List.mem_append_left z' hc)] at hother

/-- Rewriting does not touch what keeps it from starting or ending: next to a match of whole words there
is no character of a word. -/
theorem Expression.Plain.isFree_of_startsAt (he : e.Plain) (hwhole : e.isWhole = true)
    (h : e.StartsAt before cs) : isFree before = true := by
  obtain ⟨w, rest, -, hmatch⟩ := h
  exact ((he.matches_iff hwhole).1 hmatch).2.1

/-- What matches at the beginning of the new text and has been kept matches at the beginning of the old
one, with the same characters on either side of it.

`before` is in front of the old text and `around` in front of the new one.  They differ only behind a
match, where whole words cannot go on. -/
theorem Rewrites.matches_of_append (he : e.Plain) (hf : f.Plain) (htoken : IsMarker token)
    (hwhole : f.isWhole = true → e.isWhole = true) {around : Option Char}
    (haround : around = before ∨ (f.isWhole = true → isFree cs.head? = true)) {w b : List Char}
    (h : Rewrites e token before cs (w ++ b)) (hmatch : f.Matches around w b.head?) :
    ∃ rest, cs = w ++ rest ∧ f.Matches before w rest.head? ∧ ¬ e.StartsAt before cs := by
  have hne : w ≠ [] := hf.ne_nil hmatch.1
  have hsign : '#' ∉ w := fun hmem => absurd (hf.visible w hmatch.1 '#' hmem) (by decide)
  obtain ⟨rest, hcs, hafter, hstart⟩ := h.of_append htoken hsign
  refine ⟨rest, hcs, ⟨hmatch.1, fun hfw => ?_⟩, hstart hne⟩
  obtain ⟨hw, hleft, hright⟩ := (hf.matches_iff hfw).1 hmatch
  obtain ⟨x, hx, hxw⟩ := hf.starts hfw w hw
  obtain ⟨y, hy, hyw⟩ := hf.ends hfw w hw
  rw [hx, hy, boundary_right_iff hxw, boundary_left_iff hyw]
  constructor
  · rcases haround with rfl | hfree
    · exact hleft
    · have h := hfree hfw
      rw [hcs, List.head?_append_of_ne_nil w hne, hx, isFree, hxw] at h
      cases h
  · rcases hafter.head?_eq htoken with h | ⟨-, h⟩
    · rwa [← h]
    · have h := he.isFree_of_startsAt (hwhole hfw) h
      rw [lastOr_of_ne_nil hne, hy, isFree, hyw] at h
      cases h

/-- A match in the new text was one in the old text, and none of the replaced ones starts with it. -/
theorem Rewrites.occurs_around (he : e.Plain) (hf : f.Plain) (htoken : IsMarker token)
    (hwhole : f.isWhole = true → e.isWhole = true) (h : Rewrites e token before cs out)
    {around : Option Char}
    (haround : around = before ∨ (f.isWhole = true → isFree cs.head? = true))
    {a w b : List Char} (hout : out = a ++ w ++ b) (hmatch : f.Matches (lastOr around a) w b.head?) :
    ∃ a' rest, cs = a' ++ w ++ rest ∧ f.Matches (lastOr before a') w rest.head? ∧
      ¬ e.StartsAt (lastOr before a') (w ++ rest) := by
  induction h generalizing around a with
  | done =>
    obtain ⟨hout, -⟩ := List.append_eq_nil_iff.1 hout.symm
    exact absurd (List.append_eq_nil_iff.1 hout).2 (hf.ne_nil hmatch.1)
  | @keep before c cs out hnone hrest ih =>
    cases a with
    | cons d a =>
      obtain ⟨rfl, htail⟩ := List.cons.inj hout
      rw [lastOr_cons] at hmatch
      obtain ⟨a', rest, rfl, hmatch', hstart⟩ := ih (Or.inl rfl) htail hmatch
      exact ⟨c :: a', rest, rfl, by rwa [lastOr_cons], by rwa [lastOr_cons]⟩
    | nil =>
      -- The match begins here: it is kept as a whole, with the characters on either side.
      have hkept : Rewrites e token before (c :: cs) (w ++ b) := by
        rw [List.nil_append] at hout
        rw [← hout]
        exact .keep hnone hrest
      obtain ⟨rest, hcs, hmatch', hstart⟩ :=
        hkept.matches_of_append he hf htoken hwhole haround hmatch
      exact ⟨[], rest, hcs, hmatch', hcs ▸ hstart⟩
  | @replace before v rest out hv hrest ih =>
    rw [List.append_assoc] at hout
    rcases append_eq_append_cases hout with ⟨a', rfl, htail⟩ | ⟨z, hz, hsplit, hw⟩
    · -- The match lies behind the marker.
      have hsign' : lastOr around token = some '#' := by
        obtain ⟨name, rfl, -⟩ := htoken
        rw [lastOr_cons, lastOr_append]
        rfl
      rw [lastOr_append, hsign'] at hmatch
      have hfree : f.isWhole = true → isFree rest.head? = true := fun hfw =>
        ((he.matches_iff (hwhole hfw)).1 hv).2.2
      rw [← List.append_assoc] at htail
      obtain ⟨a₂, tail, rfl, hmatch', hstart⟩ := ih (Or.inr hfree) htail hmatch
      have hlast : lastOr before v = v.getLast? := lastOr_of_ne_nil (he.ne_nil hv.1) before
      exact ⟨v ++ a₂, tail, by simp, by rwa [lastOr_append, hlast], by rwa [lastOr_append, hlast]⟩
    · exact (htoken.not_inside hf hz hsplit hmatch.1 hw).elim

/-- No replacement makes room for a match that was not there. -/
theorem Rewrites.occursIn (h : Rewrites e token none cs out) (he : e.Plain) (hf : f.Plain)
    (htoken : IsMarker token) (hwhole : f.isWhole = true → e.isWhole = true)
    (hocc : f.OccursIn out) : f.OccursIn cs := by
  rw [Expression.occursIn_iff] at hocc ⊢
  obtain ⟨a, w, b, hout, hmatch⟩ := hocc
  obtain ⟨a', rest, hcs, hmatch', -⟩ := h.occurs_around he hf htoken hwhole (Or.inl rfl) hout hmatch
  exact ⟨a', w, rest, hcs, hmatch'⟩

/-- What has been replaced does not occur any more. -/
theorem Rewrites.not_occursIn (h : Rewrites e token none cs out) (he : e.Plain)
    (htoken : IsMarker token) : ¬ e.OccursIn out := by
  rw [Expression.occursIn_iff]
  rintro ⟨a, w, b, hout, hmatch⟩
  obtain ⟨a', rest, -, hmatch', hstart⟩ := h.occurs_around he he htoken id (Or.inl rfl) hout hmatch
  exact hstart ⟨w, rest, rfl, hmatch'⟩

/-- Where nothing occurs, nothing changes. -/
theorem Rewrites.eq_self (h : Rewrites e token before cs out) (hnone : ¬ e.OccursAfter before cs) :
    out = cs := by
  induction h with
  | done => rfl
  | @keep before c cs out _ _ ih =>
    rw [ih]
    rintro ⟨a, w, b, rfl, hmatch⟩
    exact hnone ⟨c :: a, w, b, rfl, by rwa [lastOr_cons]⟩
  | @replace before w rest out hmatch _ _ =>
    exact absurd ⟨[], w, rest, rfl, hmatch⟩ hnone

end Between

end LogWatch.Report.Pattern
