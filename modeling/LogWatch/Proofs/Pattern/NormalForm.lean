import LogWatch.Proofs.Pattern.Numbers

/-!
# Patterns are normal forms

The pattern of a text has nothing left that could be replaced, and a text of which this is true is its own
pattern.  Each pass removes what it looks for, and none brings back what an earlier one has removed.

* `IsNormal` — nothing is left to be replaced;
* `isNormal_normalizeChars` — patterns are normal;
* `normalizeChars_eq_self` — normal texts are their own patterns;
* `normalize_normalize_and_isNormal` — hence patterns of patterns are patterns.
-/

namespace LogWatch.Report.Pattern

open Text

/-- None of the four expressions matches a part of the text, and none of its tokens holds a number. -/
structure IsNormal (cs : List Char) : Prop where
  uuid : ¬ uuid.OccursIn cs
  email : ¬ email.OccursIn cs
  ipv4 : ¬ ipv4.OccursIn cs
  mac : ¬ mac.OccursIn cs
  number : ∀ t, IsTokenOf t cs → ¬ HoldsNumber t

/-! ## One pass -/

section Pass

variable {r : Recogniser} {e f : Expression} {token : String} {cs : List Char}

/-- A pass removes what it looks for. -/
theorem Recognises.not_occursIn_replaceAll (hr : Recognises r e) (he : e.Plain)
    (htoken : IsMarker token.toList) (cs : List Char) : ¬ e.OccursIn (replaceAll r token cs) :=
  (hr.rewrites_replaceAll he token cs).not_occursIn he htoken

/-- A pass brings back nothing that has been removed. -/
theorem Recognises.not_occursIn_of_not (hr : Recognises r e) (he : e.Plain) (hf : f.Plain)
    (htoken : IsMarker token.toList) (hwhole : f.isWhole = true → e.isWhole = true)
    (h : ¬ f.OccursIn cs) : ¬ f.OccursIn (replaceAll r token cs) := fun hocc =>
  h ((hr.rewrites_replaceAll he token cs).occursIn he hf htoken hwhole hocc)

/-- A pass that finds nothing changes nothing. -/
theorem Recognises.replaceAll_eq_self (hr : Recognises r e) (he : e.Plain) (h : ¬ e.OccursIn cs) :
    replaceAll r token cs = cs :=
  (hr.rewrites_replaceAll he token cs).eq_self (Expression.occursIn_iff.not.1 h)

end Pass

theorem not_occursIn_replaceNumbers {f : Expression} (hf : f.Plain) {cs : List Char}
    (h : ¬ f.OccursIn cs) : ¬ f.OccursIn (replaceNumbers cs) := by
  rw [Expression.occursIn_iff] at h ⊢
  exact fun hocc => h (occursAfter_of_replaceNumbers hf hocc)

/-! ## The markers -/

theorem isMarker_uuid : IsMarker "#UUID#".toList :=
  ⟨['U', 'U', 'I', 'D'], rfl, List.all_eq_true.1 (by decide)⟩

theorem isMarker_email : IsMarker "#EMAIL#".toList :=
  ⟨['E', 'M', 'A', 'I', 'L'], rfl, List.all_eq_true.1 (by decide)⟩

theorem isMarker_ipv4 : IsMarker "#IP#".toList :=
  ⟨['I', 'P'], rfl, List.all_eq_true.1 (by decide)⟩

theorem isMarker_mac : IsMarker "#MAC#".toList :=
  ⟨['M', 'A', 'C'], rfl, List.all_eq_true.1 (by decide)⟩

/-! ## All passes -/

/-- Patterns are normal. -/
theorem isNormal_normalizeChars (cs : List Char) : IsNormal (normalizeChars cs) := by
  have hu := matchUuid?_recognises
  have he := matchEmail?_recognises
  have hi := matchIpv4?_recognises
  have hm := matchMac?_recognises
  rw [normalizeChars]
  constructor
  · have h₁ := hu.not_occursIn_replaceAll uuid_plain isMarker_uuid cs
    have h₂ := he.not_occursIn_of_not email_plain uuid_plain isMarker_email (fun h => nomatch h) h₁
    have h₃ := hi.not_occursIn_of_not ipv4_plain uuid_plain isMarker_ipv4 (fun _ => rfl) h₂
    have h₄ := hm.not_occursIn_of_not mac_plain uuid_plain isMarker_mac (fun _ => rfl) h₃
    exact not_occursIn_replaceNumbers uuid_plain h₄
  · have h₂ := he.not_occursIn_replaceAll email_plain isMarker_email
      (replaceAll matchUuid? "#UUID#" cs)
    have h₃ := hi.not_occursIn_of_not ipv4_plain email_plain isMarker_ipv4 (fun _ => rfl) h₂
    have h₄ := hm.not_occursIn_of_not mac_plain email_plain isMarker_mac (fun _ => rfl) h₃
    exact not_occursIn_replaceNumbers email_plain h₄
  · have h₃ := hi.not_occursIn_replaceAll ipv4_plain isMarker_ipv4
      (replaceAll matchEmail? "#EMAIL#" (replaceAll matchUuid? "#UUID#" cs))
    have h₄ := hm.not_occursIn_of_not mac_plain ipv4_plain isMarker_mac (fun _ => rfl) h₃
    exact not_occursIn_replaceNumbers ipv4_plain h₄
  · exact not_occursIn_replaceNumbers mac_plain
      (hm.not_occursIn_replaceAll mac_plain isMarker_mac _)
  · exact fun t ht => not_holdsNumber_of_isTokenOf ht

/-- Normal texts are their own patterns. -/
theorem normalizeChars_eq_self {cs : List Char} (h : IsNormal cs) : normalizeChars cs = cs := by
  rw [normalizeChars, matchUuid?_recognises.replaceAll_eq_self uuid_plain h.uuid,
    matchEmail?_recognises.replaceAll_eq_self email_plain h.email,
    matchIpv4?_recognises.replaceAll_eq_self ipv4_plain h.ipv4,
    matchMac?_recognises.replaceAll_eq_self mac_plain h.mac, replaceNumbers_eq_self h.number]

theorem toList_normalize (s : String) : (normalize s).toList = normalizeChars s.toList := by
  rw [normalize, String.toList_ofList]

/-- A text is its own pattern just when it is normal. -/
theorem normalize_eq_self_iff {s : String} : normalize s = s ↔ IsNormal s.toList := by
  constructor
  · intro h
    rw [← h, toList_normalize]
    exact isNormal_normalizeChars s.toList
  · intro h
    rw [normalize, normalizeChars_eq_self h, String.ofList_toList]

/-- **Patterns are normal forms.**  The pattern of a pattern is that pattern, no identifier and no mail,
network or hardware address is left in it, and no number stands alone. -/
theorem normalize_normalize_and_isNormal (s : String) :
    normalize (normalize s) = normalize s ∧ IsNormal (normalize s).toList := by
  have h : IsNormal (normalize s).toList := by
    rw [toList_normalize]
    exact isNormal_normalizeChars s.toList
  exact ⟨normalize_eq_self_iff.2 h, h⟩

end LogWatch.Report.Pattern
