import LogWatch.Proofs.Rule.Edits
import Mathlib.Data.String.Basic

/-!
# Suggested names

For a name that is not known, the nearest known one is suggested, unless it is too far away.  Distances are
counted in characters, and how far is too far in bytes, so that names outside of ASCII are suggested at
more than half their length.

* `AreApart`, `IsNearest` — how far texts are apart, and the first of the nearest names;
* `nearest?_eq_some_iff`, `existsUnique_isNearest` — the nearest name is found;
* `length_le_utf8ByteSize`, `utf8ByteSize_eq_length` — bytes against characters;
* `suggestion_measured_in_bytes` — what is suggested, and when that is the nearest name at half the length.
-/

namespace LogWatch.Rule

/-! ## The nearest name -/

/-- So many edits, and no fewer, turn one text into another one when case does not count. -/
def AreApart (text name : String) (n : Nat) : Prop :=
  IsLeast {k | Edits k (Text.Unicode.lowered text.toList) (Text.Unicode.lowered name.toList)} n

/-- The first of some names that are nearest to a text, and its distance. -/
def IsNearest (text : String) (names : List String) (name : String) (distance : Nat) : Prop :=
  ∃ before after, names = before ++ name :: after ∧ AreApart text name distance ∧
    (∀ other ∈ before, ∀ n, AreApart text other n → distance < n) ∧
    ∀ other ∈ after, ∀ n, AreApart text other n → distance ≤ n

/-- How far texts are apart when case does not count. -/
def distanceTo (text name : String) : Nat :=
  editDistance (Text.Unicode.lowered text.toList) (Text.Unicode.lowered name.toList)

variable {text name : String} {names : List String} {d : Nat}

theorem AreApart.unique {n : Nat} (h : AreApart text name d) (h' : AreApart text name n) : d = n :=
  IsLeast.unique h h'

theorem areApart_iff : AreApart text name d ↔ distanceTo text name = d := by
  have hleast : AreApart text name (distanceTo text name) := isLeast_editDistance ..
  constructor
  · intro h
    exact hleast.unique h
  · rintro rfl
    exact hleast

theorem isNearest_iff :
    IsNearest text names name d ↔ ∃ before after, names = before ++ name :: after ∧
      distanceTo text name = d ∧ (∀ other ∈ before, d < distanceTo text other) ∧
        ∀ other ∈ after, d ≤ distanceTo text other := by
  simp only [IsNearest, areApart_iff, forall_eq']

theorem not_isNearest_nil : ¬ IsNearest text [] name d := by
  rintro ⟨before, after, h, -⟩
  simp at h

/-- The first name is the nearest one if the others are as far away, else the nearest of the others is. -/
theorem isNearest_cons_iff {first : String} :
    IsNearest text (first :: names) name d ↔
      (name = first ∧ distanceTo text first = d ∧ ∀ other ∈ names, d ≤ distanceTo text other) ∨
        d < distanceTo text first ∧ IsNearest text names name d := by
  rw [isNearest_iff, isNearest_iff]
  constructor
  · rintro ⟨before, after, hnames, hname, hbefore, hafter⟩
    cases before with
    | nil =>
      obtain ⟨rfl, rfl⟩ := List.cons.inj hnames
      exact .inl ⟨rfl, hname, hafter⟩
    | cons other before =>
      obtain ⟨rfl, rfl⟩ := List.cons.inj hnames
      rw [List.forall_mem_cons] at hbefore
      exact .inr ⟨hbefore.1, before, after, rfl, hname, hbefore.2, hafter⟩
  · rintro (⟨rfl, hname, hothers⟩ | ⟨hfirst, before, after, rfl, hname, hbefore, hafter⟩)
    · exact ⟨[], names, rfl, hname, by simp, hothers⟩
    · exact ⟨first :: before, after, rfl, hname, List.forall_mem_cons.2 ⟨hfirst, hbefore⟩, hafter⟩

/-- The nearest name is one of the names, and none is nearer. -/
theorem IsNearest.least (h : IsNearest text names name d) :
    (∃ other ∈ names, distanceTo text other = d) ∧ ∀ other ∈ names, d ≤ distanceTo text other := by
  obtain ⟨before, after, rfl, hname, hbefore, hafter⟩ := isNearest_iff.1 h
  refine ⟨⟨name, by simp, hname⟩, fun other hother => ?_⟩
  rcases List.mem_append.1 hother with hmem | hmem
  · exact (hbefore other hmem).le
  · rcases List.mem_cons.1 hmem with rfl | hmem
    · exact hname.ge
    · exact hafter other hmem

theorem IsNearest.mem (h : IsNearest text names name d) : name ∈ names := by
  obtain ⟨before, after, rfl, -⟩ := h
  simp

theorem IsNearest.areApart (h : IsNearest text names name d) : AreApart text name d := by
  obtain ⟨before, after, -, hname, -⟩ := h
  exact hname

theorem nearest?_eq_none_iff : nearest? text names = none ↔ names = [] := by
  cases names with
  | nil => simp [nearest?]
  | cons first names =>
    refine iff_of_false ?_ (List.cons_ne_nil first names)
    rw [nearest?]
    split
    · split <;> nofun
    · nofun

/-- What is found is the first of the nearest names. -/
theorem nearest?_eq_some_iff :
    nearest? text names = some (name, d) ↔ IsNearest text names name d := by
  induction names generalizing name d with
  | nil => exact iff_of_false nofun not_isNearest_nil
  | cons first names ih =>
    rw [isNearest_cons_iff, nearest?, ← distanceTo]
    cases hrest : nearest? text names with
    | none =>
      have hnil := nearest?_eq_none_iff.1 hrest
      subst hnil
      simp [not_isNearest_nil, eq_comm]
    | some p =>
      obtain ⟨other, less⟩ := p
      obtain ⟨⟨least, hleast, hless⟩, hothers⟩ := (ih.1 hrest).least
      dsimp only
      split
      · rename_i hnearer
        rw [← ih, hrest]
        constructor
        · rintro ⟨⟩
          exact .inr ⟨hnearer, rfl⟩
        · rintro (⟨-, rfl, hall⟩ | ⟨-, hfound⟩)
          · have hle := hall least hleast
            omega
          · exact hfound
      · -- Between the first name and a nearest one of the others, the first name is found.
        rename_i hfirst
        rw [← ih, hrest]
        constructor
        · rintro ⟨⟩
          refine .inl ⟨rfl, rfl, fun far hfar => ?_⟩
          have hle := hothers far hfar
          omega
        · rintro (⟨rfl, rfl, -⟩ | ⟨hlt, ⟨⟩⟩)
          · rfl
          · omega

/-- Of some names, one is the first of the nearest. -/
theorem existsUnique_isNearest (hnames : names ≠ []) :
    ∃! p : String × Nat, IsNearest text names p.1 p.2 := by
  cases hfound : nearest? text names with
  | none => exact absurd (nearest?_eq_none_iff.1 hfound) hnames
  | some p =>
    refine ⟨p, nearest?_eq_some_iff.1 hfound, fun q hq => ?_⟩
    exact Option.some.inj ((nearest?_eq_some_iff.2 hq).symm.trans hfound)

/-! ## Characters and bytes -/

theorem length_le_utf8Len (cs : List Char) : cs.length ≤ String.utf8Len cs := by
  induction cs with
  | nil => simp
  | cons c cs ih =>
    have hpos := c.utf8Size_pos
    rw [List.length_cons, String.utf8Len_cons]
    omega

/-- A text has as many bytes as characters, or more. -/
theorem length_le_utf8ByteSize (s : String) : s.length ≤ s.utf8ByteSize := by
  rw [← String.length_toList, ← String.utf8Len_toList]
  exact length_le_utf8Len s.toList

theorem utf8Len_eq_length {cs : List Char} (h : ∀ c ∈ cs, c.toNat < 128) :
    String.utf8Len cs = cs.length := by
  induction cs with
  | nil => simp
  | cons c cs ih =>
    rw [List.forall_mem_cons] at h
    have hone : c.utf8Size = 1 :=
      Char.utf8Size_eq_one_iff.2 (UInt32.le_iff_toNat_le.2 (Nat.le_of_lt_succ h.1))
    rw [String.utf8Len_cons, ih h.2, hone, List.length_cons]

/-- A text in ASCII has as many bytes as characters. -/
theorem utf8ByteSize_eq_length {s : String} (h : ∀ c ∈ s.toList, c.toNat < 128) :
    s.utf8ByteSize = s.length := by
  rw [← String.utf8Len_toList, utf8Len_eq_length h, String.length_toList]

/-! ## Suggestions -/

/-- The nearest name, if it is not farther than half the characters of the longer text. -/
def IsMeant (text : String) (names : List String) (name : String) : Prop :=
  ∃ distance, IsNearest text names name distance ∧ 2 * distance ≤ max text.length name.length

theorem suggestion?_eq_some_iff :
    suggestion? text names = some name ↔
      ∃ d, IsNearest text names name d ∧ 2 * d ≤ max text.utf8ByteSize name.utf8ByteSize := by
  simp only [← nearest?_eq_some_iff, suggestion?]
  cases nearest? text names with
  | none => simp
  | some p =>
    obtain ⟨other, distance⟩ := p
    have hhalf : distance ≤ max text.utf8ByteSize other.utf8ByteSize / 2 ↔
        2 * distance ≤ max text.utf8ByteSize other.utf8ByteSize := by omega
    simp only [hhalf]
    split
    · rename_i hnear
      constructor
      · rintro ⟨⟩
        exact ⟨distance, rfl, hnear⟩
      · rintro ⟨d, ⟨⟩, -⟩
        rfl
    · rename_i hfar
      refine iff_of_false nofun ?_
      rintro ⟨d, ⟨⟩, hnear⟩
      exact hfar hnear

/-- A name that is meant is suggested, since there are as many bytes as characters or more. -/
theorem IsMeant.suggestion?_eq (h : IsMeant text names name) : suggestion? text names = some name := by
  obtain ⟨d, hnearest, hhalf⟩ := h
  have htext := length_le_utf8ByteSize text
  have hname := length_le_utf8ByteSize name
  exact suggestion?_eq_some_iff.2 ⟨d, hnearest, by omega⟩

/-- What is suggested is meant, unless the nearest name is too far away in characters and near enough in
bytes. -/
theorem suggested_iff_isMeant :
    (∀ name, suggestion? text names = some name ↔ IsMeant text names name) ↔
      ¬ ∃ name d, IsNearest text names name d ∧ max text.length name.length < 2 * d ∧
        2 * d ≤ max text.utf8ByteSize name.utf8ByteSize := by
  constructor
  · rintro hmeant ⟨name, d, hnearest, hfar, hnear⟩
    obtain ⟨d', hnearest', hhalf⟩ := (hmeant name).1 (suggestion?_eq_some_iff.2 ⟨d, hnearest, hnear⟩)
    obtain rfl := hnearest.areApart.unique hnearest'.areApart
    omega
  · intro hnone name
    refine ⟨fun h => ?_, IsMeant.suggestion?_eq⟩
    obtain ⟨d, hnearest, hnear⟩ := suggestion?_eq_some_iff.1 h
    exact ⟨d, hnearest, Nat.le_of_not_lt fun hfar => hnone ⟨name, d, hnearest, hfar, hnear⟩⟩

/-- Of some names, the first of the nearest is suggested, in characters inserted, deleted or replaced when
case does not count, as long as twice its distance is at most the number of bytes of the longer text.  A
name at no more than half the characters is suggested; another one is, too, just when its distance is
between half the characters and half the bytes.  In ASCII there is nothing between the two. -/
theorem suggestion_measured_in_bytes (text : String) (names : List String) :
    (names ≠ [] → ∃! p : String × Nat, IsNearest text names p.1 p.2) ∧
    (∀ name, suggestion? text names = some name ↔
      ∃ d, IsNearest text names name d ∧ 2 * d ≤ max text.utf8ByteSize name.utf8ByteSize) ∧
    (∀ name, IsMeant text names name → suggestion? text names = some name) ∧
    ((∀ name, suggestion? text names = some name ↔ IsMeant text names name) ↔
      ¬ ∃ name d, IsNearest text names name d ∧ max text.length name.length < 2 * d ∧
        2 * d ≤ max text.utf8ByteSize name.utf8ByteSize) ∧
    ((∀ c ∈ text.toList, c.toNat < 128) → (∀ name ∈ names, ∀ c ∈ name.toList, c.toNat < 128) →
      ∀ name, suggestion? text names = some name ↔ IsMeant text names name) := by
  refine ⟨existsUnique_isNearest, fun _ => suggestion?_eq_some_iff, fun _ => IsMeant.suggestion?_eq,
    suggested_iff_isMeant, fun htext hnames => ?_⟩
  rw [suggested_iff_isMeant]
  rintro ⟨name, d, hnearest, hfar, hnear⟩
  have hname := utf8ByteSize_eq_length (hnames name hnearest.mem)
  rw [hname, utf8ByteSize_eq_length htext] at hnear
  omega

/-- All four letters of `вход` are replaced in `дата`, which is suggested none the less, as four is half the
bytes.  In ASCII one letter is missing of five. -/
theorem suggestion_measured_in_bytes_otherLetters :
    suggestion? "вход" ["дата"] = some "дата" ∧ ¬ IsMeant "вход" ["дата"] "дата" ∧
      (∃! p : String × Nat, IsNearest "вход" ["дата"] p.1 p.2) ∧
      (∀ c ∈ "logn".toList, c.toNat < 128) ∧
      (∀ name ∈ ["login"], ∀ c ∈ name.toList, c.toNat < 128) ∧
      IsMeant "logn" ["login"] "login" := by
  have hasciiText : ∀ c ∈ "logn".toList, c.toNat < 128 := by simp
  have hasciiNames : ∀ name ∈ ["login"], ∀ c ∈ name.toList, c.toNat < 128 := by simp
  have hmisspelt : suggestion? "logn" ["login"] = some "login" := by decide +kernel
  have hfour : distanceTo "вход" "дата" = 4 := by decide +kernel
  obtain ⟨hunique, hsuggested, -⟩ := suggestion_measured_in_bytes "вход" ["дата"]
  obtain ⟨-, -, -, -, hascii⟩ := suggestion_measured_in_bytes "logn" ["login"]
  have hnearest : IsNearest "вход" ["дата"] "дата" 4 :=
    ⟨[], [], rfl, areApart_iff.2 hfour, by simp, by simp⟩
  refine ⟨(hsuggested "дата").2 ⟨4, hnearest, by decide⟩, ?_, hunique (by simp), hasciiText,
    hasciiNames, (hascii hasciiText hasciiNames "login").1 hmisspelt⟩
  rintro ⟨d, hd, hhalf⟩
  obtain rfl := hnearest.areApart.unique hd.areApart
  exact absurd hhalf (by decide)

end LogWatch.Rule
