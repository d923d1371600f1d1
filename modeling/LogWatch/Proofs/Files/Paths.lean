import LogWatch.Files.Path
import LogWatch.Proofs.Text.Pieces
import LogWatch.Proofs.Text.Utf8
import Mathlib.Data.List.Lex

/-!
# Names, components and the order of paths

What the functions on paths say about names that a folder can list.

* `precedes_iff` — paths are compared as lists of components;
* `IsName`, `components_foldl_join` — the components of a path that has been put together from names;
* `IsText`, `isHidden_iff` — the hidden names are the texts among those that start with a dot;
* `isYaml_iff` — names with the extension of YAML files.
-/

namespace LogWatch.Files.Path

/-! ## Order -/

instance : LinearOrder UInt8 where
  le_refl _ := UInt8.le_refl _
  le_trans _ _ _ := UInt8.le_trans
  le_antisymm _ _ := UInt8.le_antisymm
  le_total := UInt8.le_total
  lt_iff_le_not_ge a b := by
    rw [UInt8.lt_iff_toNat_lt, UInt8.le_iff_toNat_le, UInt8.le_iff_toNat_le]
    omega
  toDecidableLE := inferInstance

/-- A path precedes another one just when it is not greater as a list of components. -/
theorem precedes_iff {as bs : List Name} : precedes as bs = true ↔ ¬ bs < as := by
  induction as generalizing bs with
  | nil => simp [precedes]
  | cons a as ih =>
    cases bs with
    | nil => simp [precedes]
    | cons b bs =>
      rw [precedes, List.cons_lt_cons_iff]
      by_cases heq : a = b
      · simp [heq, ih]
      · rw [if_neg heq, decide_eq_true_eq]
        have hne : b ≠ a := Ne.symm heq
        simp [hne, lt_iff_le_and_ne, heq]

/-! ## Names -/

/-- A name that a folder can list: it is not empty, it has no slash, and it is not one of the two names
that stand for a folder itself and for the one above. -/
structure IsName (name : Name) : Prop where
  nonempty : name ≠ []
  one : slash ∉ name
  notHere : name ≠ here
  notUp : name ≠ up

instance (name : Name) : Decidable (IsName name) :=
  decidable_of_iff (name ≠ [] ∧ slash ∉ name ∧ name ≠ here ∧ name ≠ up)
    ⟨fun ⟨h₁, h₂, h₃, h₄⟩ => ⟨h₁, h₂, h₃, h₄⟩, fun ⟨h₁, h₂, h₃, h₄⟩ => ⟨h₁, h₂, h₃, h₄⟩⟩

theorem components_append_slash (a b : Path) :
    components (a ++ slash :: b) = components a ++ components b := by
  unfold components
  rw [Text.splitOn_append_cons, List.filter_append]

theorem components_nil : components [] = [] := by
  decide

theorem IsName.components_eq {name : Name} (h : IsName name) : components name = [name] := by
  unfold components
  rw [Text.splitOn_of_not_mem h.one]
  exact List.filter_cons_of_pos (by simp [h.nonempty, h.notHere])

/-- A name within a folder is one component more. -/
theorem components_join (folder : Path) {name : Name} (h : IsName name) :
    components (join folder name) = components folder ++ [name] := by
  rw [join]
  split
  · rename_i hempty
    rw [List.isEmpty_iff.1 hempty, components_nil, h.components_eq, List.nil_append]
  · split
    · rename_i hslash
      obtain ⟨before, rfl⟩ := List.getLast?_eq_some_iff.1 hslash
      rw [List.append_assoc, List.singleton_append, components_append_slash, components_append_slash,
        components_nil, List.append_nil, h.components_eq]
    · rw [components_append_slash, h.components_eq]

/-- The way through some folders to a name is found again in the path. -/
theorem components_foldl_join (folder : Path) {file : List Name} (h : ∀ name ∈ file, IsName name) :
    components (file.foldl join folder) = components folder ++ file := by
  induction file generalizing folder with
  | nil => simp
  | cons name file ih =>
    obtain ⟨hname, hfile⟩ := List.forall_mem_cons.1 h
    rw [List.foldl_cons, ih _ hfile, components_join folder hname, List.append_assoc,
      List.singleton_append]

/-! ## Hidden names -/

/-- A name is the bytes of a text. -/
def IsText (name : Name) : Prop :=
  ∃ text, name = ofText text

/-- A name starts with a dot. -/
def IsDotted (name : Name) : Prop :=
  ∃ rest, name = dot :: rest

theorem text?_eq_some_iff {name : Name} {text : String} : text? name = some text ↔ name = ofText text := by
  rw [ofText, ← Text.Utf8.decode_eq_ok_iff, text?]
  cases Text.Utf8.decode name <;> simp

theorem isText_iff {name : Name} : IsText name ↔ (text? name).isSome = true := by
  rw [Option.isSome_iff_exists]
  exact exists_congr fun _ => text?_eq_some_iff.symm

instance (name : Name) : Decidable (IsText name) :=
  decidable_of_iff _ isText_iff.symm

instance (name : Name) : Decidable (IsDotted name) :=
  decidable_of_iff (name.head? = some dot) List.head?_eq_some_iff

/-- A text starts with a dot just when its bytes do. -/
theorem isDotted_ofText_iff {text : String} : IsDotted (ofText text) ↔ text.toList.head? = some '.' := by
  rw [ofText, Text.Utf8.encode]
  cases text.toList with
  | nil => simp [IsDotted]
  | cons c cs =>
    rw [List.flatMap_cons, List.head?_cons, Option.some.injEq]
    constructor
    · rintro ⟨rest, hrest⟩
      have hread := Text.Utf8.units_encodeChar 0 c (cs.flatMap String.utf8EncodeChar)
      rw [hrest, Text.Utf8.units_one 0 rest (by decide)] at hread
      exact (Except.ok.inj (List.cons.inj hread).1).symm
    · rintro rfl
      exact ⟨_, rfl⟩

/-- Hidden names are the texts among those that start with a dot. -/
theorem isHidden_iff {name : Name} : isHidden name = true ↔ IsText name ∧ IsDotted name := by
  rw [isHidden]
  split
  · rename_i text htext
    obtain rfl := text?_eq_some_iff.1 htext
    rw [beq_iff_eq, isDotted_ofText_iff]
    exact (and_iff_right ⟨text, rfl⟩).symm
  · rename_i htext
    simp [isText_iff, htext]

/-! ## Extensions -/

/-- A name ends in an extension: something else and a dot are in front of it. -/
def HasExtension (name : Name) (ext : String) : Prop :=
  ∃ stem, stem ≠ [] ∧ name = stem ++ dot :: ofText ext

/-- The last dot of a name cuts off an extension, unless nothing is in front of it. -/
theorem splitName_append {stem ext : Name} (hstem : stem ≠ []) (hext : dot ∉ ext) :
    splitName (stem ++ dot :: ext) = (stem, some ext) := by
  unfold splitName
  rw [Text.splitOn_append_cons, Text.splitOn_of_not_mem hext, List.reverse_append,
    List.reverse_singleton, List.singleton_append]
  dsimp only
  rw [List.reverse_reverse, Text.joinWith_splitOn, if_neg (by simpa using hstem)]

theorem exists_of_splitName {name ext : Name} (h : (splitName name).2 = some ext) :
    ∃ stem, stem ≠ [] ∧ name = stem ++ dot :: ext := by
  have hpieces := Text.joinWith_splitOn dot name
  unfold splitName at h
  split at h
  · rename_i last more heq
    dsimp only at h
    split at h
    · cases h
    · rename_i hstem
      cases h
      have hsplit : Text.splitOn dot name = more.reverse ++ [ext] := by
        rw [← List.reverse_reverse (Text.splitOn dot name), heq, List.reverse_cons]
      have hmore : more.reverse ≠ [] := by
        rintro hnil
        exact hstem (by rw [hnil]; rfl)
      refine ⟨Text.joinWith [dot] more.reverse, by simpa using hstem, ?_⟩
      rw [← hpieces, hsplit, Text.joinWith_concat hmore]
  · cases h

/-- An extension without a dot is found at the end of a name. -/
theorem extension_eq_some_iff {name : Name} {ext : String} (hext : dot ∉ ofText ext) :
    (splitName name).2.bind text? = some ext ↔ HasExtension name ext := by
  rw [Option.bind_eq_some_iff]
  constructor
  · rintro ⟨last, hlast, htext⟩
    obtain rfl := text?_eq_some_iff.1 htext
    exact exists_of_splitName hlast
  · rintro ⟨stem, hstem, rfl⟩
    rw [splitName_append hstem hext]
    exact ⟨_, rfl, text?_eq_some_iff.2 rfl⟩

/-- Names with one of the extensions of YAML files. -/
theorem isYaml_iff {name : Name} :
    isYaml name = true ↔ HasExtension name "yml" ∨ HasExtension name "yaml" := by
  rw [← extension_eq_some_iff (by decide), ← extension_eq_some_iff (by decide), isYaml]
  split
  · rename_i ext hext
    simp [hext]
  · rename_i hext
    simp [hext]

end LogWatch.Files.Path
