import LogWatch.Files.Tree
import LogWatch.Proofs.Files.Paths
import Mathlib.Data.Option.Basic

/-!
# Folders in any order

A folder lists its entries in no particular order, so the same files may be met as many different trees.

* `Tidy` — trees as file systems have them: no folder lists a name twice;
* `FileAt` — the files of a tree, with the names on the way to them;
* `Relisted` — the entries of some folders have changed places, at any depth;
* `Relisted.at?` — what is found at a path is the same, up to the order in which it is listed.
-/

namespace LogWatch.Files.Tree

/-! ## Trees and their files -/

/-- What holds of every tree if it passes from the entries of a folder to the folder. -/
theorem byEntries {motive : Tree → Prop} (file : ∀ bytes, motive (.file bytes))
    (folder : ∀ entries, (∀ e ∈ entries, motive e.2) → motive (.folder entries)) (t : Tree) :
    motive t :=
  @Tree.rec motive (fun entries => ∀ e ∈ entries, motive e.2) (fun e => motive e.2) file folder
    (List.forall_mem_nil _) (fun _ _ he hentries => List.forall_mem_cons.2 ⟨he, hentries⟩)
    (fun _ _ ht => ht) t

/-- A tree as file systems have it: a folder lists names, and none of them twice. -/
inductive Tidy : Tree → Prop
  | file (bytes : List UInt8) : Tidy (.file bytes)
  | folder {entries : List (Name × Tree)} : (entries.map (·.1)).Nodup →
      (∀ e ∈ entries, Path.IsName e.1) → (∀ e ∈ entries, Tidy e.2) → Tidy (.folder entries)

/-- A tree holds a file of some bytes behind the given names. -/
inductive FileAt (bytes : List UInt8) : List Name → Tree → Prop
  | here : FileAt bytes [] (.file bytes)
  | inFolder {name : Name} {file : List Name} {t : Tree} {entries : List (Name × Tree)} :
      (name, t) ∈ entries → FileAt bytes file t → FileAt bytes (name :: file) (.folder entries)

/-- The entries of some folders have changed places. -/
inductive Relisted : Tree → Tree → Prop
  | refl (t : Tree) : Relisted t t
  | trans {t u v : Tree} : Relisted t u → Relisted u v → Relisted t v
  | folder {entries others : List (Name × Tree)} : entries.Perm others →
      Relisted (.folder entries) (.folder others)
  | inside (before after : List (Name × Tree)) (name : Name) {t u : Tree} : Relisted t u →
      Relisted (.folder (before ++ (name, t) :: after)) (.folder (before ++ (name, u) :: after))

section Files

variable {bytes : List UInt8} {file : List Name}

theorem fileAt_file_iff {other : List UInt8} :
    FileAt bytes file (.file other) ↔ file = [] ∧ other = bytes := by
  constructor
  · intro h
    cases h
    exact ⟨rfl, rfl⟩
  · rintro ⟨rfl, rfl⟩
    exact .here

theorem fileAt_folder_iff {entries : List (Name × Tree)} :
    FileAt bytes file (.folder entries) ↔
      ∃ e ∈ entries, ∃ rest, file = e.1 :: rest ∧ FileAt bytes rest e.2 := by
  constructor
  · intro h
    cases h with
    | inFolder hmem h => exact ⟨_, hmem, _, rfl, h⟩
  · rintro ⟨e, hmem, rest, rfl, h⟩
    exact .inFolder hmem h

theorem Tidy.of_mem {entries : List (Name × Tree)} (h : Tidy (.folder entries))
    {e : Name × Tree} (he : e ∈ entries) : Tidy e.2 := by
  cases h with
  | folder _ _ hentries => exact hentries e he

theorem Tidy.nodup {entries : List (Name × Tree)} (h : Tidy (.folder entries)) :
    (entries.map (·.1)).Nodup := by
  cases h with
  | folder hnodup _ _ => exact hnodup

/-- The way to a file leads over names. -/
theorem FileAt.isName {t : Tree} (h : FileAt bytes file t) (ht : Tidy t) :
    ∀ name ∈ file, Path.IsName name := by
  induction h with
  | here => simp
  | @inFolder name file t entries hmem _ ih =>
    cases ht with
    | folder _ hnames hentries =>
      exact List.forall_mem_cons.2 ⟨hnames _ hmem, ih (hentries _ hmem)⟩

end Files

/-! ## Looking up entries -/

section Entries

variable {name : Name} {entries others : List (Name × Tree)}

theorem entryNamed?_eq_some_iff (h : (entries.map (·.1)).Nodup) {t : Tree} :
    entryNamed? name entries = some t ↔ (name, t) ∈ entries := by
  induction entries with
  | nil => simp [entryNamed?]
  | cons e entries ih =>
    obtain ⟨n, u⟩ := e
    rw [List.map_cons, List.nodup_cons] at h
    rw [entryNamed?, List.mem_cons]
    by_cases hn : n = name
    · subst hn
      have hnot : (n, t) ∉ entries := fun hmem => h.1 (List.mem_map.2 ⟨(n, t), hmem, rfl⟩)
      simp [hnot, eq_comm]
    · rw [if_neg hn, ih h.2]
      simp [Ne.symm hn]

/-- Where no name is listed twice, the order does not matter to a look-up. -/
theorem entryNamed?_perm (h : entries.Perm others) (hnodup : (entries.map (·.1)).Nodup) :
    entryNamed? name entries = entryNamed? name others := by
  have hothers : (others.map (·.1)).Nodup := (h.map (·.1)).nodup_iff.1 hnodup
  apply Option.ext
  intro t
  rw [entryNamed?_eq_some_iff hnodup, entryNamed?_eq_some_iff hothers, h.mem_iff]

/-- What is found is the same up to its order, or nothing is found twice. -/
abbrev FoundAlike : Option Tree → Option Tree → Prop :=
  Option.Rel Relisted

theorem FoundAlike.refl : (found : Option Tree) → FoundAlike found found
  | none => .none
  | some t => .some (.refl t)

theorem FoundAlike.trans {a b c : Option Tree} (hab : FoundAlike a b) (hbc : FoundAlike b c) :
    FoundAlike a c := by
  cases hab with
  | none => exact hbc
  | some hab =>
    cases hbc with
    | some hbc => exact .some (hab.trans hbc)

theorem entryNamed?_inside (before after : List (Name × Tree)) (n : Name) {t u : Tree}
    (h : Relisted t u) :
    FoundAlike (entryNamed? name (before ++ (n, t) :: after))
      (entryNamed? name (before ++ (n, u) :: after)) := by
  induction before with
  | nil =>
    rw [List.nil_append, List.nil_append, entryNamed?, entryNamed?]
    by_cases hn : n = name
    · rw [if_pos hn, if_pos hn]
      exact .some h
    · rw [if_neg hn, if_neg hn]
      exact .refl _
  | cons e before ih =>
    rw [List.cons_append, List.cons_append, entryNamed?, entryNamed?]
    by_cases he : e.1 = name
    · rw [if_pos he, if_pos he]
      exact .refl _
    · rw [if_neg he, if_neg he]
      exact ih

end Entries

/-- The entry of a name; files have no entries. -/
def child? (name : Name) : Tree → Option Tree
  | .file _ => none
  | .folder entries => entryNamed? name entries

/-- What a tidy tree holds is tidy. -/
theorem Tidy.walk {t : Tree} {path : List Name} {above : List Tree} (ht : Tidy t)
    (habove : ∀ u ∈ above, Tidy u) : ∀ found ∈ walk t above path, Tidy found := by
  induction path generalizing t above with
  | nil =>
    intro found hfound
    cases hfound
    exact ht
  | cons name path ih =>
    intro found hfound
    cases t with
    | file bytes => cases hfound
    | folder entries =>
      unfold Tree.walk at hfound
      dsimp only at hfound
      split at hfound
      · cases above with
        | nil => cases hfound
        | cons up rest =>
          obtain ⟨hup, hrest⟩ := List.forall_mem_cons.1 habove
          exact ih hup hrest found hfound
      · split at hfound
        · rename_i u hu
          have hmem := (entryNamed?_eq_some_iff ht.nodup).1 hu
          exact ih (ht.of_mem hmem) (List.forall_mem_cons.2 ⟨ht, habove⟩) found hfound
        · cases hfound

theorem Tidy.at? {t : Tree} (ht : Tidy t) {path : Path} : ∀ found ∈ t.at? path, Tidy found := by
  intro found hfound
  unfold Tree.at? at hfound
  split at hfound
  · cases hfound
  · split at hfound
    · rename_i u hu
      split at hfound
      · cases hfound
        exact ht.walk (List.forall_mem_nil _) _ hu
      · cases hfound
    · cases hfound

/-! ## Other orders -/

namespace Relisted

variable {t u : Tree}

theorem tidy (h : Relisted t u) (ht : Tidy t) : Tidy u := by
  induction h with
  | refl t => exact ht
  | trans _ _ iht ihu => exact ihu (iht ht)
  | folder hperm =>
    cases ht with
    | folder hnodup hnames hentries =>
      exact .folder ((hperm.map (·.1)).nodup_iff.1 hnodup)
        (fun e he => hnames e (hperm.mem_iff.2 he)) (fun e he => hentries e (hperm.mem_iff.2 he))
  | inside before after name _ ih =>
    cases ht with
    | folder hnodup hnames hentries =>
      simp only [List.forall_mem_append, List.forall_mem_cons] at hnames hentries
      refine .folder (by simpa using hnodup) ?_ ?_
      · simp only [List.forall_mem_append, List.forall_mem_cons]
        exact hnames
      · simp only [List.forall_mem_append, List.forall_mem_cons]
        exact ⟨hentries.1, ih hentries.2.1, hentries.2.2⟩

/-- A file has one order only, and a folder stays one. -/
theorem file_or_folder (h : Relisted t u) :
    (∃ bytes, t = .file bytes ∧ u = .file bytes) ∨
      ∃ entries others, t = .folder entries ∧ u = .folder others := by
  induction h with
  | refl t =>
    cases t with
    | file bytes => exact .inl ⟨bytes, rfl, rfl⟩
    | folder entries => exact .inr ⟨entries, entries, rfl, rfl⟩
  | trans _ _ iht ihu =>
    rcases iht with ⟨bytes, rfl, rfl⟩ | ⟨entries, others, rfl, rfl⟩
    · exact ihu
    · rcases ihu with ⟨_, hfile, -⟩ | ⟨_, last, -, rfl⟩
      · cases hfile
      · exact .inr ⟨entries, last, rfl, rfl⟩
  | folder hperm => exact .inr ⟨_, _, rfl, rfl⟩
  | inside before after name _ _ => exact .inr ⟨_, _, rfl, rfl⟩

/-- Under a name there is the same, up to its order. -/
theorem child? (h : Relisted t u) (ht : Tidy t) (name : Name) :
    FoundAlike (child? name t) (child? name u) := by
  induction h with
  | refl t => exact .refl _
  | trans htu _ iht ihu => exact (iht ht).trans (ihu (htu.tidy ht))
  | folder hperm =>
    show FoundAlike (entryNamed? name _) (entryNamed? name _)
    rw [entryNamed?_perm hperm ht.nodup]
    exact .refl _
  | inside before after n h _ => exact entryNamed?_inside before after n h

/-- A way leads to the same, up to its order, if that is so of the folders that lead up from it. -/
theorem walk {path : List Name} {above beyond : List Tree} (h : Relisted t u) (ht : Tidy t)
    (habove : List.Forall₂ (fun t u => Relisted t u ∧ Tidy t) above beyond) :
    FoundAlike (walk t above path) (walk u beyond path) := by
  induction path generalizing t u above beyond with
  | nil => exact .some h
  | cons name path ih =>
    rcases h.file_or_folder with ⟨bytes, rfl, rfl⟩ | ⟨entries, others, rfl, rfl⟩
    · exact .none
    · unfold Tree.walk
      dsimp only
      by_cases hup : name = Path.up
      · rw [if_pos hup, if_pos hup]
        cases habove with
        | nil => exact .none
        | cons hup hrest => exact ih hup.1 hup.2 hrest
      · rw [if_neg hup, if_neg hup]
        have hfound : FoundAlike (entryNamed? name entries) (entryNamed? name others) :=
          h.child? ht name
        generalize hthere : entryNamed? name others = there at hfound
        cases hhere : entryNamed? name entries with
        | none =>
          rw [hhere] at hfound
          cases hfound
          exact .none
        | some v =>
          rw [hhere] at hfound
          cases hfound with
          | some hv =>
            have hmem := (entryNamed?_eq_some_iff ht.nodup).1 hhere
            exact ih hv (ht.of_mem hmem) (.cons ⟨h, ht⟩ habove)

/-- At a path there is the same, up to its order. -/
theorem at? (h : Relisted t u) (ht : Tidy t) (path : Path) :
    FoundAlike (t.at? path) (u.at? path) := by
  unfold Tree.at?
  split
  · exact .none
  · have hfound :
        FoundAlike (t.walk [] (Path.components path)) (u.walk [] (Path.components path)) :=
      h.walk ht .nil
    generalize Tree.walk t [] (Path.components path) = here at hfound
    generalize Tree.walk u [] (Path.components path) = there at hfound
    cases hfound with
    | none => exact .none
    | @some found other hrelisted =>
      have hkind : found.isFolder = other.isFolder := by
        rcases hrelisted.file_or_folder with ⟨_, rfl, rfl⟩ | ⟨_, _, rfl, rfl⟩ <;> rfl
      dsimp only
      rw [← hkind]
      split
      · exact .some hrelisted
      · exact .none

end Relisted

end LogWatch.Files.Tree
