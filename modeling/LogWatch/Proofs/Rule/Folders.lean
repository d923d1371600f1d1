import LogWatch.Proofs.Files.Listings
import LogWatch.Rule.Corpus
import Mathlib.Data.List.Nodup

/-!
# The rules of a folder

A folder of rules is scanned from entry to entry, as it happens to list them, and the files that are found
are sorted at the end.  Names are any bytes, but only those that are texts are asked whether they start
with a dot: a name that starts with one and is no text is not passed over.

* `LeadsToRule` — no name on the way is hidden, and the last one ends as YAML files do;
* `Repository.mem_yamlFiles_iff`, `Repository.nodup_yamlFiles` — the scan meets the files behind such
  ways, each once;
* `Repository.yamlFiles_perm_of_filesBelow`, `Repository.sortedFiles_eq` — another order of the listings
  changes the order in which files are met, and nothing after they have been sorted;
* `Repository.sources_exact_iff` — when no file is met that should have been passed over;
* `Repository.folder_hides_texts_only` — the sources of a folder are the files that the scan meets, in the
  order of their components, so no order of the listings makes a difference to the corpus and to what it
  answers.
-/

namespace LogWatch.Rule

open Files
open Files.Tree (Tidy FileAt Relisted FoundAlike byEntries fileAt_file_iff fileAt_folder_iff)

/-- The way to a rule: no name on it is hidden, and the last one has an extension of YAML files. -/
structure LeadsToRule (hides : Name → Prop) (file : List Name) : Prop where
  visible : ∀ name ∈ file, ¬ hides name
  yaml : ∃ name ∈ file.getLast?, Path.HasExtension name "yml" ∨ Path.HasExtension name "yaml"

/-- A name that is a text and starts with a dot. -/
def IsDottedText (name : Name) : Prop :=
  Path.IsText name ∧ Path.IsDotted name

section Ways

variable {hides : Name → Prop} {name next : Name} {file rest : List Name}

/-- Where less is hidden there are more ways. -/
theorem LeadsToRule.mono {hides' : Name → Prop} (h : LeadsToRule hides file)
    (hless : ∀ name ∈ file, hides' name → hides name) : LeadsToRule hides' file :=
  ⟨fun name hname hhides => h.visible name hname (hless name hname hhides), h.yaml⟩

theorem leadsToRule_singleton_iff :
    LeadsToRule hides [name] ↔ ¬ hides name ∧ Path.isYaml name = true := by
  rw [Path.isYaml_iff]
  constructor
  · rintro ⟨hvisible, last, hlast, hyaml⟩
    cases hlast
    exact ⟨hvisible _ List.mem_cons_self, hyaml⟩
  · rintro ⟨hvisible, hyaml⟩
    refine ⟨?_, name, rfl, hyaml⟩
    intro other hother
    rw [List.mem_singleton.1 hother]
    exact hvisible

theorem leadsToRule_cons_cons_iff :
    LeadsToRule hides (name :: next :: rest) ↔ ¬ hides name ∧ LeadsToRule hides (next :: rest) := by
  constructor
  · rintro ⟨hvisible, hyaml⟩
    obtain ⟨hname, hrest⟩ := List.forall_mem_cons.1 hvisible
    rw [List.getLast?_cons_cons] at hyaml
    exact ⟨hname, hrest, hyaml⟩
  · rintro ⟨hname, hrest, hyaml⟩
    refine ⟨List.forall_mem_cons.2 ⟨hname, hrest⟩, ?_⟩
    rw [List.getLast?_cons_cons]
    exact hyaml

/-- The test of the scan hides the texts that start with a dot. -/
theorem not_isDottedText_iff : ¬ IsDottedText name ↔ Path.isHidden name = false := by
  rw [IsDottedText, ← Path.isHidden_iff, Bool.not_eq_true]

end Ways

namespace Repository

section Scan

variable {path : List Name} {name : Name} {t u : Tree} {entries others : List (Name × Tree)}

theorem yamlEntries_eq :
    yamlEntries path entries = entries.flatMap fun e => yamlFiles path e.1 e.2 := by
  induction entries with
  | nil => rw [yamlEntries, List.flatMap_nil]
  | cons e entries ih => rw [yamlEntries, ih, List.flatMap_cons]

/-! ## What the scan meets -/

/-- The scan meets the files behind the ways to rules. -/
theorem mem_yamlFiles_iff {file : List Name} {bytes : List UInt8} :
    (file, bytes) ∈ yamlFiles path name t ↔
      ∃ rest, file = path ++ name :: rest ∧ FileAt bytes rest t ∧
        LeadsToRule IsDottedText (name :: rest) := by
  induction t using byEntries generalizing path name with
  | file other =>
    simp only [fileAt_file_iff]
    rw [yamlFiles]
    constructor
    · intro h
      split at h
      · cases h
      · rename_i hname
        cases List.mem_singleton.1 h
        rw [Bool.or_eq_true, not_or, Bool.not_eq_true, Bool.not_eq_true, Bool.not_eq_false'] at hname
        exact ⟨[], rfl, ⟨rfl, rfl⟩,
          leadsToRule_singleton_iff.2 ⟨not_isDottedText_iff.2 hname.1, hname.2⟩⟩
    · rintro ⟨_, rfl, ⟨rfl, rfl⟩, hname⟩
      obtain ⟨hvisible, hyaml⟩ := leadsToRule_singleton_iff.1 hname
      rw [not_isDottedText_iff.1 hvisible, hyaml]
      exact List.mem_cons_self
  | folder entries ih =>
    simp only [fileAt_folder_iff]
    rw [yamlFiles]
    constructor
    · intro h
      split at h
      · cases h
      · rename_i hname
        rw [yamlEntries_eq, List.mem_flatMap] at h
        obtain ⟨e, he, hfile⟩ := h
        obtain ⟨rest, rfl, hrest, hleads⟩ := (ih e he).1 hfile
        refine ⟨e.1 :: rest, by simp, ⟨e, he, rest, rfl, hrest⟩, ?_⟩
        exact leadsToRule_cons_cons_iff.2
          ⟨not_isDottedText_iff.2 (Bool.not_eq_true _ ▸ hname), hleads⟩
    · rintro ⟨_, rfl, ⟨e, he, rest, rfl, hrest⟩, hname⟩
      obtain ⟨hvisible, hleads⟩ := leadsToRule_cons_cons_iff.1 hname
      rw [not_isDottedText_iff.1 hvisible, if_neg Bool.false_ne_true, yamlEntries_eq, List.mem_flatMap]
      exact ⟨e, he, (ih e he).2 ⟨rest, by simp, hrest, hleads⟩⟩

/-- Files below entries of different names have different paths. -/
theorem nodup_flatMap_yamlFiles (hnames : (entries.map (·.1)).Nodup)
    (hentries : ∀ e ∈ entries, ((yamlFiles path e.1 e.2).map (·.1)).Nodup) :
    ((entries.flatMap fun e => yamlFiles path e.1 e.2).map (·.1)).Nodup := by
  rw [List.map_flatMap, List.nodup_flatMap]
  refine ⟨hentries, ?_⟩
  apply (List.pairwise_map.1 hnames).imp
  intro e e' hne file hfile hfile'
  obtain ⟨⟨_, bytes⟩, hmem, rfl⟩ := List.mem_map.1 hfile
  obtain ⟨⟨_, bytes'⟩, hmem', heq⟩ := List.mem_map.1 hfile'
  obtain ⟨rest, hpath, -, -⟩ := mem_yamlFiles_iff.1 hmem
  obtain ⟨rest', hpath', -, -⟩ := mem_yamlFiles_iff.1 hmem'
  dsimp only at hpath hpath' heq
  rw [heq, hpath, List.append_cancel_left_eq, List.cons.injEq] at hpath'
  exact hne hpath'.1

/-- The scan meets no file twice. -/
theorem nodup_yamlFiles (ht : Tidy t) : ((yamlFiles path name t).map (·.1)).Nodup := by
  induction t using byEntries generalizing path name with
  | file bytes =>
    rw [yamlFiles]
    split <;> simp
  | folder entries ih =>
    rw [yamlFiles]
    split
    · simp
    · rw [yamlEntries_eq]
      exact nodup_flatMap_yamlFiles ht.nodup fun e he => ih e he (ht.of_mem he)

/-! ## Other orders -/

/-- The files below a folder, with the components of their paths behind a way to the folder. -/
def filesBelow (path : List Name) : Tree → List (List Name × List UInt8)
  | .file _ => []
  | .folder entries => yamlEntries path entries

theorem yamlFiles_perm_of_filesBelow (h : Relisted t u)
    (hbelow : ∀ path, (filesBelow path t).Perm (filesBelow path u)) :
    (yamlFiles path name t).Perm (yamlFiles path name u) := by
  rcases h.file_or_folder with ⟨bytes, rfl, rfl⟩ | ⟨entries, others, rfl, rfl⟩
  · exact .refl _
  · rw [yamlFiles, yamlFiles]
    split
    · exact .refl _
    · exact hbelow (path ++ [name])

/-- Another order of the listings is another order of the files. -/
theorem filesBelow_perm (h : Relisted t u) (path : List Name) :
    (filesBelow path t).Perm (filesBelow path u) := by
  induction h generalizing path with
  | refl t => exact .refl _
  | trans _ _ iht ihu => exact (iht path).trans (ihu path)
  | folder hperm =>
    rw [filesBelow, filesBelow, yamlEntries_eq, yamlEntries_eq]
    exact hperm.flatMap_right _
  | inside before after name hinside ih =>
    simp only [filesBelow, yamlEntries_eq, List.flatMap_append, List.flatMap_cons]
    apply List.Perm.append_left
    apply List.Perm.append_right
    exact yamlFiles_perm_of_filesBelow hinside ih

end Scan

/-! ## Sorting -/

section Sorting

variable {entries others : List (Name × Tree)}

theorem sortedFiles_perm (entries : List (Name × Tree)) :
    (sortedFiles entries).Perm (filesBelow [] (.folder entries)) :=
  List.mergeSort_perm _ _

theorem nodup_sortedFiles (h : Tidy (.folder entries)) :
    ((sortedFiles entries).map (·.1)).Nodup := by
  rw [((sortedFiles_perm entries).map (·.1)).nodup_iff, filesBelow, yamlEntries_eq]
  exact nodup_flatMap_yamlFiles h.nodup fun e he => nodup_yamlFiles (h.of_mem he)

/-- The files are in strictly ascending order of their components. -/
theorem pairwise_sortedFiles (h : Tidy (.folder entries)) :
    (sortedFiles entries).Pairwise fun a b => a.1 < b.1 := by
  have hsorted : (sortedFiles entries).Pairwise fun a b => Path.precedes a.1 b.1 = true := by
    apply List.pairwise_mergeSort
    · intro a b c hab hbc
      rw [Path.precedes_iff, not_lt] at hab hbc ⊢
      exact le_trans hab hbc
    · intro a b
      rw [Bool.or_eq_true, Path.precedes_iff, Path.precedes_iff, not_lt, not_lt]
      exact le_total a.1 b.1
  have hdistinct : (sortedFiles entries).Pairwise fun a b => a.1 ≠ b.1 :=
    List.pairwise_map.1 (nodup_sortedFiles h)
  apply (hsorted.and hdistinct).imp
  rintro a b ⟨hprecedes, hne⟩
  rw [Path.precedes_iff, not_lt] at hprecedes
  exact lt_of_le_of_ne hprecedes hne

/-- Once they are sorted, the files do not show how the folders list them. -/
theorem sortedFiles_eq (h : Relisted (.folder entries) (.folder others))
    (ht : Tidy (.folder entries)) : sortedFiles entries = sortedFiles others := by
  have hperm : (sortedFiles entries).Perm (sortedFiles others) :=
    (sortedFiles_perm entries).trans ((filesBelow_perm h []).trans (sortedFiles_perm others).symm)
  apply hperm.eq_of_pairwise ?_ (pairwise_sortedFiles ht) (pairwise_sortedFiles (h.tidy ht))
  intro a b _ _ hab hba
  exact absurd hba (lt_asymm hab)

theorem mem_sortedFiles_iff {file : List Name} {bytes : List UInt8} :
    (file, bytes) ∈ sortedFiles entries ↔
      FileAt bytes file (.folder entries) ∧ LeadsToRule IsDottedText file := by
  rw [(sortedFiles_perm entries).mem_iff, filesBelow, yamlEntries_eq, List.mem_flatMap,
    fileAt_folder_iff]
  simp only [mem_yamlFiles_iff, List.nil_append]
  constructor
  · rintro ⟨e, he, rest, rfl, hrest, hleads⟩
    exact ⟨⟨e, he, rest, rfl, hrest⟩, hleads⟩
  · rintro ⟨⟨e, he, rest, rfl, hrest⟩, hleads⟩
    exact ⟨e, he, rest, rfl, hrest, hleads⟩

end Sorting

/-! ## Sources -/

section Sources

variable {folder : Path} {entries : List (Name × Tree)}

/-- The sources below a folder at a path. -/
def sourcesBelow (folder : Path) (entries : List (Name × Tree)) : List RuleSource :=
  (sortedFiles entries).map fun f => ⟨f.1.foldl Path.join folder, f.2⟩

/-- A file below a folder at a path that has the extension of YAML files and no hidden name on the way to
it. -/
def IsSource (hides : Name → Prop) (folder : Path) (entries : List (Name × Tree))
    (s : RuleSource) : Prop :=
  ∃ file, FileAt s.bytes file (.folder entries) ∧ LeadsToRule hides file ∧
    s.path = file.foldl Path.join folder

theorem mem_sourcesBelow_iff {s : RuleSource} :
    s ∈ sourcesBelow folder entries ↔ IsSource IsDottedText folder entries s := by
  unfold sourcesBelow
  rw [List.mem_map]
  constructor
  · rintro ⟨⟨file, bytes⟩, hmem, rfl⟩
    obtain ⟨hfile, hleads⟩ := mem_sortedFiles_iff.1 hmem
    exact ⟨file, hfile, hleads, rfl⟩
  · rintro ⟨file, hfile, hleads, hpath⟩
    refine ⟨(file, s.bytes), mem_sortedFiles_iff.2 ⟨hfile, hleads⟩, ?_⟩
    dsimp only
    rw [← hpath]

/-- The paths of the sources strictly ascend in their components. -/
theorem pairwise_sourcesBelow (h : Tidy (.folder entries)) :
    (sourcesBelow folder entries).Pairwise fun s s' =>
      Path.components s.path < Path.components s'.path := by
  unfold sourcesBelow
  rw [List.pairwise_map]
  apply (pairwise_sortedFiles h).imp_of_mem
  rintro ⟨file, bytes⟩ ⟨file', bytes'⟩ hmem hmem' hlt
  have hnames := (mem_sortedFiles_iff.1 hmem).1.isName h
  have hnames' := (mem_sortedFiles_iff.1 hmem').1.isName h
  dsimp only
  rw [Path.components_foldl_join folder hnames, Path.components_foldl_join folder hnames']
  exact List.append_left_lt hlt

/-- A file that is hidden by its text alone is hidden. -/
theorem IsSource.of_dotted {s : RuleSource} (h : IsSource Path.IsDotted folder entries s) :
    IsSource IsDottedText folder entries s := by
  obtain ⟨file, hfile, hleads, hpath⟩ := h
  exact ⟨file, hfile, hleads.mono fun _ _ hdotted => hdotted.2, hpath⟩

/-- No file is met in spite of a dot just when every dotted name on the way to one that is met is a text. -/
theorem sources_exact_iff (ht : Tidy (.folder entries)) :
    (∀ s, IsSource IsDottedText folder entries s ↔ IsSource Path.IsDotted folder entries s) ↔
      ∀ bytes file, FileAt bytes file (.folder entries) → LeadsToRule IsDottedText file →
        ∀ name ∈ file, Path.IsDotted name → Path.IsText name := by
  constructor
  · intro hexact bytes file hfile hleads name hname hdotted
    obtain ⟨other, hother, hvisible, hpath⟩ :=
      (hexact ⟨file.foldl Path.join folder, bytes⟩).1 ⟨file, hfile, hleads, rfl⟩
    have hcomponents := congrArg Path.components hpath
    rw [Path.components_foldl_join folder (hfile.isName ht),
      Path.components_foldl_join folder (hother.isName ht), List.append_cancel_left_eq] at hcomponents
    subst hcomponents
    exact absurd hdotted (hvisible.visible name hname)
  · intro htexts s
    refine ⟨?_, IsSource.of_dotted⟩
    rintro ⟨file, hfile, hleads, hpath⟩
    exact ⟨file, hfile, hleads.mono fun name hname hdotted =>
      ⟨htexts s.bytes file hfile hleads name hname hdotted, hdotted⟩, hpath⟩

theorem folderSources_eq {found found' : Option Tree} (h : FoundAlike found found')
    (ht : ∀ t ∈ found, Tidy t) : folderSources folder found = folderSources folder found' := by
  cases h with
  | none => rfl
  | @some t u h =>
    rcases h.file_or_folder with ⟨bytes, rfl, rfl⟩ | ⟨entries, others, rfl, rfl⟩
    · rfl
    · rw [folderSources, folderSources, sortedFiles_eq h (ht _ rfl)]

theorem namesOfFile_eq {found found' : Option Tree} (h : FoundAlike found found') :
    namesOfFile folder found = namesOfFile folder found' := by
  cases h with
  | none => rfl
  | some h =>
    rcases h.file_or_folder with ⟨bytes, rfl, rfl⟩ | ⟨entries, others, rfl, rfl⟩
    · rfl
    · rfl

end Sources

/-- A repository does not depend on the order in which folders are listed. -/
theorem ofFolder_eq {t u : Tree} (h : Relisted t u) (ht : Tidy t) (folder : Path)
    (namesFile : Option Path) : ofFolder u.at? folder namesFile = ofFolder t.at? folder namesFile := by
  unfold ofFolder
  rw [folderSources_eq (h.at? ht folder) ht.at?]
  cases namesFile with
  | none => rfl
  | some file =>
    dsimp only
    rw [namesOfFile_eq (h.at? ht file)]

/-- The sources of a folder are the YAML files with no text on the way to them that starts with a dot, each
once, and they stand in the order of their components.  All files that have no name with a dot in front on
the way are among them, and no others are just when every such name on the way to a source is a text.
However the folders of a tree are listed, the repository is the same, and so are the corpus that is loaded
from it and the first rule that holds of a record. -/
theorem folder_hides_texts_only {t : Tree} (ht : Tidy t) (folder : Path) (namesFile : Option Path) :
    (∀ entries, t.at? folder = some (.folder entries) →
      ∃ sources, (ofFolder t.at? folder namesFile).sources = .ok sources ∧
        (∀ s, s ∈ sources ↔ IsSource IsDottedText folder entries s) ∧
        (sources.Pairwise fun s s' => Path.components s.path < Path.components s'.path) ∧
        (∀ s, IsSource Path.IsDotted folder entries s → s ∈ sources) ∧
        ((∀ s, s ∈ sources ↔ IsSource Path.IsDotted folder entries s) ↔
          ∀ bytes file, FileAt bytes file (.folder entries) → LeadsToRule IsDottedText file →
            ∀ name ∈ file, Path.IsDotted name → Path.IsText name)) ∧
    ∀ u, Relisted t u →
      ofFolder u.at? folder namesFile = ofFolder t.at? folder namesFile ∧
      RuleCorpus.load (ofFolder u.at? folder namesFile) =
        RuleCorpus.load (ofFolder t.at? folder namesFile) ∧
      ∀ fields,
        (RuleCorpus.load (ofFolder u.at? folder namesFile)).map (·.firstMatch? fields) =
          (RuleCorpus.load (ofFolder t.at? folder namesFile)).map (·.firstMatch? fields) := by
  constructor
  · intro entries hentries
    have htidy : Tidy (.folder entries) := ht.at? _ hentries
    have hmem : ∀ s, s ∈ sourcesBelow folder entries ↔ IsSource IsDottedText folder entries s :=
      fun _ => mem_sourcesBelow_iff
    refine ⟨sourcesBelow folder entries, ?_, hmem, pairwise_sourcesBelow htidy,
      fun s hs => (hmem s).2 hs.of_dotted, ?_⟩
    · unfold ofFolder
      rw [hentries]
      rfl
    · simp only [hmem]
      exact sources_exact_iff htidy
  · intro u h
    have heq := ofFolder_eq h ht folder namesFile
    rw [heq]
    exact ⟨rfl, rfl, fun _ => rfl⟩

/-- A name that starts with a dot and is no text: its second byte begins no sequence. -/
def strayName : Name :=
  Path.dot :: 0xFF :: Path.ofText ".yml"

/-- Rules in a folder and in one below it, with a hidden file, a text and a file of a stray name beside
them. -/
def mixedRules : List (Name × Tree) :=
  [(Path.ofText "a-b.yml", .file [1]), (Path.ofText "notes.txt", .file []),
    (Path.ofText ".old.yml", .file []), (strayName, .file [4]),
    (Path.ofText "a", .folder [(Path.ofText "c.yaml", .file [2]), (Path.ofText "d.yml", .file [3])])]

/-- A tree with a folder of some rules. -/
def withRules (entries : List (Name × Tree)) : Tree :=
  .folder [(Path.ofText "rules", .folder entries)]

theorem tidy_mixedRules : Tidy (withRules mixedRules) := by
  have hbelow : Tidy (.folder [(Path.ofText "c.yaml", .file [2]), (Path.ofText "d.yml", .file [3])]) :=
    .folder (by decide) (by decide) (by simp [Tidy.file])
  have hrules : Tidy (.folder mixedRules) :=
    .folder (by decide) (by decide) (by simp [mixedRules, Tidy.file, hbelow])
  exact .folder (by decide) (by decide) (by simp [hrules])

theorem relisted_mixedRules : Relisted (withRules mixedRules) (withRules mixedRules.reverse) :=
  .inside [] [] _ (.folder (List.reverse_perm _).symm)

/-- The file of the stray name leads to a rule, as only texts are hidden. -/
theorem leadsToRule_strayName : LeadsToRule IsDottedText [strayName] :=
  leadsToRule_singleton_iff.2 ⟨not_isDottedText_iff.2 (by decide +kernel), by decide +kernel⟩

/-- Both listings have the same sources.  The one below the folder `a` comes before the one beside the folder,
although its text is greater.  The hidden file is passed over, and the file of a stray name is not, although
its name starts with a dot. -/
theorem folder_hides_texts_only_mixed :
    ∃ sources,
      (ofFolder (withRules mixedRules).at? (.ofText "rules") none).sources = .ok sources ∧
      (ofFolder (withRules mixedRules.reverse).at? (.ofText "rules") none).sources = .ok sources ∧
      ⟨.ofText "rules/a/c.yaml", [2]⟩ ∈ sources ∧ ⟨.ofText "rules/a-b.yml", [1]⟩ ∈ sources ∧
      (sources.Pairwise fun s s' => Path.components s.path < Path.components s'.path) ∧
      Path.components (.ofText "rules/a/c.yaml") < Path.components (.ofText "rules/a-b.yml") ∧
      ⟨.ofText "rules/.old.yml", []⟩ ∉ sources ∧
      ⟨.ofText "rules/" ++ strayName, [4]⟩ ∈ sources ∧ Path.IsDotted strayName ∧
      ¬ ∀ s, s ∈ sources ↔ IsSource Path.IsDotted (.ofText "rules") mixedRules s := by
  have hfound : (withRules mixedRules).at? (.ofText "rules") = some (.folder mixedRules) := rfl
  obtain ⟨hsources, hlistings⟩ := folder_hides_texts_only tidy_mixedRules (.ofText "rules") none
  obtain ⟨sources, heq, hmem, hascend, -, hexact⟩ := hsources mixedRules hfound
  have hbelow : LeadsToRule IsDottedText [Path.ofText "a", Path.ofText "c.yaml"] :=
    leadsToRule_cons_cons_iff.2 ⟨not_isDottedText_iff.2 (by decide +kernel),
      leadsToRule_singleton_iff.2 ⟨not_isDottedText_iff.2 (by decide +kernel), by decide +kernel⟩⟩
  have hbeside : LeadsToRule IsDottedText [Path.ofText "a-b.yml"] :=
    leadsToRule_singleton_iff.2 ⟨not_isDottedText_iff.2 (by decide +kernel), by decide +kernel⟩
  have hstray : FileAt [4] [strayName] (.folder mixedRules) :=
    .inFolder (List.mem_of_getElem? (i := 3) rfl) .here
  refine ⟨sources, heq, ?_, ?_, ?_, hascend, by decide, ?_, ?_, by decide, ?_⟩
  · rw [(hlistings _ relisted_mixedRules).1]
    exact heq
  · exact (hmem _).2 ⟨[Path.ofText "a", Path.ofText "c.yaml"],
      .inFolder (List.mem_of_getElem? (i := 4) rfl) (.inFolder List.mem_cons_self .here), hbelow, rfl⟩
  · exact (hmem _).2 ⟨[Path.ofText "a-b.yml"], .inFolder List.mem_cons_self .here, hbeside, rfl⟩
  · intro hold
    obtain ⟨file, hfile, hleads, hpath⟩ := (hmem _).1 hold
    have hfolder : Tidy (.folder mixedRules) := tidy_mixedRules.at? _ hfound
    have hcomponents := congrArg Path.components hpath
    rw [Path.components_foldl_join _ (hfile.isName hfolder)] at hcomponents
    have hway : Path.components (.ofText "rules/.old.yml") =
        Path.components (.ofText "rules") ++ [Path.ofText ".old.yml"] := by decide
    rw [hway, List.append_cancel_left_eq] at hcomponents
    subst hcomponents
    exact hleads.visible _ List.mem_cons_self ⟨⟨_, rfl⟩, by decide⟩
  · exact (hmem _).2 ⟨[strayName], hstray, leadsToRule_strayName, rfl⟩
  · intro h
    have htext : Path.IsText strayName :=
      hexact.1 h [4] [strayName] hstray leadsToRule_strayName _ List.mem_cons_self (by decide)
    exact absurd htext (by decide)

end Repository

end LogWatch.Rule
