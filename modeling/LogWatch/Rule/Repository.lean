import LogWatch.Field.Aliases
import LogWatch.Files.Tree
import LogWatch.Rule.Basic
import LogWatch.Text.Utf8

/-!
# Where rules come from

A repository lists the sources of its rules in the order in which they are tried, and may say under
which names records hold the fields of rules.

* `Repository.fixed` — some sources as they are;
* `Repository.ofFolder` — the YAML files below a folder, in the order of their paths, however the
  folder lists them.
-/

namespace LogWatch.Rule

open Files

/-- The bytes of a rule and where they come from. -/
structure RuleSource where
  path : Path
  bytes : List UInt8

/-- The identifier that the place of a source suggests. -/
def RuleSource.stem (s : RuleSource) : String :=
  Path.stem s.path

/-- Why a source is no rule. -/
inductive SourceFault where
  | notText (fault : Text.Utf8.Fault)
  | unusable (fault : RuleFault)

/-- The fault in words. -/
def SourceFault.message : SourceFault → String
  | .notText fault => "not valid UTF-8: " ++ fault.message
  | .unusable fault => fault.message

/-- Why rules cannot be loaded. -/
inductive LoadError where
  | unreadable (path : Path)
  | malformed (path : Path)
  | invalid (path : Path) (fault : SourceFault)
  | rejected (report : Report)
  | fieldNames

/-- The reason in words; nothing is said about a list of field names. -/
def LoadError.message? : LoadError → Option String
  | .unreadable path => some ("IO error on " ++ Path.shown path)
  | .malformed path => some ("YAML parse error in " ++ Path.shown path)
  | .invalid path fault => some ("invalid rule " ++ Path.shown path ++ ": " ++ fault.message)
  | .rejected report => some ("Validation error: " ++ report.text)
  | .fieldNames => none

/-- What a repository has to say at one time. -/
structure Repository where
  sources : Except LoadError (List RuleSource)
  names : Except LoadError (Option FieldNames)

namespace Repository

/-- Some sources as they are. -/
def fixed (sources : List RuleSource) (names : Option FieldNames) : Repository :=
  ⟨.ok sources, .ok names⟩

/-! ## Folders -/

mutual

/-- The YAML files at and below an entry, with the components of their paths.  Hidden names are
passed over. -/
def yamlFiles (path : List Name) (name : Name) : Tree → List (List Name × List UInt8)
  | .file bytes =>
    if Path.isHidden name || !Path.isYaml name then [] else [(path ++ [name], bytes)]
  | .folder entries => if Path.isHidden name then [] else yamlEntries (path ++ [name]) entries

/-- The YAML files at and below some entries. -/
def yamlEntries (path : List Name) : List (Name × Tree) → List (List Name × List UInt8)
  | [] => []
  | (name, t) :: rest => yamlFiles path name t ++ yamlEntries path rest

end

/-- The YAML files below a folder, in the order of their paths. -/
def sortedFiles (entries : List (Name × Tree)) : List (List Name × List UInt8) :=
  (yamlEntries [] entries).mergeSort fun a b => Path.precedes a.1 b.1

/-- The sources below the folder at a path. -/
def folderSources (path : Path) (tree : Option Tree) : Except LoadError (List RuleSource) :=
  match tree with
  | some (.folder entries) =>
    .ok ((sortedFiles entries).map fun (file, bytes) => ⟨file.foldl Path.join path, bytes⟩)
  | _ => .error (.unreadable path)

/-- The field names that the file at a path lists. -/
def namesOfFile (path : Path) (tree : Option Tree) : Except LoadError (Option FieldNames) :=
  match tree with
  | some (.file bytes) =>
    match Text.Utf8.decode bytes with
    | .error _ => .error (.unreadable path)
    | .ok text =>
      match FieldNames.ofText? text with
      | some names => .ok (some names)
      | none => .error .fieldNames
  | _ => .error (.unreadable path)

/-- The rules below the folder at a path, and the field names of a file.  `at?` tells what is at a
path. -/
def ofFolder (at? : Path → Option Tree) (folder : Path) (namesFile : Option Path) :
    Repository where
  sources := folderSources folder (at? folder)
  names :=
    match namesFile with
    | some file => namesOfFile file (at? file)
    | none => .ok none

end Repository

end LogWatch.Rule
