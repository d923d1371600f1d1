import LogWatch.Text.Utf8

/-!
# Paths

A path is a list of bytes with slashes between its components.  Empty components and single dots say
nothing; a name may have a stem and, after its last dot, an extension.  Names need not be texts, and
some questions about a name are only put to texts.

* `Path.components`, `Path.join`;
* `Path.stem`, `Path.isYaml`, `Path.isHidden` — about the name at the end of a path;
* `Path.precedes` — the order of paths, component by component.
-/

namespace LogWatch.Files

/-- The name of a file or a folder: any bytes. -/
abbrev Name := List UInt8

/-- The way to a file or a folder. -/
abbrev Path := List UInt8

namespace Path

/-- The path that a text writes. -/
def ofText (text : String) : Path :=
  Text.Utf8.encode text

/-- A path for a reader. -/
def shown (path : Path) : String :=
  Text.Utf8.shown path

/-- What stands between the components of a path. -/
def slash : UInt8 :=
  0x2F

/-- What stands in front of an extension, and of the rest of a hidden name. -/
def dot : UInt8 :=
  0x2E

/-- The name of a folder within itself. -/
def here : Name :=
  [dot]

/-- The name of the folder above. -/
def up : Name :=
  [dot, dot]

/-- The components of a path that say something. -/
def components (path : Path) : List Name :=
  (Text.splitOn slash path).filter fun c => c ≠ [] && c ≠ here

/-- A path to a name within a folder. -/
def join (folder : Path) (name : Name) : Path :=
  if folder.isEmpty then name
  else if folder.getLast? = some slash then folder ++ name
  else folder ++ slash :: name

/-- Does a path start at the top of all folders? -/
def isAbsolute (path : Path) : Bool :=
  path.head? == some slash

/-- Is the last thing that a path says a name, and not a slash or a dot? -/
def endsInName (path : Path) : Bool :=
  match (Text.splitOn slash path).getLast? with
  | some last => last != [] && last != here
  | none => false

/-- The name at the end of a path; the way up is no name. -/
def name? (path : Path) : Option Name :=
  match (components path).getLast? with
  | some last => if last = up then none else some last
  | none => none

/-- The places before and after the last dot of a name.  A dot in front is part of the name. -/
def splitName (name : Name) : Name × Option Name :=
  match (Text.splitOn dot name).reverse with
  | last :: more =>
    let stem := Text.joinWith [dot] more.reverse
    if stem.isEmpty then (name, none) else (stem, some last)
  | [] => (name, none)

/-- A name as text, if it is one. -/
def text? (name : Name) : Option String :=
  match Text.Utf8.decode name with
  | .ok text => some text
  | .error _ => none

/-- The name at the end of a path without its extension; empty where that is no text. -/
def stem (path : Path) : String :=
  match name? path with
  | some name => (text? (splitName name).1).getD ""
  | none => ""

/-- Does a name have one of the extensions of YAML files? -/
def isYaml (name : Name) : Bool :=
  match (splitName name).2.bind text? with
  | some ext => ext == "yml" || ext == "yaml"
  | none => false

/-- Is a name hidden?  Only texts are asked for the dot in front. -/
def isHidden (name : Name) : Bool :=
  match text? name with
  | some text => text.toList.head? == some '.'
  | none => false

/-- Does a path not come after another one, in the order of their components? -/
def precedes : List Name → List Name → Bool
  | [], _ => true
  | _ :: _, [] => false
  | a :: as, b :: bs => if a = b then precedes as bs else decide (a < b)

end Path

end LogWatch.Files
