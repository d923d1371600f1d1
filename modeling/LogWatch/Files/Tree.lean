import LogWatch.Files.Path

/-!
# Trees of files

The files that a program sees: a folder has entries in no particular order, each a file with its
bytes or another folder.

* `Tree.at?` — the file or folder at a path;
* `Tree.write`, `Tree.remove` — a tree with one file more or less.
-/

namespace LogWatch.Files

/-- A file or a folder. -/
inductive Tree where
  | file (bytes : List UInt8)
  | folder (entries : List (Name × Tree))

namespace Tree

/-- A folder without entries. -/
def empty : Tree :=
  .folder []

/-- The entry of a name. -/
def entryNamed? (name : Name) : List (Name × Tree) → Option Tree
  | [] => none
  | (n, t) :: rest => if n = name then some t else entryNamed? name rest

/-- Entries in which a name has the given tree; a new name comes last. -/
def setEntry (name : Name) (tree : Tree) : List (Name × Tree) → List (Name × Tree)
  | [] => [(name, tree)]
  | (n, t) :: rest => if n = name then (n, tree) :: rest else (n, t) :: setEntry name tree rest

/-- The components of a path without the ways up, each of which takes back the component before
it. -/
def withoutWaysUp (path : List Name) : List Name :=
  (path.foldl (fun done c => if c = Path.up then done.drop 1 else c :: done) []).reverse

/-- What is reached from `here` along some components.  `above` holds the folders on the way to it, the
nearest first, and a way up leads back to them. -/
def walk (here : Tree) (above : List Tree) : List Name → Option Tree
  | [] => some here
  | c :: cs =>
    match here with
    | .file _ => none
    | .folder entries =>
      if c = Path.up then
        match above with
        | [] => none
        | up :: rest => walk up rest cs
      else
        match entryNamed? c entries with
        | some t => walk t (here :: above) cs
        | none => none

/-- Is this a folder? -/
def isFolder : Tree → Bool
  | .folder _ => true
  | .file _ => false

/-- The file or folder at a path that starts within the tree.  Only a folder may be followed by a
slash. -/
def at? (t : Tree) (path : Path) : Option Tree :=
  if path.isEmpty || Path.isAbsolute path then none
  else
    match walk t [] (Path.components path) with
    | some found => if found.isFolder || Path.endsInName path then some found else none
    | none => none

/-- The bytes of a file. -/
def bytes? : Tree → Option (List UInt8)
  | .file bytes => some bytes
  | .folder _ => none

/-- A tree with a file below some components; folders on the way are made where they are missing. -/
def writeBelow (bytes : List UInt8) : List Name → Tree → Tree
  | [], _ => .file bytes
  | c :: cs, .folder entries =>
    .folder (setEntry c (writeBelow bytes cs ((entryNamed? c entries).getD empty)) entries)
  | c :: cs, .file _ => .folder [(c, writeBelow bytes cs empty)]

/-- A tree with a file at a path. -/
def write (t : Tree) (path : Path) (bytes : List UInt8) : Tree :=
  writeBelow bytes (withoutWaysUp (Path.components path)) t

/-- A tree without the file below some components. -/
def removeBelow : List Name → Tree → Tree
  | [], t => t
  | _ :: _, .file bytes => .file bytes
  | [c], .folder entries => .folder (entries.filter fun e => e.1 ≠ c)
  | c :: cs, .folder entries =>
    match entryNamed? c entries with
    | some t => .folder (setEntry c (removeBelow cs t) entries)
    | none => .folder entries

/-- A tree without the file at a path. -/
def remove (t : Tree) (path : Path) : Tree :=
  removeBelow (withoutWaysUp (Path.components path)) t

end Tree

end LogWatch.Files
