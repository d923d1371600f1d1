import LogWatch.Rule.Selection
import LogWatch.Rule.Suggestion

/-!
# Validation

Whether the condition of a rule and its selections agree, and whether the rules of a corpus can be
told apart.  Complaints keep a rule or a corpus from being used; warnings do not.

* `Report.ofDetection` — what is wrong with a detection block;
* `Report.ofIds` — which identifiers of a corpus are repeated.
-/

namespace LogWatch.Rule

/-- What keeps a rule or a corpus from being used. -/
inductive Complaint where
  | noSelections
  | hollow (selection : String)
  | unknown (selection : String) (suggestion : Option String)
  | nothingStartsWith (start : String)
  | repeatedId (index : Nat) (id : String) (earlier : Nat)
deriving DecidableEq, Repr

namespace Complaint

/-- The place that a complaint is about. -/
def path : Complaint → String
  | .noSelections => "detection"
  | .hollow selection => "detection." ++ selection
  | .unknown _ _ => "detection.condition"
  | .nothingStartsWith _ => "detection.condition"
  | .repeatedId index _ _ => "rules[" ++ toString index ++ "].id"

/-- A complaint in words. -/
def message : Complaint → String
  | .noSelections => "no selections defined"
  | .hollow _ => "selection has no fields"
  | .unknown selection _ => "unknown selection '" ++ selection ++ "'"
  | .nothingStartsWith start => "'" ++ start ++ "*' matches no selection"
  | .repeatedId _ id earlier =>
    "duplicate rule id '" ++ id ++ "' (first defined at rules[" ++ toString earlier ++ "])"

/-- What may have been meant. -/
def suggestion : Complaint → Option String
  | .unknown _ s => s
  | _ => none

/-- A complaint with its place and what may have been meant. -/
def text (c : Complaint) : String :=
  c.path ++ ": " ++ c.message ++
    match c.suggestion with
    | some s => " (did you mean '" ++ s ++ "'?)"
    | none => ""

end Complaint

/-- What may be a mistake: a selection that the condition does not use. -/
structure Warning where
  selection : String
deriving DecidableEq, Repr

/-- The place that a warning is about. -/
def Warning.path (w : Warning) : String :=
  "detection." ++ w.selection

/-- A warning in words. -/
def Warning.message (_ : Warning) : String :=
  "selection is not used by the condition"

/-- The outcome of a validation. -/
structure Report where
  complaints : List Complaint
  warnings : List Warning
deriving DecidableEq, Repr

namespace Report

/-- Is there nothing to complain about? -/
def isValid (r : Report) : Bool :=
  r.complaints.isEmpty

/-- The complaints in one line. -/
def text (r : Report) : String :=
  "; ".intercalate (r.complaints.map Complaint.text)

/-- Complaints about selections that describe nothing. -/
def hollowSelections (selections : Dictionary Selection) : List Complaint :=
  (selections.filter fun p => p.2.isHollow).map fun p => .hollow p.1

/-- Complaints about names in the condition that no selection has. -/
def unknownNames (selections : Dictionary Selection) (condition : Condition) : List Complaint :=
  (condition.names.filter fun n => !selections.names.contains n).map fun n =>
    .unknown n (suggestion? n selections.names)

/-- The complaint about a set that is given by the beginning of names, if no name begins so. -/
def emptySet? (names : List String) : SelectionSet → Option Complaint
  | .startingWith start =>
    if names.any (SelectionSet.startingWith start).contains then none
    else some (.nothingStartsWith start)
  | _ => none

/-- Does a condition use the selection of a name? -/
def isUsed (condition : Condition) (name : String) : Bool :=
  condition.names.contains name || condition.sets.any fun set => set.contains name

/-- The outcome for a detection block.  Where there are no selections at all nothing else is said. -/
def ofDetection (selections : Dictionary Selection) (condition : Condition) : Report :=
  if selections.isEmpty then ⟨[.noSelections], []⟩
  else
    { complaints :=
        hollowSelections selections ++ unknownNames selections condition ++
          condition.sets.filterMap (emptySet? selections.names)
      warnings := (selections.names.filter fun n => !isUsed condition n).map Warning.mk }

/-- The last place of a text in a list. -/
def lastIndex? (s : String) (texts : List String) : Option Nat :=
  (texts.reverse.idxOf? s).map fun i => texts.length - 1 - i

/-- Complaints about identifiers that have occurred before, with the place of the latest occurrence.
`before` are the identifiers in front, in order. -/
def repetitions (before : List String) : List String → List Complaint
  | [] => []
  | id :: rest =>
    let later := repetitions (before ++ [id]) rest
    match lastIndex? id before with
    | some earlier => .repeatedId before.length id earlier :: later
    | none => later

/-- The outcome for the identifiers of a corpus. -/
def ofIds (ids : List String) : Report :=
  ⟨repetitions [] ids, []⟩

end Report

end LogWatch.Rule
