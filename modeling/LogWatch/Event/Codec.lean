import LogWatch.Event.Basic
import LogWatch.Json.Words

/-!
# Events in JSON

How events are stored, and the written form of their identifiers: thirty-two hexadecimal digits in
five groups.
-/

namespace LogWatch

open Json

/-! ## Identifiers -/

namespace EventId

/-- The lengths of the groups. -/
def groups : List Nat :=
  [8, 4, 4, 4, 12]

/-- Digits cut in groups with hyphens between them. -/
def grouped : List Nat → List Char → List Char
  | [], _ => []
  | [n], cs => cs.take n
  | n :: rest, cs => cs.take n ++ '-' :: grouped rest (cs.drop n)

/-- The written form of an identifier. -/
def toText (id : EventId) : String :=
  let digits := Nat.toDigits 16 id.bits.toNat
  String.ofList (grouped groups (List.replicate (32 - digits.length) '0' ++ digits))

/-- Thirty-two hexadecimal digits. -/
def ofDigits? (cs : List Char) : Option EventId :=
  if cs.length ≠ 32 then none
  else
    (cs.mapM Text.hexValue?).map fun ds =>
      ⟨BitVec.ofNat 128 (ds.foldl (fun n d => n * 16 + d) 0)⟩

/-- Five groups with hyphens between them. -/
def ofGroups? (cs : List Char) : Option EventId :=
  let pieces := Text.splitOn '-' cs
  if pieces.map List.length = groups then ofDigits? pieces.flatten else none

/-- An identifier: in groups, without hyphens, in braces, or after the name of its scheme. -/
def ofText? (s : String) : Option EventId :=
  let cs := s.toList
  if cs.length = 32 then ofDigits? cs
  else if cs.length = 38 ∧ cs.head? = some '\x7b' ∧ cs.getLast? = some '\x7d' then
    ofGroups? (cs.drop 1).dropLast
  else
    match Text.dropStart? "urn:uuid:".toList cs with
    | some rest => ofGroups? rest
    | none => ofGroups? cs

/-- An identifier. -/
def ofJson? (j : Json) : Option EventId :=
  j.str?.bind ofText?

end EventId

/-! ## Events -/

/-- A kind of detection by its name. -/
def DetectionKind.ofJson? (j : Json) : Option DetectionKind :=
  match j.variant? with
  | some "rule" => some .rule
  | some "anomaly" => some .anomaly
  | _ => none

namespace NotifyEvent

/-- The members of an event besides its identifier; an absent score is left out. -/
def members (e : NotifyEvent) : List (String × Json) :=
  [("time", ofTime e.time), ("kind", .str e.kind.name), ("source", .str e.source),
    ("rule_id", .str e.ruleId), ("level", e.level.toJson), ("title", .str e.title),
    ("tags", .arr (e.tags.map .str)), ("body", .str e.body)] ++
    match e.score with
    | some x => [("score", ofFloat x)]
    | none => []

/-- An event as an object. -/
def toJson (e : NotifyEvent) : Json :=
  .obj (("id", .str e.id.toText) :: e.members)

/-- An event; tags default to none. -/
def ofJson? (j : Json) : Option NotifyEvent := do
  match ← j.fields? ["id", "time", "kind", "source", "rule_id", "level", "title", "tags", "body",
    "score"] with
  | [id, time, kind, source, ruleId, level, title, tags, body, score] =>
    some
      { id := ← required? EventId.ofJson? id
        time := ← required? time? time
        kind := ← required? DetectionKind.ofJson? kind
        source := ← required? str? source
        ruleId := ← required? str? ruleId
        level := ← required? Level.ofJson? level
        title := ← required? str? title
        tags := ← withDefault? (list? str?) [] tags
        body := ← required? str? body
        score := ← optional? float? score }
  | _ => none

end NotifyEvent

end LogWatch
