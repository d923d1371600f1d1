import LogWatch.Intake.Grok
import LogWatch.Proofs.Text.Pieces

/-!
# References in patterns

How a pattern is put together from characters and references, and a reference from a name, a field and a
conversion, said without the functions that read them.

* `Spells`, `spells_iff` — the parts of a pattern;
* `Asks`, `asks_iff` — what a reference asks for.
-/

namespace LogWatch.Intake

/-- The word that asks for a conversion. -/
def Conversion.word? : Conversion → Option String
  | .text => none
  | .int => some "int"
  | .float => some "float"

namespace Grok

/-! ## Parts -/

/-- How a reference begins. -/
def opening : List Char :=
  ['%', '\x7b']

/-- A pattern is spelt by some parts, in order.  A reference ends at the first closing brace; one that is
not closed takes all that is left. -/
inductive Spells : List Char → List Part → Prop
  | done : Spells [] []
  | char {c : Char} {rest : List Char} {items : List Part} (hc : ¬ opening <+: c :: rest)
      (hrest : Spells rest items) : Spells (c :: rest) (.char c :: items)
  | reference {text rest : List Char} {items : List Part} (htext : '\x7d' ∉ text)
      (hrest : Spells rest items) :
      Spells (opening ++ (text ++ '\x7d' :: rest)) (.reference text :: items)
  | unterminated {rest : List Char} (hrest : '\x7d' ∉ rest) :
      Spells (opening ++ rest) [.unterminated]

theorem parts_char {c : Char} {rest : List Char} (h : ¬ opening <+: c :: rest) :
    parts (c :: rest) = .char c :: parts rest := by
  rw [parts, partsFrom, ← parts]
  rintro more rfl rfl
  exact h ⟨more, rfl⟩

/-- A reference that is closed, of which some has been read. -/
theorem partsFrom_closed {text : List Char} (h : '\x7d' ∉ text) (seen rest : List Char) :
    partsFrom (some seen) (text ++ '\x7d' :: rest) =
      .reference (seen.reverse ++ text) :: parts rest := by
  induction text generalizing seen with
  | nil => rw [List.nil_append, partsFrom, if_pos rfl, List.append_nil, parts]
  | cons c text ih =>
    rw [List.mem_cons, not_or] at h
    rw [List.cons_append, partsFrom, if_neg (Ne.symm h.1), ih h.2, List.reverse_cons,
      List.append_assoc, List.singleton_append]

theorem partsFrom_open {rest : List Char} (h : '\x7d' ∉ rest) (seen : List Char) :
    partsFrom (some seen) rest = [.unterminated] := by
  induction rest generalizing seen with
  | nil => rfl
  | cons c rest ih =>
    rw [List.mem_cons, not_or] at h
    rw [partsFrom, if_neg (Ne.symm h.1), ih h.2]

/-- The parts are read that a pattern is spelt by. -/
theorem Spells.parts_eq {pattern : List Char} {items : List Part} (h : Spells pattern items) :
    parts pattern = items := by
  induction h with
  | done => rfl
  | char hc _ ih => rw [parts_char hc, ih]
  | reference htext _ ih => exact (partsFrom_closed htext [] _).trans (by rw [ih]; rfl)
  | unterminated hrest => exact partsFrom_open hrest []

/-- Every pattern is spelt by some parts. -/
theorem spells_parts (pattern : List Char) : Spells pattern (parts pattern) := by
  -- Behind a reference the rest is shorter, but it is not the tail.
  induction h : pattern.length using Nat.strongRecOn generalizing pattern with
  | ind n ih =>
    by_cases hopen : opening <+: pattern
    · obtain ⟨rest, rfl⟩ := hopen
      by_cases hclosed : '\x7d' ∈ rest
      · obtain ⟨text, more, rfl, htext⟩ := List.eq_append_cons_of_mem hclosed
        have hshorter : more.length < n := by
          rw [← h, List.length_append, List.length_append, List.length_cons]
          omega
        have hspells := Spells.reference htext (ih _ hshorter more rfl)
        rwa [← hspells.parts_eq] at hspells
      · have hspells := Spells.unterminated hclosed
        rwa [← hspells.parts_eq] at hspells
    · cases pattern with
      | nil => exact Spells.done
      | cons c rest =>
        rw [parts_char hopen]
        exact Spells.char hopen (ih rest.length (by rw [← h, List.length_cons]; omega) rest rfl)

/-- A pattern is spelt by its parts and by no others. -/
theorem spells_iff {pattern : List Char} {items : List Part} :
    Spells pattern items ↔ parts pattern = items :=
  ⟨Spells.parts_eq, fun h => h ▸ spells_parts pattern⟩

/-! ## References -/

/-- The field of a reference; an empty one is none. -/
def fieldOf (field : List Char) : Option String :=
  if field.isEmpty then none else some (String.ofList field)

/-- A reference asks for a definition by name, and behind colons for a field and a number. -/
inductive Asks : List Char → Reference → Prop
  | name {name : List Char} (hname : ':' ∉ name) :
      Asks name ⟨String.ofList name, none, .text⟩
  | field {name field : List Char} (hname : ':' ∉ name) (hfield : ':' ∉ field) :
      Asks (name ++ ':' :: field) ⟨String.ofList name, fieldOf field, .text⟩
  | number {name field : List Char} {c : Conversion} {word : String} (hname : ':' ∉ name)
      (hfield : ':' ∉ field) (hword : c.word? = some word) :
      Asks (name ++ ':' :: (field ++ ':' :: word.toList)) ⟨String.ofList name, fieldOf field, c⟩

/-- A reference is read as what it asks for. -/
theorem Asks.ofText_eq {text : List Char} {r : Reference} (h : Asks text r) :
    Reference.ofText text = .ok r := by
  cases h with
  | name hname =>
    rw [Reference.ofText, Text.splitOn_of_not_mem hname]
    rfl
  | field hname hfield =>
    rw [Reference.ofText, Text.splitOn_append_cons, Text.splitOn_of_not_mem hname,
      Text.splitOn_of_not_mem hfield]
    rfl
  | @number name field c word hname hfield hword =>
    rw [Reference.ofText, Text.splitOn_append_cons, Text.splitOn_append_cons,
      Text.splitOn_of_not_mem hname, Text.splitOn_of_not_mem hfield]
    cases c <;> cases hword <;> rfl

/-- What is read of a reference is what it asks for. -/
theorem asks_of_ofText_eq {text : List Char} {r : Reference} (h : Reference.ofText text = .ok r) :
    Asks text r := by
  have htext := Text.joinWith_splitOn ':' text
  have hpieces : ∀ piece ∈ Text.splitOn ':' text, ':' ∉ piece := fun _ =>
    Text.not_mem_of_mem_splitOn
  rw [Reference.ofText] at h
  generalize Text.splitOn ':' text = pieces at htext hpieces h
  match pieces with
  | [] =>
    cases h
    cases htext
    exact Asks.name List.not_mem_nil
  | [name] =>
    cases h
    cases htext
    exact Asks.name (hpieces name List.mem_cons_self)
  | [name, field] =>
    cases h
    rw [← htext, Text.joinWith_cons name (List.cons_ne_nil _ _)]
    exact Asks.field (hpieces name (by simp)) (hpieces field (by simp))
  | name :: field :: third :: more =>
    have hname := hpieces name (by simp)
    have hfield := hpieces field (by simp)
    rw [← htext, Text.joinWith_cons name (List.cons_ne_nil _ _),
      Text.joinWith_cons field (List.cons_ne_nil _ _),
      ← String.toList_ofList (l := Text.joinWith [':'] (third :: more))]
    dsimp only at h
    split at h
    · rename_i hword
      cases h
      rw [hword]
      exact Asks.number hname hfield rfl
    · split at h
      · rename_i hword
        cases h
        rw [hword]
        exact Asks.number hname hfield rfl
      · cases h

theorem asks_iff {text : List Char} {r : Reference} :
    Asks text r ↔ Reference.ofText text = .ok r :=
  ⟨Asks.ofText_eq, asks_of_ofText_eq⟩

/-- A reference asks for one thing. -/
theorem Asks.unique {text : List Char} {r r' : Reference} (h : Asks text r) (h' : Asks text r') :
    r = r' := by
  have heq := h.ofText_eq.symm.trans h'.ofText_eq
  cases heq
  rfl

end Grok

end LogWatch.Intake
