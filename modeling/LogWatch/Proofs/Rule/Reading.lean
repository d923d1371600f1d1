import LogWatch.Proofs.Rule.Evaluation

/-!
# The Boolean reading of conditions

An evaluation stops as soon as the answer is settled, and it fails at the first selection that cannot be
evaluated.  The Boolean reading of a condition knows neither: it asks for the truth of every selection.
Here is how the two agree.

* `Condition.reading` — the truth of an expression, given that of each selection;
* `Condition.truth` — what the selections evaluate to, with a guess for those that cannot be evaluated;
* `Condition.Uses` — a selection occurs in an expression or in a set that it quantifies over;
* `Condition.Reordered` — operands have changed places, at any depth;
* `Condition.holds_settles_reading` — an answer is the reading under every guess, an error is that of a
  selection in use, and without errors the order of operands does not matter.
-/

namespace LogWatch.Rule

namespace Condition

/-! ## The reading -/

/-- The names that belong to a set. -/
def chosen (known : List String) (set : SelectionSet) : List String :=
  known.filter set.contains

mutual

/-- The truth of an expression over selections of the given names, given the truth of each. -/
def reading (known : List String) (truth : String → Bool) : Condition → Bool
  | .selection name => truth name
  | .not c => !reading known truth c
  | .and cs => readingOfAll known truth cs
  | .or cs => readingOfAny known truth cs
  | .oneOf set => (chosen known set).any truth
  | .allOf set => !(chosen known set).isEmpty && (chosen known set).all truth

/-- Are all of some expressions true? -/
def readingOfAll (known : List String) (truth : String → Bool) : List Condition → Bool
  | [] => true
  | c :: rest => reading known truth c && readingOfAll known truth rest

/-- Is one of some expressions true? -/
def readingOfAny (known : List String) (truth : String → Bool) : List Condition → Bool
  | [] => false
  | c :: rest => reading known truth c || readingOfAny known truth rest

end

/-- The truth of each selection: what it evaluates to, or a guess if it cannot be evaluated. -/
def truth (selections : Dictionary Selection) (names : FieldNames) (fields : FieldMap)
    (guess : String → Bool) (name : String) : Bool :=
  match selections.find? name with
  | none => guess name
  | some s =>
    match s.holds names fields with
    | .ok b => b
    | .error _ => guess name

/-- A selection occurs in an expression, or belongs to a set that it quantifies over. -/
def Uses (c : Condition) (name : String) : Prop :=
  Part (.selection name) c ∨ ∃ set, c.Quantifies set ∧ set.contains name = true

/-- The operands of some "and" and "or" have changed places. -/
inductive Reordered : Condition → Condition → Prop
  | refl (c : Condition) : Reordered c c
  | trans {c d e : Condition} : Reordered c d → Reordered d e → Reordered c e
  | and {cs ds : List Condition} : cs.Perm ds → Reordered (.and cs) (.and ds)
  | or {cs ds : List Condition} : cs.Perm ds → Reordered (.or cs) (.or ds)
  | inNot {c d : Condition} : Reordered c d → Reordered (.not c) (.not d)
  | inAnd {c d : Condition} (before after : List Condition) : Reordered c d →
      Reordered (.and (before ++ c :: after)) (.and (before ++ d :: after))
  | inOr {c d : Condition} (before after : List Condition) : Reordered c d →
      Reordered (.or (before ++ c :: after)) (.or (before ++ d :: after))

/-! ## Lists of operands -/

section Operands

variable {known : List String} {given : String → Bool}

theorem readingOfAll_eq (cs : List Condition) :
    readingOfAll known given cs = cs.all (reading known given) := by
  induction cs with
  | nil => rfl
  | cons c cs ih => rw [readingOfAll, ih, List.all_cons]

theorem readingOfAny_eq (cs : List Condition) :
    readingOfAny known given cs = cs.any (reading known given) := by
  induction cs with
  | nil => rfl
  | cons c cs ih => rw [readingOfAny, ih, List.any_cons]

variable {selections : Dictionary Selection} {names : FieldNames} {fields : FieldMap}

theorem holdAll_eq (cs : List Condition) :
    holdAll selections names fields cs = allHold (holds selections names fields) cs := by
  induction cs with
  | nil => rfl
  | cons c cs ih =>
    cases hholds : holds selections names fields c with
    | error e => rw [holdAll, allHold, hholds]
    | ok b =>
      cases b with
      | false => rw [holdAll, allHold, hholds]
      | true =>
        rw [holdAll, allHold, hholds]
        exact ih

theorem holdsAny_eq (cs : List Condition) :
    holdsAny selections names fields cs = anyHolds (holds selections names fields) cs := by
  induction cs with
  | nil => rfl
  | cons c cs ih =>
    cases hholds : holds selections names fields c with
    | error e => rw [holdsAny, anyHolds, hholds]
    | ok b =>
      cases b with
      | false =>
        rw [holdsAny, anyHolds, hholds]
        exact ih
      | true => rw [holdsAny, anyHolds, hholds]

end Operands

/-- What holds of every expression if it passes from the operands to what is made of them. -/
theorem byOperands {motive : Condition → Prop} (selection : ∀ name, motive (.selection name))
    (not : ∀ c, motive c → motive (.not c))
    (and : ∀ cs, (∀ c ∈ cs, motive c) → motive (.and cs))
    (or : ∀ cs, (∀ c ∈ cs, motive c) → motive (.or cs))
    (oneOf : ∀ set, motive (.oneOf set)) (allOf : ∀ set, motive (.allOf set)) (c : Condition) :
    motive c :=
  @Condition.rec motive (fun cs => ∀ c ∈ cs, motive c) selection not and or oneOf allOf
    (List.forall_mem_nil _) (fun _ _ hc hcs => List.forall_mem_cons.2 ⟨hc, hcs⟩) c

/-! ## Selections in use -/

section Uses

variable {name : String}

theorem uses_selection (name : String) : (selection name).Uses name :=
  .inl (.self _)

theorem uses_not_iff {c : Condition} : (not c).Uses name ↔ c.Uses name := by
  simp only [Uses, (Leaf.selection name).part_not_iff, quantifies_not_iff]

theorem uses_and_iff {cs : List Condition} : (and cs).Uses name ↔ ∃ c ∈ cs, c.Uses name := by
  simp only [Uses, (Leaf.selection name).part_and_iff, quantifies_and_iff]
  grind

theorem uses_or_iff {cs : List Condition} : (or cs).Uses name ↔ ∃ c ∈ cs, c.Uses name := by
  simp only [Uses, (Leaf.selection name).part_or_iff, quantifies_or_iff]
  grind

theorem uses_oneOf {set : SelectionSet} (h : set.contains name = true) : (oneOf set).Uses name :=
  .inr ⟨set, quantifies_oneOf_iff.2 rfl, h⟩

theorem uses_allOf {set : SelectionSet} (h : set.contains name = true) : (allOf set).Uses name :=
  .inr ⟨set, quantifies_allOf_iff.2 rfl, h⟩

end Uses

end Condition

/-! ## Tests one after the other -/

section Chains

variable {α β : Type} {test : α → Except EvalError Bool} {as : List α} {b : Bool}

theorem allHold_map (f : β → α) (bs : List β) :
    allHold test (bs.map f) = allHold (fun x => test (f x)) bs := by
  induction bs with
  | nil => rfl
  | cons x bs ih => rw [List.map_cons, allHold, allHold, ih]

theorem anyHolds_map (f : β → α) (bs : List β) :
    anyHolds test (bs.map f) = anyHolds (fun x => test (f x)) bs := by
  induction bs with
  | nil => rfl
  | cons x bs ih => rw [List.map_cons, anyHolds, anyHolds, ih]

/-- The tests that are skipped could not change the answer. -/
theorem all_eq_of_allHold {value : α → Bool} (h : allHold test as = .ok b)
    (hvalue : ∀ a ∈ as, ∀ v, test a = .ok v → value a = v) : as.all value = b := by
  induction as with
  | nil =>
    cases h
    rfl
  | cons a as ih =>
    rw [List.forall_mem_cons] at hvalue
    rw [List.all_cons]
    rw [allHold] at h
    split at h
    · cases h
    · rename_i ha
      cases h
      rw [hvalue.1 _ ha, Bool.false_and]
    · rename_i ha
      rw [hvalue.1 _ ha, Bool.true_and]
      exact ih h hvalue.2

theorem any_eq_of_anyHolds {value : α → Bool} (h : anyHolds test as = .ok b)
    (hvalue : ∀ a ∈ as, ∀ v, test a = .ok v → value a = v) : as.any value = b := by
  induction as with
  | nil =>
    cases h
    rfl
  | cons a as ih =>
    rw [List.forall_mem_cons] at hvalue
    rw [List.any_cons]
    rw [anyHolds] at h
    split at h
    · cases h
    · rename_i ha
      cases h
      rw [hvalue.1 _ ha, Bool.true_or]
    · rename_i ha
      rw [hvalue.1 _ ha, Bool.false_or]
      exact ih h hvalue.2

end Chains

namespace Condition

/-! ## Evaluation and reading -/

section Evaluation

variable {selections : Dictionary Selection} {names : FieldNames} {fields : FieldMap}

/-- What can be evaluated is not guessed. -/
theorem truth_of_find? {guess : String → Bool} {name : String} {s : Selection} {b : Bool}
    (hfind : selections.find? name = some s) (h : s.holds names fields = .ok b) :
    truth selections names fields guess name = b := by
  rw [truth, hfind]
  show (match s.holds names fields with | .ok b => b | .error _ => guess name) = b
  rw [h]

/-- The selections of a set that are listed, with their names. -/
def listed (set : SelectionSet) (selections : Dictionary Selection) : Dictionary Selection :=
  selections.filter fun p => set.contains p.1

theorem members_eq (set : SelectionSet) (selections : Dictionary Selection) :
    members set selections = (listed set selections).map (·.2) :=
  rfl

theorem chosen_eq (set : SelectionSet) (selections : Dictionary Selection) :
    chosen selections.names set = (listed set selections).map (·.1) := by
  rw [chosen, Dictionary.names, List.filter_map]
  rfl

theorem mem_listed {set : SelectionSet} {p : String × Selection} :
    p ∈ listed set selections ↔ p ∈ selections ∧ set.contains p.1 = true :=
  List.mem_filter

/-- An answer is what the condition says, whatever the selections that it has passed over are taken
for. -/
theorem reading_of_holds (hmap : selections.names.Nodup) (guess : String → Bool) {c : Condition}
    {b : Bool} (h : holds selections names fields c = .ok b) :
    reading selections.names (truth selections names fields guess) c = b := by
  have htruth : ∀ p ∈ selections, ∀ v, p.2.holds names fields = .ok v →
      truth selections names fields guess p.1 = v := by
    intro p hp v hv
    exact truth_of_find? (Dictionary.find?_of_mem hmap hp) hv
  induction c using byOperands generalizing b with
  | selection name =>
    rw [holds] at h
    split at h
    · rename_i s hfind
      exact truth_of_find? hfind h
    · cases h
  | not c ih =>
    rw [holds] at h
    split at h
    · cases h
    · rename_i v hv
      cases h
      rw [reading, ih hv]
  | and cs ih =>
    rw [holds, holdAll_eq] at h
    rw [reading, readingOfAll_eq]
    exact all_eq_of_allHold h fun c hc v hv => ih c hc hv
  | or cs ih =>
    rw [holds, holdsAny_eq] at h
    rw [reading, readingOfAny_eq]
    exact any_eq_of_anyHolds h fun c hc v hv => ih c hc hv
  | oneOf set =>
    rw [holds, members_eq, anyHolds_map] at h
    rw [reading, chosen_eq, List.any_map]
    exact any_eq_of_anyHolds h fun p hp => htruth p (mem_listed.1 hp).1
  | allOf set =>
    rw [reading, chosen_eq]
    rw [holds, members_eq] at h
    split at h
    · rename_i hnone
      cases h
      rw [List.map_eq_nil_iff.1 hnone]
      rfl
    · rename_i hsome
      rw [allHold_map] at h
      have hne : listed set selections ≠ [] := fun heq => hsome (by rw [heq]; rfl)
      have hnonempty : ((listed set selections).map (·.1)).isEmpty = false := by simpa using hne
      rw [hnonempty, Bool.not_false, Bool.true_and, List.all_map]
      exact all_eq_of_allHold h fun p hp => htruth p (mem_listed.1 hp).1

/-- Where no selection is missing, an evaluation fails only with the error of a selection in use. -/
theorem exists_of_holds_eq_error {c : Condition} {e : EvalError}
    (hknown : ∀ name, Part (.selection name) c → ∃ s, selections.find? name = some s)
    (h : holds selections names fields c = .error e) :
    ∃ p ∈ selections, c.Uses p.1 ∧ p.2.holds names fields = .error e := by
  induction c using byOperands with
  | selection name =>
    obtain ⟨s, hs⟩ := hknown name (.self _)
    rw [holds, hs] at h
    exact ⟨(name, s), Dictionary.mem_of_find? hs, uses_selection name, h⟩
  | not c ih =>
    rw [holds] at h
    split at h
    · rename_i fault hfault
      cases h
      obtain ⟨p, hp, huses, herror⟩ := ih (fun name hpart => hknown name (.not hpart)) hfault
      exact ⟨p, hp, uses_not_iff.2 huses, herror⟩
    · cases h
  | and cs ih =>
    rw [holds, holdAll_eq] at h
    obtain ⟨c, hc, hfault⟩ := exists_of_allHold_eq_error h
    obtain ⟨p, hp, huses, herror⟩ := ih c hc (fun name hpart => hknown name (.and hc hpart)) hfault
    exact ⟨p, hp, uses_and_iff.2 ⟨c, hc, huses⟩, herror⟩
  | or cs ih =>
    rw [holds, holdsAny_eq] at h
    obtain ⟨c, hc, hfault⟩ := exists_of_anyHolds_eq_error h
    obtain ⟨p, hp, huses, herror⟩ := ih c hc (fun name hpart => hknown name (.or hc hpart)) hfault
    exact ⟨p, hp, uses_or_iff.2 ⟨c, hc, huses⟩, herror⟩
  | oneOf set =>
    rw [holds, members_eq, anyHolds_map] at h
    obtain ⟨p, hp, herror⟩ := exists_of_anyHolds_eq_error h
    obtain ⟨hmem, hset⟩ := mem_listed.1 hp
    exact ⟨p, hmem, uses_oneOf hset, herror⟩
  | allOf set =>
    rw [holds, members_eq] at h
    split at h
    · cases h
    · rw [allHold_map] at h
      obtain ⟨p, hp, herror⟩ := exists_of_allHold_eq_error h
      obtain ⟨hmem, hset⟩ := mem_listed.1 hp
      exact ⟨p, hmem, uses_allOf hset, herror⟩

end Evaluation

/-! ## The order of operands -/

namespace Reordered

variable {c d : Condition}

/-- What an expression has because an operand has it does not depend on the order of operands. -/
theorem iff_of_operands {p : Condition → Prop} (hnot : ∀ c, p (.not c) ↔ p c)
    (hand : ∀ cs, p (.and cs) ↔ ∃ c ∈ cs, p c) (hor : ∀ cs, p (.or cs) ↔ ∃ c ∈ cs, p c)
    (h : Reordered c d) : p c ↔ p d := by
  induction h with
  | refl c => exact Iff.rfl
  | trans _ _ ihc ihd => exact ihc.trans ihd
  | and hperm => simp only [hand, hperm.mem_iff]
  | or hperm => simp only [hor, hperm.mem_iff]
  | inNot _ ih => simp only [hnot, ih]
  | inAnd before after _ ih =>
    simp only [hand, List.mem_append, List.mem_cons, or_and_right, exists_or, exists_eq_left, ih]
  | inOr before after _ ih =>
    simp only [hor, List.mem_append, List.mem_cons, or_and_right, exists_or, exists_eq_left, ih]

theorem uses_iff (h : Reordered c d) {name : String} : c.Uses name ↔ d.Uses name :=
  @iff_of_operands c d (·.Uses name) (fun _ => uses_not_iff) (fun _ => uses_and_iff)
    (fun _ => uses_or_iff) h

theorem part_iff (h : Reordered c d) {name : String} :
    Part (.selection name) c ↔ Part (.selection name) d := by
  have hleaf := Leaf.selection name
  exact @iff_of_operands c d (Part (.selection name)) (fun _ => hleaf.part_not_iff)
    (fun _ => hleaf.part_and_iff) (fun _ => hleaf.part_or_iff) h

/-- The reading does not depend on the order of operands. -/
theorem reading_eq (h : Reordered c d) (known : List String) (given : String → Bool) :
    reading known given c = reading known given d := by
  induction h with
  | refl c => rfl
  | trans _ _ ihc ihd => exact ihc.trans ihd
  | and hperm => rw [reading, reading, readingOfAll_eq, readingOfAll_eq, hperm.all_eq]
  | or hperm => rw [reading, reading, readingOfAny_eq, readingOfAny_eq, hperm.any_eq]
  | inNot _ ih => rw [reading, reading, ih]
  | inAnd before after _ ih =>
    simp only [reading, readingOfAll_eq, List.all_append, List.all_cons, ih]
  | inOr before after _ ih =>
    simp only [reading, readingOfAny_eq, List.any_append, List.any_cons, ih]

end Reordered

/-! ## What an evaluation says -/

/-- An answer is the reading of the condition, whatever the selections that cannot be evaluated are taken
for.  An error is that of a selection in use.  If no selection in use has one, the answer is the reading
and the order of operands does not matter. -/
theorem holds_settles_reading {selections : Dictionary Selection} {condition : Condition}
    (hmap : selections.names.Nodup)
    (hknown : ∀ name, Part (.selection name) condition → ∃ s, selections.find? name = some s)
    (names : FieldNames) (fields : FieldMap) :
    (∀ b, holds selections names fields condition = .ok b → ∀ guess,
      reading selections.names (truth selections names fields guess) condition = b) ∧
    (∀ e, holds selections names fields condition = .error e →
      ∃ p ∈ selections, condition.Uses p.1 ∧ p.2.holds names fields = .error e) ∧
    ((∀ p ∈ selections, condition.Uses p.1 → ∃ b, p.2.holds names fields = .ok b) →
      ∀ guess other, Reordered condition other →
        holds selections names fields other =
          .ok (reading selections.names (truth selections names fields guess) condition)) := by
  refine ⟨fun b h guess => reading_of_holds hmap guess h,
    fun e h => exists_of_holds_eq_error hknown h, ?_⟩
  intro hsound guess other hother
  cases h : holds selections names fields other with
  | ok b => rw [hother.reading_eq, reading_of_holds hmap guess h]
  | error e =>
    have hknown' : ∀ name, Part (.selection name) other → ∃ s, selections.find? name = some s :=
      fun name hpart => hknown name (hother.part_iff.2 hpart)
    obtain ⟨p, hp, huses, herror⟩ := exists_of_holds_eq_error hknown' h
    obtain ⟨b, hb⟩ := hsound p hp (hother.uses_iff.2 huses)
    rw [hb] at herror
    cases herror

/-- One selection holds of a record; another one asks for a field that holds a map. -/
def alertAndBroken : Dictionary Selection :=
  [("alert", .keywords [.text "root"]), ("broken", .groups [[⟨"peer", .anyOf [.null]⟩]])]

/-- A record with a text and a map. -/
def rootWithPeer : FieldMap :=
  [("peer", .map []), ("user", .text "root")]

/-- A negation of two alternatives is settled by the first one, though the second one is in error. -/
theorem holds_settles_reading_alertAndBroken :
    holds alertAndBroken {} rootWithPeer (.selection "broken") =
      .error (.unsupportedType "peer" "map") ∧
    holds alertAndBroken {} rootWithPeer (.not (.or [.selection "alert", .selection "broken"])) =
      .ok false ∧
    ∀ guess, reading ["alert", "broken"] (truth alertAndBroken {} rootWithPeer guess)
      (.not (.or [.selection "alert", .selection "broken"])) = false := by
  have hknown : ∀ name,
      Part (.selection name) (.not (.or [.selection "alert", .selection "broken"])) →
      ∃ s, alertAndBroken.find? name = some s := by
    intro name hpart
    rw [(Leaf.selection name).part_not_iff, (Leaf.selection name).part_or_iff] at hpart
    obtain ⟨c, hc, hpart⟩ := hpart
    have hcases : c = .selection "alert" ∨ c = .selection "broken" := by simpa using hc
    rcases hcases with rfl | rfl
    · cases (Leaf.selection "alert").part_iff.1 hpart
      exact ⟨_, rfl⟩
    · cases (Leaf.selection "broken").part_iff.1 hpart
      exact ⟨_, rfl⟩
  have hanswer : holds alertAndBroken {} rootWithPeer
      (.not (.or [.selection "alert", .selection "broken"])) = .ok false := rfl
  exact ⟨rfl, hanswer,
    (holds_settles_reading (by decide) hknown {} rootWithPeer).1 false hanswer⟩

end Condition

end LogWatch.Rule
