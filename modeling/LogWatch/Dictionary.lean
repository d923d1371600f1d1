/-!
# Dictionaries

A dictionary is a list of named values in ascending order of the names, each name once.  The order
is that of the code points, so it does not depend on how the dictionary was built.
-/

namespace LogWatch

/-- Named values in ascending order of their names. -/
abbrev Dictionary (α : Type) := List (String × α)

namespace Dictionary

variable {α β : Type}

/-- The value of a name. -/
def find? (name : String) : Dictionary α → Option α
  | [] => none
  | (n, a) :: rest => if n = name then some a else find? name rest

/-- The dictionary in which a name has the given value. -/
def insert (name : String) (a : α) : Dictionary α → Dictionary α
  | [] => [(name, a)]
  | (n, b) :: rest =>
    if name = n then (name, a) :: rest
    else if name < n then (name, a) :: (n, b) :: rest
    else (n, b) :: insert name a rest

/-- The dictionary of some named values; of equal names the last one wins. -/
def ofPairs (pairs : List (String × α)) : Dictionary α :=
  pairs.foldl (fun d p => insert p.1 p.2 d) []

/-- The names, in ascending order. -/
def names (d : Dictionary α) : List String :=
  d.map (·.1)

/-- What has just been inserted is found. -/
theorem find?_insert_self (name : String) (a : α) (d : Dictionary α) :
    find? name (insert name a d) = some a := by
  induction d with
  | nil => simp [insert, find?]
  | cons p rest ih =>
    obtain ⟨n, b⟩ := p
    unfold insert
    split
    · simp [find?]
    · rename_i hne
      split
      · simp [find?]
      · simp [find?, Ne.symm hne, ih]

/-- An insertion does not change what other names stand for. -/
theorem find?_insert_of_ne {name other : String} (h : other ≠ name) (a : α) (d : Dictionary α) :
    find? other (insert name a d) = find? other d := by
  induction d with
  | nil => simp [insert, find?, Ne.symm h]
  | cons p rest ih =>
    obtain ⟨n, b⟩ := p
    unfold insert
    split
    · rename_i heq
      subst heq
      simp [find?, Ne.symm h]
    · split
      · simp [find?, Ne.symm h]
      · simp [find?, ih]

/-- What is found under a name is listed with it. -/
theorem mem_of_find? {name : String} {a : α} {d : Dictionary α} (h : find? name d = some a) :
    (name, a) ∈ d := by
  induction d with
  | nil => cases h
  | cons p rest ih =>
    obtain ⟨n, b⟩ := p
    rw [find?] at h
    by_cases hn : n = name
    · rw [if_pos hn] at h
      cases h
      subst hn
      exact List.mem_cons_self
    · rw [if_neg hn] at h
      exact List.mem_cons_of_mem _ (ih h)

/-- Where no name comes twice, what is listed is found. -/
theorem find?_of_mem {d : Dictionary α} (hd : d.names.Nodup) {p : String × α} (hp : p ∈ d) :
    find? p.1 d = some p.2 := by
  induction d with
  | nil => cases hp
  | cons q rest ih =>
    rw [names, List.map_cons, List.nodup_cons] at hd
    rw [find?]
    rcases List.mem_cons.1 hp with rfl | hp
    · rw [if_pos rfl]
    · have hne : q.1 ≠ p.1 := fun h => hd.1 (h ▸ List.mem_map_of_mem hp)
      rw [if_neg hne]
      exact ih hd.2 hp

end Dictionary

end LogWatch
