/-!
# Queues

Stages hand their work on through queues with limited room: what comes first leaves first.

* `Queue.push`, `Queue.next?` — one entry more at the end, one less at the front;
* `Queue.hasRoom` — may another entry come?
-/

namespace LogWatch.Engine

/-- Entries in the order in which they came, and how many there may be. -/
structure Queue (α : Type) where
  capacity : Nat
  entries : List α
deriving DecidableEq, Repr

namespace Queue

variable {α : Type}

/-- A queue without entries. -/
def empty (capacity : Nat) : Queue α :=
  ⟨capacity, []⟩

/-- The number of entries. -/
def size (q : Queue α) : Nat :=
  q.entries.length

/-- May another entry come? -/
def hasRoom (q : Queue α) : Bool :=
  q.size < q.capacity

/-- The queue with an entry more at the end. -/
def push (q : Queue α) (a : α) : Queue α :=
  { q with entries := q.entries ++ [a] }

/-- The entry at the front, and the queue without it. -/
def next? (q : Queue α) : Option (α × Queue α) :=
  match q.entries with
  | [] => none
  | a :: rest => some (a, { q with entries := rest })

@[simp] theorem entries_empty (capacity : Nat) : (empty capacity : Queue α).entries = [] := rfl

@[simp] theorem entries_push (q : Queue α) (a : α) : (q.push a).entries = q.entries ++ [a] := rfl

@[simp] theorem size_push (q : Queue α) (a : α) : (q.push a).size = q.size + 1 := by
  simp [size]

/-- There is no next entry just when the queue is empty. -/
theorem next?_eq_none {q : Queue α} : q.next? = none ↔ q.entries = [] := by
  unfold next?
  split <;> simp_all

/-- The next entry is the first one. -/
theorem next?_eq_some {q r : Queue α} {a : α} :
    q.next? = some (a, r) ↔ q.entries = a :: r.entries ∧ q.capacity = r.capacity := by
  unfold next?
  split
  · simp_all
  · rename_i b rest h
    cases r
    constructor
    · intro e
      cases e
      exact ⟨h, rfl⟩
    · rintro ⟨e, rfl⟩
      rw [h] at e
      cases e
      rfl

/-- Taking an entry leaves one less. -/
theorem size_of_next? {q r : Queue α} {a : α} (h : q.next? = some (a, r)) :
    q.size = r.size + 1 := by
  simp [size, (next?_eq_some.1 h).1]

end Queue

end LogWatch.Engine
