import LogWatch.Rule.Corpus
import Mathlib.Logic.Relation

/-!
# Reloads that overlap

A reload first reads the repository and then puts into use what it has read.  Several of them may be
under way, and the repository may change at any time, also between the two steps of a reload.

* `Reloads`, `Reloads.Step` — the repository, the corpus in use, and the reloads that are under way;
* `Reloads.run_reload` — a reload that nothing comes between is what the engine does at once;
* `Reloads.Invariant` — what has been read is what the repository said at that time;
* `Reloads.corpus_of_last_return` — the corpus in use is that of the reload which came back last, so it is
  out of date just when that one had read something else than what the repository says now;
* `Reloads.outdated_after_late_return` — this happens: a reload that comes back late undoes a newer one.
-/

namespace LogWatch.Rule

/-- The corpus in use after a reload has come back with what it has read. -/
def RuleCorpus.swap (c : RuleCorpus) : Except LoadError RuleCorpus → RuleCorpus
  | .ok loaded => loaded
  | .error _ => c

/-- A reload puts into use what it has read, and tells how many rules that has. -/
theorem RuleCorpus.reload_eq (c : RuleCorpus) (r : Repository) :
    c.reload r = ((load r).map (·.rules.length), c.swap (load r)) := by
  rw [reload]
  cases load r with
  | ok loaded => rfl
  | error e => rfl

/-- A reload that has read the repository and has not come back yet. -/
structure Reading where
  /-- How often the repository had changed when it was read. -/
  version : Nat
  outcome : Except LoadError RuleCorpus

/-- A reload that has come back. -/
structure Return where
  /-- How often the repository had changed when it was read. -/
  version : Nat
  result : Except LoadError Nat

/-- A repository that changes, and the reloads from it. -/
structure Reloads where
  /-- What the repository has said before, the oldest in front. -/
  past : List Repository
  repository : Repository
  /-- The corpus in use. -/
  corpus : RuleCorpus
  readings : List Reading
  /-- The reloads that have come back, in order. -/
  returns : List Return

namespace Reloads

/-- How often the repository has changed. -/
def version (s : Reloads) : Nat :=
  s.past.length

/-- What the repository said after it had changed so often. -/
def saidAt? (s : Reloads) (version : Nat) : Option Repository :=
  (s.past ++ [s.repository])[version]?

/-- What can happen next. -/
inductive Step (s : Reloads) : Reloads → Prop
  /-- The repository changes. -/
  | change (r : Repository) :
      Step s { s with past := s.past ++ [s.repository], repository := r }
  /-- A reload begins and reads the repository. -/
  | read :
      Step s { s with readings := s.readings ++ [⟨s.version, RuleCorpus.load s.repository⟩] }
  /-- A reload puts into use what it has read, if it could be loaded, and comes back. -/
  | swap {before after : List Reading} {x : Reading} : s.readings = before ++ x :: after →
      Step s { s with
        corpus := s.corpus.swap x.outcome
        readings := before ++ after
        returns := s.returns ++ [⟨x.version, x.outcome.map (·.rules.length)⟩] }

/-- Steps one after the other. -/
abbrev Run : Reloads → Reloads → Prop :=
  Relation.ReflTransGen Step

/-- A reload that nothing comes between is one of the reloads that the engine makes at once. -/
theorem run_reload (s : Reloads) :
    s.Run { s with
      corpus := (s.corpus.reload s.repository).2
      returns := s.returns ++ [⟨s.version, (s.corpus.reload s.repository).1⟩] } := by
  have hswap := @Step.swap
    { s with readings := s.readings ++ [⟨s.version, RuleCorpus.load s.repository⟩] } s.readings [] _ rfl
  rw [List.append_nil] at hswap
  rw [RuleCorpus.reload_eq]
  exact (Relation.ReflTransGen.single .read).tail hswap

/-- A step of reloads that exclude one another: none begins while another one is under way. -/
def ExclusiveStep (s t : Reloads) : Prop :=
  s.Step t ∧ (s.readings ≠ [] → t.readings.length ≤ s.readings.length)

/-- A repository with its corpus, before anything happens. -/
def start (r : Repository) (c : RuleCorpus) : Reloads :=
  ⟨[], r, c, [], []⟩

/-- Which version of the repository the reload had read that came back last with a corpus; the first one if
there is no such reload. -/
def source (s : Reloads) : Nat :=
  ((s.returns.filter (·.result.isOk)).getLast?.map (·.version)).getD 0

/-- A reload that began after the last change has come back with a corpus. -/
def Renewed (s : Reloads) : Prop :=
  ∃ x ∈ s.returns, x.version = s.version ∧ x.result.isOk = true

/-- Reloads with a corpus have come back in the order of what they had read. -/
def InOrder (s : Reloads) : Prop :=
  s.returns.Pairwise fun x y => x.result.isOk = true → y.result.isOk = true → x.version ≤ y.version

/-! ## What has been read -/

/-- What holds at all times. -/
structure Invariant (s : Reloads) : Prop where
  readings : ∀ x ∈ s.readings, ∃ r, s.saidAt? x.version = some r ∧ x.outcome = RuleCorpus.load r
  returns : ∀ x ∈ s.returns, x.version ≤ s.version
  corpus : ∃ r, s.saidAt? s.source = some r ∧ RuleCorpus.load r = .ok s.corpus

theorem saidAt?_version (s : Reloads) : s.saidAt? s.version = some s.repository := by
  rw [saidAt?, version, List.getElem?_append_right (Nat.le_refl _), Nat.sub_self]
  rfl

theorem le_version_of_saidAt? {s : Reloads} {n : Nat} {r : Repository} (h : s.saidAt? n = some r) :
    n ≤ s.version := by
  obtain ⟨hlt, -⟩ := List.getElem?_eq_some_iff.1 h
  rw [List.length_append] at hlt
  exact Nat.le_of_lt_succ hlt

/-- What the repository has said is not changed by what it says later. -/
theorem saidAt?_change {s : Reloads} {n : Nat} {r : Repository} (h : s.saidAt? n = some r)
    (later : Repository) :
    saidAt? { s with past := s.past ++ [s.repository], repository := later } n = some r := by
  obtain ⟨hlt, -⟩ := List.getElem?_eq_some_iff.1 h
  rw [saidAt?, List.getElem?_append_left hlt]
  exact h

theorem source_concat (s : Reloads) (x : Return) :
    source { s with returns := s.returns ++ [x] } =
      if x.result.isOk then x.version else s.source := by
  rw [source, List.filter_append]
  cases hx : x.result.isOk with
  | true => simp [hx]
  | false => simp [hx, source]

theorem invariant_start {r : Repository} {c : RuleCorpus} (h : RuleCorpus.load r = .ok c) :
    (start r c).Invariant where
  readings := fun _ hx => nomatch hx
  returns := fun _ hx => nomatch hx
  corpus := ⟨r, rfl, h⟩

namespace Invariant

variable {s : Reloads} (h : s.Invariant)

include h

theorem change (r : Repository) :
    Invariant { s with past := s.past ++ [s.repository], repository := r } where
  readings := by
    intro x hx
    obtain ⟨said, hsaid, houtcome⟩ := h.readings x hx
    exact ⟨said, saidAt?_change hsaid r, houtcome⟩
  returns := by
    intro x hx
    refine Nat.le_trans (h.returns x hx) ?_
    rw [version, version, List.length_append]
    exact Nat.le_add_right _ _
  corpus := by
    obtain ⟨said, hsaid, hload⟩ := h.corpus
    exact ⟨said, saidAt?_change hsaid r, hload⟩

theorem read :
    Invariant { s with readings := s.readings ++ [⟨s.version, RuleCorpus.load s.repository⟩] } where
  readings := by
    intro x hx
    rcases List.mem_append.1 hx with hx | hx
    · exact h.readings x hx
    · rw [List.mem_singleton.1 hx]
      exact ⟨s.repository, saidAt?_version s, rfl⟩
  returns := h.returns
  corpus := h.corpus

theorem swap {before after : List Reading} {x : Reading}
    (hreadings : s.readings = before ++ x :: after) :
    Invariant { s with
      corpus := s.corpus.swap x.outcome
      readings := before ++ after
      returns := s.returns ++ [⟨x.version, x.outcome.map (·.rules.length)⟩] } := by
  have hx : x ∈ s.readings := by
    rw [hreadings]
    exact List.mem_append_right _ List.mem_cons_self
  obtain ⟨said, hsaid, houtcome⟩ := h.readings x hx
  refine ⟨?_, ?_, ?_⟩
  · intro y hy
    refine h.readings y ?_
    rw [hreadings]
    exact List.mem_append.2 ((List.mem_append.1 hy).imp_right (List.mem_cons_of_mem _))
  · intro y hy
    rcases List.mem_append.1 hy with hy | hy
    · exact h.returns y hy
    · rw [List.mem_singleton.1 hy]
      exact le_version_of_saidAt? hsaid
  · have hsource := source_concat s ⟨x.version, x.outcome.map (·.rules.length)⟩
    cases hloaded : x.outcome with
    | ok loaded =>
      rw [hloaded] at hsource
      refine ⟨said, ?_, houtcome.symm.trans hloaded⟩
      exact (congrArg s.saidAt? hsource).trans hsaid
    | error e =>
      rw [hloaded] at hsource
      obtain ⟨kept, hkept, hload⟩ := h.corpus
      exact ⟨kept, (congrArg s.saidAt? hsource).trans hkept, hload⟩

theorem step {t : Reloads} (hstep : s.Step t) : t.Invariant := by
  cases hstep with
  | change r => exact h.change r
  | read => exact h.read
  | swap hreadings => exact h.swap hreadings

theorem run {t : Reloads} (hrun : s.Run t) : t.Invariant := by
  induction hrun with
  | refl => exact h
  | tail _ hstep ih => exact ih.step hstep

/-- When reloads come back in order, the corpus in use is the newest that has come back. -/
theorem source_eq_version (hrenewed : s.Renewed) (horder : s.InOrder) : s.source = s.version := by
  obtain ⟨x, hx, hversion, hok⟩ := hrenewed
  have hmem : x ∈ s.returns.filter (·.result.isOk) := List.mem_filter.2 ⟨hx, hok⟩
  have hsorted := List.Pairwise.filter (·.result.isOk) horder
  rw [source]
  rcases List.eq_nil_or_concat (s.returns.filter (·.result.isOk)) with hnil | ⟨front, last, hlast⟩
  · rw [hnil] at hmem
    cases hmem
  · rw [List.concat_eq_append] at hlast
    have hin : last ∈ s.returns.filter (·.result.isOk) := by
      rw [hlast]
      exact List.mem_append_right _ List.mem_cons_self
    obtain ⟨hreturned, hlastok⟩ := List.mem_filter.1 hin
    rw [hlast, List.getLast?_concat]
    refine Nat.le_antisymm (h.returns last hreturned) ?_
    rw [← hversion]
    rw [hlast] at hmem hsorted
    rcases List.mem_append.1 hmem with hfront | hself
    · exact (List.pairwise_append.1 hsorted).2.2 x hfront last List.mem_cons_self hok hlastok
    · rw [List.mem_singleton.1 hself]
      exact Nat.le_refl _

end Invariant

/-! ## Reloads that exclude one another -/

/-- What holds at all times if reloads exclude one another. -/
structure Excluding (s : Reloads) : Prop where
  invariant : s.Invariant
  alone : s.readings.length ≤ 1
  inOrder : s.InOrder
  latest : ∀ x ∈ s.readings, ∀ y ∈ s.returns, y.version ≤ x.version

theorem Excluding.step {s t : Reloads} (h : s.Excluding) (hstep : s.ExclusiveStep t) :
    t.Excluding := by
  obtain ⟨hstep, hexclusive⟩ := hstep
  have hinvariant := h.invariant.step hstep
  cases hstep with
  | change r => exact ⟨hinvariant, h.alone, h.inOrder, h.latest⟩
  | read =>
    have hnone : s.readings = [] := by
      refine Decidable.byContradiction fun hsome => ?_
      have hlonger := hexclusive (by simpa using hsome)
      rw [List.length_append] at hlonger
      exact Nat.not_succ_le_self _ hlonger
    refine ⟨hinvariant, ?_, h.inOrder, ?_⟩
    · rw [hnone]
      exact Nat.le_refl _
    · intro x hx y hy
      rw [hnone, List.nil_append, List.mem_singleton] at hx
      rw [hx]
      exact h.invariant.returns y hy
  | @swap before after x hreadings =>
    have halone := h.alone
    rw [hreadings, List.length_append, List.length_cons] at halone
    have hbefore : before = [] := List.eq_nil_of_length_eq_zero (by omega)
    have hafter : after = [] := List.eq_nil_of_length_eq_zero (by omega)
    have hx : x ∈ s.readings := by
      rw [hreadings]
      exact List.mem_append_right _ List.mem_cons_self
    subst hbefore hafter
    refine ⟨hinvariant, Nat.zero_le _, ?_, fun _ hmem => nomatch hmem⟩
    refine List.pairwise_append.2 ⟨h.inOrder, List.pairwise_singleton _ _, ?_⟩
    intro y hy z hz _ _
    rw [List.mem_singleton.1 hz]
    exact h.latest x hx y hy

theorem excluding_of_run {r : Repository} {c : RuleCorpus} {s : Reloads}
    (h : RuleCorpus.load r = .ok c) (hrun : Relation.ReflTransGen ExclusiveStep (start r c) s) :
    s.Excluding := by
  induction hrun with
  | refl => exact ⟨invariant_start h, Nat.zero_le _, List.Pairwise.nil, fun _ hmem => nomatch hmem⟩
  | tail _ hstep ih => exact ih.step hstep

/-! ## The corpus in use -/

/-- The corpus in use is the one that the reload had read which came back last.  It is that of the
repository as it is now just when this reload had read something that is loaded alike.  After a reload
that began since the last change this is so if reloads come back in the order in which they read, and
they do so if none begins while another one is under way. -/
theorem corpus_of_last_return {first : Repository} {c : RuleCorpus} {s : Reloads}
    (hload : RuleCorpus.load first = .ok c) (hrun : (start first c).Run s) :
    (∃ r, s.saidAt? s.source = some r ∧ RuleCorpus.load r = .ok s.corpus ∧
      (RuleCorpus.load s.repository = .ok s.corpus ↔
        RuleCorpus.load r = RuleCorpus.load s.repository)) ∧
    (s.Renewed → s.InOrder → RuleCorpus.load s.repository = .ok s.corpus) ∧
    (s.Renewed → Relation.ReflTransGen ExclusiveStep (start first c) s →
      RuleCorpus.load s.repository = .ok s.corpus) := by
  have h := (invariant_start hload).run hrun
  obtain ⟨r, hr, hcorpus⟩ := h.corpus
  have hcurrent : s.Renewed → s.InOrder → RuleCorpus.load s.repository = .ok s.corpus := by
    intro hrenewed horder
    rw [h.source_eq_version hrenewed horder, saidAt?_version] at hr
    cases hr
    exact hcorpus
  refine ⟨⟨r, hr, hcorpus, ?_⟩, hcurrent, ?_⟩
  · rw [hcorpus]
    exact eq_comm
  · intro hrenewed hexclusive
    exact hcurrent hrenewed (excluding_of_run hload hexclusive).inOrder

/-- A repository without rules, before and after its names of fields have been given a title. -/
def untitled : Repository :=
  .fixed [] none

def titled : Repository :=
  .fixed [] (some { title := some "fields of the relay" })

/-- A reload reads the repository, which then changes; a second one reads what it says now and comes back,
and then the first one does.  Nothing is under way any more, and the corpus in use is out of date. -/
theorem outdated_after_late_return :
    ∃ s, (start untitled .empty).Run s ∧ s.readings = [] ∧ s.Renewed ∧ ¬ s.InOrder ∧
      RuleCorpus.load s.repository ≠ .ok s.corpus := by
  have hload : RuleCorpus.load untitled = .ok .empty := rfl
  have hrun : (start untitled .empty).Run (start untitled .empty) := .refl
  have hrun := hrun.tail .read
  have hrun := hrun.tail (.change titled)
  have hrun := hrun.tail .read
  have hrun := hrun.tail (@Step.swap _ [⟨0, .ok .empty⟩] [] _ rfl)
  have hrun := hrun.tail (@Step.swap _ [] [] _ rfl)
  obtain ⟨⟨r, hr, -, hcurrent⟩, hordered, -⟩ := corpus_of_last_return hload hrun
  cases hr
  have houtdated := mt hcurrent.1 nofun
  suffices hrenewed : Renewed _ from
    ⟨_, hrun, rfl, hrenewed, fun horder => houtdated (hordered hrenewed horder), houtdated⟩
  exact ⟨⟨1, .ok 0⟩, List.mem_cons_self, rfl, rfl⟩

end Reloads

end LogWatch.Rule
