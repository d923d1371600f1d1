import LogWatch.Proofs.Rule.Loading
import Mathlib.Data.List.Forall2
import Mathlib.Data.List.Induction

/-!
# Repeated identifiers

Which places of a list of identifiers are complained about, and which earlier place a complaint names.
The place that is named is the latest one with the identifier, which is the first one only as long as
the identifier has occurred once.

* `Report.IsRepeated`, `Report.IsLatestBefore` — a text that has occurred before, and where it has done so
  last;
* `Report.lastIndex?_eq_some_iff` — the last place of a text in a list;
* `Report.forall₂_repetitions` — the complaints, one for each repeated place, in order;
* `Report.IsLatestBefore.eq_idxOf_iff` — when the latest place is the first one;
* `Report.repetitions_name_latest` — the complaints about a corpus.
-/

namespace LogWatch.Rule.Report

/-! ## Places -/

/-- The text at a place stands at a smaller place too. -/
def IsRepeated (ids : List String) (i : Nat) : Prop :=
  ∃ j < i, ids[j]? = ids[i]?

instance (ids : List String) : DecidablePred (IsRepeated ids) :=
  fun i => inferInstanceAs (Decidable (∃ j < i, ids[j]? = ids[i]?))

/-- The places whose texts stand at smaller places too, in order. -/
def repeatedPlaces (ids : List String) : List Nat :=
  (List.range ids.length).filter fun i => IsRepeated ids i

/-- Among the places in front of `i`, the text `id` stands at `earlier` for the last time. -/
structure IsLatestBefore (ids : List String) (id : String) (i earlier : Nat) : Prop where
  before : earlier < i
  found : ids[earlier]? = some id
  last : ∀ k, earlier < k → k < i → ids[k]? ≠ some id

variable {ids : List String} {id : String} {i earlier : Nat}

/-- There is one latest place at most. -/
theorem IsLatestBefore.unique {other : Nat} (h : IsLatestBefore ids id i earlier)
    (h' : IsLatestBefore ids id i other) : earlier = other := by
  rcases Nat.lt_trichotomy earlier other with hlt | heq | hlt
  · exact absurd h'.found (h.last other hlt h'.before)
  · exact heq
  · exact absurd h.found (h'.last earlier hlt h.before)

/-- Places from `i` on do not matter. -/
theorem isLatestBefore_append (front behind : List String) :
    IsLatestBefore (front ++ behind) id front.length earlier ↔
      IsLatestBefore front id front.length earlier := by
  have hplace : ∀ k < front.length, (front ++ behind)[k]? = front[k]? := fun k hk =>
    List.getElem?_append_left hk
  constructor
  · rintro ⟨hbefore, hfound, hlast⟩
    rw [hplace _ hbefore] at hfound
    exact ⟨hbefore, hfound, fun k hk hlt => hplace k hlt ▸ hlast k hk hlt⟩
  · rintro ⟨hbefore, hfound, hlast⟩
    rw [← hplace _ hbefore] at hfound
    exact ⟨hbefore, hfound, fun k hk hlt => (hplace k hlt).symm ▸ hlast k hk hlt⟩

theorem isRepeated_append_cons {front behind : List String} :
    IsRepeated (front ++ id :: behind) front.length ↔ id ∈ front := by
  rw [IsRepeated, List.mem_iff_getElem?]
  simp only [List.getElem?_append_right (Nat.le_refl _), Nat.sub_self, List.getElem?_cons_zero]
  constructor
  · rintro ⟨j, hj, h⟩
    exact ⟨j, List.getElem?_append_left hj ▸ h⟩
  · rintro ⟨j, h⟩
    obtain ⟨hj, -⟩ := List.getElem?_eq_some_iff.1 h
    exact ⟨j, hj, (List.getElem?_append_left hj).trans h⟩

/-! ## The last place of a text -/

theorem lastIndex?_concat (s t : String) (texts : List String) :
    lastIndex? s (texts ++ [t]) = if t = s then some texts.length else lastIndex? s texts := by
  rw [lastIndex?, List.reverse_concat, List.idxOf?_cons]
  by_cases h : t = s
  · simp [h]
  · simp [h, lastIndex?, Function.comp_def, Nat.sub_sub, Nat.add_comm]

/-- The last place of a text is the latest one in front of the end. -/
theorem lastIndex?_eq_some_iff {texts : List String} :
    lastIndex? id texts = some earlier ↔ IsLatestBefore texts id texts.length earlier := by
  induction texts using List.reverseRecOn with
  | nil => exact iff_of_false (by simp [lastIndex?]) fun h => absurd h.before (Nat.not_lt_zero _)
  | append_singleton texts t ih =>
    rw [lastIndex?_concat, List.length_append, List.length_singleton]
    have hend : (texts ++ [t])[texts.length]? = some t := List.getElem?_concat_length
    by_cases h : t = id
    · rw [if_pos h, Option.some.injEq]
      constructor
      · rintro rfl
        exact ⟨Nat.lt_succ_self _, h ▸ hend, fun k hk hlt => by omega⟩
      · -- Otherwise the end would be a later place.
        rintro ⟨hbefore, -, hlast⟩
        refine Decidable.byContradiction fun hne => ?_
        exact hlast texts.length (by omega) (Nat.lt_succ_self _) (h ▸ hend)
    · rw [if_neg h, ih, ← isLatestBefore_append texts [t]]
      constructor
      · rintro ⟨hbefore, hfound, hlast⟩
        refine ⟨Nat.lt_succ_of_lt hbefore, hfound, fun k hk hlt => ?_⟩
        rcases Nat.lt_succ_iff_lt_or_eq.1 hlt with hlt | rfl
        · exact hlast k hk hlt
        · simpa [hend] using h
      · rintro ⟨hbefore, hfound, hlast⟩
        refine ⟨?_, hfound, fun k hk hlt => hlast k hk (Nat.lt_succ_of_lt hlt)⟩
        refine Nat.lt_of_le_of_ne (Nat.le_of_lt_succ hbefore) ?_
        rintro rfl
        exact h (Option.some.inj (hend.symm.trans hfound))

/-! ## Complaints -/

/-- A complaint about place `i`: it names the text there, and the latest place in front that has it. -/
def TellsOf (ids : List String) (c : Complaint) (i : Nat) : Prop :=
  ∃ id earlier, ids[i]? = some id ∧ IsLatestBefore ids id i earlier ∧ c = .repeatedId i id earlier

/-- There is a complaint for each place that repeats a text, in the order of the places. -/
theorem forall₂_repetitions (before ids : List String) :
    List.Forall₂ (TellsOf (before ++ ids)) (repetitions before ids)
      ((List.range' before.length ids.length).filter fun i => IsRepeated (before ++ ids) i) := by
  induction ids generalizing before with
  | nil => exact .nil
  | cons id ids ih =>
    have hrest := ih (before ++ [id])
    rw [List.append_assoc, List.singleton_append, List.length_append, List.length_singleton] at hrest
    rw [repetitions, List.length_cons, List.range'_succ]
    cases hindex : lastIndex? id before with
    | none =>
      have hnot : ¬ IsRepeated (before ++ id :: ids) before.length := by
        rw [isRepeated_append_cons]
        exact lastIndex?_eq_none_iff.1 hindex
      rw [List.filter_cons_of_neg (by simpa using hnot)]
      exact hrest
    | some earlier =>
      have hlatest := lastIndex?_eq_some_iff.1 hindex
      have hrepeated : IsRepeated (before ++ id :: ids) before.length := by
        rw [isRepeated_append_cons]
        exact List.mem_of_getElem? hlatest.found
      rw [List.filter_cons_of_pos (by simpa using hrepeated)]
      refine .cons ⟨id, earlier, ?_, (isLatestBefore_append before (id :: ids)).2 hlatest, rfl⟩ hrest
      simp

/-- The complaints about identifiers, one for each place that repeats one. -/
theorem forall₂_complaints (ids : List String) :
    List.Forall₂ (TellsOf ids) (ofIds ids).complaints (repeatedPlaces ids) := by
  rw [repeatedPlaces, List.range_eq_range']
  exact forall₂_repetitions [] ids

theorem exists_of_mem_forall₂ {α β : Type} {R : α → β → Prop} {as : List α} {bs : List β}
    (h : List.Forall₂ R as bs) : ∀ a ∈ as, ∃ b ∈ bs, R a b := by
  induction h with
  | nil => exact fun _ => nofun
  | @cons a b as bs hab _ ih =>
    intro a' ha'
    rcases List.mem_cons.1 ha' with rfl | hmem
    · exact ⟨b, List.mem_cons_self, hab⟩
    · obtain ⟨b', hb', h⟩ := ih a' hmem
      exact ⟨b', List.mem_cons_of_mem b hb', h⟩

theorem repeatedId_mem_iff :
    .repeatedId i id earlier ∈ (ofIds ids).complaints ↔
      ids[i]? = some id ∧ IsLatestBefore ids id i earlier := by
  have hcomplaints := forall₂_complaints ids
  constructor
  · intro hmem
    obtain ⟨place, -, text, latest, hid, hlatest, heq⟩ :=
      exists_of_mem_forall₂ hcomplaints _ hmem
    cases heq
    exact ⟨hid, hlatest⟩
  · rintro ⟨hid, hlatest⟩
    have hplace : i ∈ repeatedPlaces ids := by
      rw [repeatedPlaces, List.mem_filter, List.mem_range, decide_eq_true_eq]
      exact ⟨(List.getElem?_eq_some_iff.1 hid).1, earlier, hlatest.before,
        hlatest.found.trans hid.symm⟩
    obtain ⟨c, hc, text, latest, htext, hlatest', rfl⟩ :=
      exists_of_mem_forall₂ hcomplaints.flip i hplace
    obtain rfl : text = id := Option.some.inj (htext.symm.trans hid)
    rwa [hlatest.unique hlatest']

/-! ## Latest and first places -/

/-- A text has occurred once more behind a place where it stands. -/
theorem count_take_succ (h : ids[i]? = some id) :
    (ids.take (i + 1)).count id = (ids.take i).count id + 1 := by
  rw [List.take_add_one, h, Option.toList_some, List.count_append, List.count_singleton_self]

/-- In front of a place, a text has occurred once more than in front of its latest place there. -/
theorem IsLatestBefore.count_take (h : IsLatestBefore ids id i earlier) :
    (ids.take i).count id = (ids.take earlier).count id + 1 := by
  have hbetween : id ∉ (ids.take i).drop (earlier + 1) := by
    rw [List.mem_iff_getElem?]
    rintro ⟨k, hk⟩
    rw [List.getElem?_drop, List.getElem?_take] at hk
    split at hk
    · exact h.last _ (by omega) ‹_› hk
    · cases hk
  have hfront : (ids.take i).take (earlier + 1) = ids.take (earlier + 1) := by
    rw [List.take_take, Nat.min_eq_left h.before]
  rw [← List.take_append_drop (earlier + 1) (ids.take i), List.count_append, hfront,
    List.count_eq_zero_of_not_mem hbetween, Nat.add_zero, count_take_succ h.found]

/-- The latest place in front is the first one of all just when the text has occurred once. -/
theorem IsLatestBefore.eq_idxOf_iff (h : IsLatestBefore ids id i earlier) :
    earlier = ids.idxOf id ↔ (ids.take i).count id = 1 := by
  obtain ⟨hlt, hget⟩ := List.getElem?_eq_some_iff.1 h.found
  have hsplit : ids = ids.take earlier ++ id :: ids.drop (earlier + 1) := by
    rw [← hget, List.getElem_cons_drop, List.take_append_drop]
  have hlength : (ids.take earlier).length = earlier := List.length_take_of_le (Nat.le_of_lt hlt)
  rw [h.count_take, Nat.add_eq_right, List.count_eq_zero]
  constructor
  · intro hfirst hmem
    have hle := List.idxOf_lt_length_of_mem hmem
    rw [hsplit, List.idxOf_append_of_mem hmem] at hfirst
    omega
  · intro hnot
    rw [hsplit, List.idxOf_append_of_notMem hnot, List.idxOf_cons_self]
    simp [hlength]

/-- A text that stands in front of a place has a latest place there. -/
theorem exists_isLatestBefore (hi : i ≤ ids.length) (h : id ∈ ids.take i) :
    ∃ earlier, IsLatestBefore ids id i earlier := by
  cases hindex : lastIndex? id (ids.take i) with
  | none => exact absurd h (lastIndex?_eq_none_iff.1 hindex)
  | some earlier =>
    have hlatest := lastIndex?_eq_some_iff.1 hindex
    rw [← isLatestBefore_append _ (ids.drop i), List.take_append_drop,
      List.length_take_of_le hi] at hlatest
    exact ⟨earlier, hlatest⟩

/-- All complaints name first places just when no text stands in the list three times. -/
theorem firsts_named_iff (ids : List String) :
    (∀ i id earlier, .repeatedId i id earlier ∈ (ofIds ids).complaints → earlier = ids.idxOf id) ↔
      ∀ id, ids.count id ≤ 2 := by
  constructor
  · -- There is a complaint about the last occurrence, and so just one occurrence in front of it.
    intro hfirsts id
    refine Nat.le_of_not_lt fun hmany => ?_
    have hmem : id ∈ ids.take ids.length := by
      rw [List.take_length]
      exact List.count_pos_iff.1 (Nat.zero_lt_of_lt hmany)
    obtain ⟨i, hend⟩ := exists_isLatestBefore (Nat.le_refl _) hmem
    have hcount := hend.count_take
    rw [List.take_length] at hcount
    obtain ⟨earlier, hlatest⟩ := exists_isLatestBefore (Nat.le_of_lt hend.before)
      (List.count_pos_iff.1 (show 0 < (ids.take i).count id by omega))
    have hfirst := hfirsts i id earlier (repeatedId_mem_iff.2 ⟨hend.found, hlatest⟩)
    have hone := hlatest.eq_idxOf_iff.1 hfirst
    omega
  · -- A second earlier occurrence would make three with the one that is complained about.
    intro htwice i id earlier hmem
    obtain ⟨hid, hlatest⟩ := repeatedId_mem_iff.1 hmem
    have hnext := count_take_succ hid
    have hle : (ids.take (i + 1)).count id ≤ ids.count id :=
      (List.take_sublist (i + 1) ids).count_le id
    have htwo := htwice id
    have hcount := hlatest.count_take
    rw [hlatest.eq_idxOf_iff]
    omega

/-- Identifiers are complained about once for each place that repeats one, in the order of the places, and
none of them is repeated just when there is no complaint.  A complaint stands at the identifier of its
place and calls the latest place in front the one of the first definition.  It is that place just when
the identifier has occurred once so far; so all complaints name first places just when no identifier
occurs three times. -/
theorem repetitions_name_latest (rules : List DetectionRule) :
    let ids := rules.map (·.id)
    let report := ofIds ids
    List.Forall₂
      (fun c i => c.path = "rules[" ++ toString i ++ "].id" ∧
        ∃ id earlier, ids[i]? = some id ∧ IsLatestBefore ids id i earlier ∧
          c.message = "duplicate rule id '" ++ id ++ "' (first defined at rules[" ++
            toString earlier ++ "])" ∧
          (earlier = ids.idxOf id ↔ (ids.take i).count id = 1))
      report.complaints (repeatedPlaces ids) ∧
    (report.isValid = true ↔ ids.Nodup) ∧
    ((∀ i id earlier, .repeatedId i id earlier ∈ report.complaints → earlier = ids.idxOf id) ↔
      ∀ id, ids.count id ≤ 2) := by
  intro ids report
  have hcomplaints := forall₂_complaints ids
  refine ⟨hcomplaints.imp ?_, isValid_ofIds_iff, ?_⟩
  · rintro c i ⟨id, earlier, hid, hlatest, rfl⟩
    exact ⟨rfl, id, earlier, hid, hlatest, rfl, hlatest.eq_idxOf_iff⟩
  · exact firsts_named_iff ids

/-- A rule of which there are three copies: the complaint about the last copy calls the second one the place
of the first definition. -/
theorem repetitions_name_latest_threeCopies :
    let rule : DetectionRule :=
      ⟨"web", "Web", none, none, .medium, [], {}, [], ⟨[("alert", .keywords [.text "root"])],
        .selection "alert"⟩⟩
    let report := ofIds ([rule, rule, rule].map (·.id))
    report.complaints.map Complaint.text =
      ["rules[1].id: duplicate rule id 'web' (first defined at rules[0])",
        "rules[2].id: duplicate rule id 'web' (first defined at rules[1])"] ∧
    ¬ ∀ i id earlier, .repeatedId i id earlier ∈ report.complaints →
      earlier = ([rule, rule, rule].map (·.id)).idxOf id := by
  intro rule report
  obtain ⟨-, -, hfirsts⟩ := repetitions_name_latest [rule, rule, rule]
  refine ⟨by decide, fun h => ?_⟩
  have htwo := hfirsts.1 h "web"
  exact absurd htwo (by decide)

end LogWatch.Rule.Report
