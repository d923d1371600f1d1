import LogWatch.Proofs.Scoring.WindowStarts

/-!
# Timelines

What lies in a range of times, in ascending order.  A store goes by nanoseconds, and a leap second shares
them with the second after it.  Where no leap seconds occur the order of nanoseconds is that of the
calendar.

* `Instant.IsWithin` — the instants whose nanoseconds are not cut off;
* `IsTimeline`, `IsSeries` — all items of a range, and the last item of each time;
* `eq_of_ascending` — an ascending list is known from its items of each key;
* `IsTimeline.unique`, `IsSeries.unique` — the items of a range are shown in one way only;
* `IsTimeline.of_clampedNanos`, `IsSeries.of_clampedNanos` — from nanoseconds to the calendar.
-/

namespace LogWatch

open Time

/-! ## Instants and their nanoseconds -/

namespace Time.Instant

theorem isLeap_eq_false_iff {t : Instant} : t.isLeap = false ↔ t.nanos < 1000000000 := by
  rw [isLeap, decide_eq_false_iff_not, nanosPerSecond, Nat.not_le]

/-- Outside leap seconds the order of instants is that of their nanoseconds. -/
theorem le_iff_toNanos_le {a b : Instant} (ha : a.isLeap = false) (hb : b.isLeap = false) :
    a ≤ b ↔ a.toNanos ≤ b.toNanos := by
  rw [isLeap_eq_false_iff] at ha hb
  have hle : a ≤ b ↔ ¬ b < a := Iff.rfl
  rw [hle, lt_iff, toNanos, toNanos, nanosPerSecond]
  omega

theorem lt_iff_toNanos_lt {a b : Instant} (ha : a.isLeap = false) (hb : b.isLeap = false) :
    a < b ↔ a.toNanos < b.toNanos := by
  rw [isLeap_eq_false_iff] at ha hb
  rw [lt_iff, toNanos, toNanos, nanosPerSecond]
  omega

theorem eq_iff_toNanos_eq {a b : Instant} (ha : a.isLeap = false) (hb : b.isLeap = false) :
    a = b ↔ a.toNanos = b.toNanos := by
  rw [isLeap_eq_false_iff] at ha hb
  obtain ⟨s, n⟩ := a
  obtain ⟨t, m⟩ := b
  rw [mk.injEq, toNanos, toNanos, nanosPerSecond]
  dsimp only at ha hb ⊢
  omega

/-- The nanoseconds of an instant lie strictly between the ends of a signed word of 64 bits. -/
def IsWithin (t : Instant) : Prop :=
  -0x8000000000000000 < t.toNanos ∧ t.toNanos < 0x7fffffffffffffff

theorem IsWithin.clampedNanos_eq {t : Instant} (h : t.IsWithin) : t.clampedNanos = t.toNanos := by
  obtain ⟨hlow, hhigh⟩ := h
  have hcases := t.clampedNanos_cases
  omega

/-- Outside leap seconds a bound is cut off at the right side of all instants that are within. -/
theorem clampedNanos_le_iff {bound t : Instant} (hbound : bound.isLeap = false)
    (ht : t.isLeap = false) (hwithin : t.IsWithin) :
    bound.clampedNanos ≤ t.clampedNanos ↔ bound ≤ t := by
  rw [le_iff_toNanos_le hbound ht, hwithin.clampedNanos_eq]
  obtain ⟨hlow, hhigh⟩ := hwithin
  have hcases := bound.clampedNanos_cases
  omega

theorem le_clampedNanos_iff {bound t : Instant} (hbound : bound.isLeap = false)
    (ht : t.isLeap = false) (hwithin : t.IsWithin) :
    t.clampedNanos ≤ bound.clampedNanos ↔ t ≤ bound := by
  rw [le_iff_toNanos_le ht hbound, hwithin.clampedNanos_eq]
  obtain ⟨hlow, hhigh⟩ := hwithin
  have hcases := bound.clampedNanos_cases
  omega

/-- Outside leap seconds a range that is in order is in order for the store. -/
theorem clampedNanos_mono {a b : Instant} (ha : a.isLeap = false) (hb : b.isLeap = false)
    (h : a ≤ b) : a.clampedNanos ≤ b.clampedNanos := by
  rw [le_iff_toNanos_le ha hb] at h
  have hcasesA := a.clampedNanos_cases
  have hcasesB := b.clampedNanos_cases
  omega

/-- Outside leap seconds an earlier instant is not sorted behind a later one. -/
theorem precedes_of_lt {a b : Instant} (ha : a.isLeap = false) (hb : b.isLeap = false) (h : a < b) :
    a.Precedes b := by
  refine ⟨h, clampedNanos_mono ha hb ?_⟩
  rw [le_iff_toNanos_le ha hb]
  exact Int.le_of_lt ((lt_iff_toNanos_lt ha hb).1 h)

end Time.Instant

/-! ## Ascending lists -/

section Ascending

variable {α ε : Type} {key : α → Int}

/-- The first item of an ascending list has a key that comes in every list with the same items of each
key. -/
theorem key_head_le {a b : α} {as bs : List α}
    (hbs : (b :: bs).Pairwise fun x y => key x ≤ key y)
    (h : ∀ k, (a :: as).filter (fun x => key x = k) = (b :: bs).filter fun x => key x = k) :
    key b ≤ key a := by
  have hmem : a ∈ (b :: bs).filter fun x => key x = key a := by
    rw [← h]
    exact List.mem_filter.2 ⟨List.mem_cons_self, by simp⟩
  rcases List.mem_cons.1 (List.mem_filter.1 hmem).1 with rfl | ha
  · exact Int.le_refl _
  · exact List.rel_of_pairwise_cons hbs ha

/-- An ascending list is known from its items of each key. -/
theorem eq_of_ascending {as bs : List α} (has : as.Pairwise fun x y => key x ≤ key y)
    (hbs : bs.Pairwise fun x y => key x ≤ key y)
    (h : ∀ k, as.filter (fun x => key x = k) = bs.filter fun x => key x = k) : as = bs := by
  induction as generalizing bs with
  | nil =>
    cases bs with
    | nil => rfl
    | cons b bs => simpa using h (key b)
  | cons a as ih =>
    cases bs with
    | nil => simpa using h (key a)
    | cons b bs =>
      -- Both heads have the least key, so they are the first items of one key.
      have hkey : key a = key b :=
        Int.le_antisymm (key_head_le has fun k => (h k).symm) (key_head_le hbs h)
      have hhead := h (key b)
      rw [List.filter_cons_of_pos (by simpa using hkey), List.filter_cons_of_pos (by simp)] at hhead
      obtain ⟨rfl, -⟩ := List.cons.inj hhead
      refine congrArg (a :: ·) (ih has.of_cons hbs.of_cons fun k => ?_)
      have htail := h k
      rw [List.filter_cons, List.filter_cons] at htail
      split at htail
      · exact (List.cons.inj htail).2
      · exact htail

variable (key) (item : ε → α) {place : ε → Int} {entries : List ε}

/-- Entries of a range that are picked by their places are the items of the range. -/
theorem filter_map_range (hplace : ∀ e ∈ entries, place e = key (item e)) {low high k : Int}
    (hlow : low ≤ k) (hhigh : k ≤ high) :
    ((entries.filter fun e => low ≤ place e && place e ≤ high).map item).filter
      (fun a => key a = k) = (entries.filter fun e => place e = k).map item := by
  rw [List.filter_map, List.filter_filter]
  refine congrArg _ (List.filter_congr fun e he => ?_)
  rw [Function.comp_apply, ← hplace e he]
  by_cases hk : place e = k
  · simp [hk, hlow, hhigh]
  · simp [hk]

theorem within_map_range (hplace : ∀ e ∈ entries, place e = key (item e)) {low high : Int} :
    ∀ a ∈ (entries.filter fun e => low ≤ place e && place e ≤ high).map item,
      low ≤ key a ∧ key a ≤ high := by
  intro a ha
  obtain ⟨e, he, rfl⟩ := List.mem_map.1 ha
  obtain ⟨hmem, hrange⟩ := List.mem_filter.1 he
  rw [← hplace e hmem]
  simpa using hrange

/-- An order of places is an order of items. -/
theorem pairwise_map_range {r : Int → Int → Prop} (hplace : ∀ e ∈ entries, place e = key (item e))
    (h : entries.Pairwise fun e f => r (place e) (place f)) (p : ε → Bool) :
    ((entries.filter p).map item).Pairwise fun a b => r (key a) (key b) := by
  rw [List.pairwise_map]
  refine (h.filter p).imp_of_mem ?_
  intro e f he hf hr
  rwa [hplace e (List.mem_filter.1 he).1, hplace f (List.mem_filter.1 hf).1] at hr

end Ascending

/-! ## Timelines -/

section Timelines

variable {α κ : Type} [LE κ] [DecidableEq κ]

/-- The items whose keys lie in a range, in ascending order, those of one key in the order in which they
come. -/
structure IsTimeline (key : α → κ) (first last : κ) (items shown : List α) : Prop where
  within : ∀ a ∈ shown, first ≤ key a ∧ key a ≤ last
  ascending : shown.Pairwise fun a b => key a ≤ key b
  complete : ∀ k, first ≤ k → k ≤ last →
    shown.filter (fun a => key a = k) = items.filter (fun a => key a = k)

/-- The last item of each key in a range, in ascending order. -/
structure IsSeries [LT κ] (key : α → κ) (first last : κ) (items shown : List α) : Prop where
  within : ∀ a ∈ shown, first ≤ key a ∧ key a ≤ last
  ascending : shown.Pairwise fun a b => key a < key b
  latest : ∀ k, first ≤ k → k ≤ last →
    shown.filter (fun a => key a = k) = (items.filter fun a => key a = k).getLast?.toList

theorem IsTimeline.mem {key : α → κ} {first last : κ} {items shown : List α}
    (h : IsTimeline key first last items shown) {a : α} (ha : a ∈ shown) : a ∈ items := by
  obtain ⟨hfirst, hlast⟩ := h.within a ha
  have hmem : a ∈ shown.filter fun b => key b = key a := List.mem_filter.2 ⟨ha, by simp⟩
  rw [h.complete _ hfirst hlast] at hmem
  exact (List.mem_filter.1 hmem).1

theorem IsSeries.mem [LT κ] {key : α → κ} {first last : κ} {items shown : List α}
    (h : IsSeries key first last items shown) {a : α} (ha : a ∈ shown) : a ∈ items := by
  obtain ⟨hfirst, hlast⟩ := h.within a ha
  have hmem : a ∈ shown.filter fun b => key b = key a := List.mem_filter.2 ⟨ha, by simp⟩
  rw [h.latest _ hfirst hlast, Option.mem_toList] at hmem
  exact (List.mem_filter.1 (List.mem_of_getLast? hmem)).1

section Unique

variable {key : α → Int} {low high : Int} {items as bs : List α}

theorem filter_eq_nil_of_not_within (h : ∀ a ∈ as, low ≤ key a ∧ key a ≤ high) {k : Int}
    (hk : ¬ (low ≤ k ∧ k ≤ high)) : as.filter (fun a => key a = k) = [] := by
  rw [List.filter_eq_nil_iff]
  intro a ha heq
  exact hk (of_decide_eq_true heq ▸ h a ha)

/-- Items have one timeline. -/
theorem IsTimeline.unique (has : IsTimeline key low high items as)
    (hbs : IsTimeline key low high items bs) : as = bs := by
  refine eq_of_ascending has.ascending hbs.ascending fun k => ?_
  by_cases hk : low ≤ k ∧ k ≤ high
  · exact (has.complete k hk.1 hk.2).trans (hbs.complete k hk.1 hk.2).symm
  · rw [filter_eq_nil_of_not_within has.within hk, filter_eq_nil_of_not_within hbs.within hk]

theorem IsSeries.unique (has : IsSeries key low high items as)
    (hbs : IsSeries key low high items bs) : as = bs := by
  refine eq_of_ascending (has.ascending.imp Int.le_of_lt) (hbs.ascending.imp Int.le_of_lt)
    fun k => ?_
  by_cases hk : low ≤ k ∧ k ≤ high
  · exact (has.latest k hk.1 hk.2).trans (hbs.latest k hk.1 hk.2).symm
  · rw [filter_eq_nil_of_not_within has.within hk, filter_eq_nil_of_not_within hbs.within hk]

end Unique

/-- Items none of which has a time are not found under it. -/
theorem filter_time_eq_nil {time : α → Instant} {items : List α} {P : Instant → Prop}
    (hitems : ∀ a ∈ items, P (time a)) {t : Instant} (ht : ¬ P t) :
    items.filter (fun a => time a = t) = [] := by
  rw [List.filter_eq_nil_iff]
  intro a ha heq
  exact ht (of_decide_eq_true heq ▸ hitems a ha)

/-- An instant that the store tells from all others like it. -/
def IsOrdinary (t : Instant) : Prop :=
  t.isLeap = false ∧ t.IsWithin

theorem filter_time_eq {time : α → Instant} {items : List α}
    (hitems : ∀ a ∈ items, IsOrdinary (time a)) {t : Instant} (ht : IsOrdinary t) :
    items.filter (fun a => time a = t) =
      items.filter (fun a => (time a).clampedNanos = t.clampedNanos) := by
  refine List.filter_congr fun a ha => ?_
  obtain ⟨hleap, hwithin⟩ := hitems a ha
  rw [hwithin.clampedNanos_eq, ht.2.clampedNanos_eq]
  exact decide_eq_decide.2 (Instant.eq_iff_toNanos_eq hleap ht.1)

section Ordinary

variable {time : α → Instant} {first last : Instant} {items shown : List α}
  (hitems : ∀ a ∈ items, IsOrdinary (time a)) (hfirst : first.isLeap = false)
  (hlast : last.isLeap = false)

include hitems hfirst hlast

/-- Of ordinary instants the store shows what lies in the range of the calendar, in its order. -/
theorem IsTimeline.of_clampedNanos
    (h : IsTimeline (fun a => (time a).clampedNanos) first.clampedNanos last.clampedNanos items
      shown) : IsTimeline time first last items shown := by
  have hshown : ∀ a ∈ shown, IsOrdinary (time a) := fun a ha => hitems a (h.mem ha)
  refine ⟨?_, ?_, ?_⟩
  · intro a ha
    obtain ⟨hleap, hwithin⟩ := hshown a ha
    obtain ⟨hlow, hhigh⟩ := h.within a ha
    exact ⟨(Instant.clampedNanos_le_iff hfirst hleap hwithin).1 hlow,
      (Instant.le_clampedNanos_iff hlast hleap hwithin).1 hhigh⟩
  · refine h.ascending.imp_of_mem ?_
    intro a b ha hb hle
    exact (Instant.clampedNanos_le_iff (hshown a ha).1 (hshown b hb).1 (hshown b hb).2).1 hle
  · intro t hlow hhigh
    by_cases ht : IsOrdinary t
    · rw [filter_time_eq hshown ht, filter_time_eq hitems ht]
      exact h.complete _ ((Instant.clampedNanos_le_iff hfirst ht.1 ht.2).2 hlow)
        ((Instant.le_clampedNanos_iff hlast ht.1 ht.2).2 hhigh)
    · rw [filter_time_eq_nil hshown ht, filter_time_eq_nil hitems ht]

theorem IsSeries.of_clampedNanos
    (h : IsSeries (fun a => (time a).clampedNanos) first.clampedNanos last.clampedNanos items
      shown) : IsSeries time first last items shown := by
  have hshown : ∀ a ∈ shown, IsOrdinary (time a) := fun a ha => hitems a (h.mem ha)
  refine ⟨?_, ?_, ?_⟩
  · intro a ha
    obtain ⟨hleap, hwithin⟩ := hshown a ha
    obtain ⟨hlow, hhigh⟩ := h.within a ha
    exact ⟨(Instant.clampedNanos_le_iff hfirst hleap hwithin).1 hlow,
      (Instant.le_clampedNanos_iff hlast hleap hwithin).1 hhigh⟩
  · refine h.ascending.imp_of_mem ?_
    intro a b ha hb hlt
    rw [(hshown a ha).2.clampedNanos_eq, (hshown b hb).2.clampedNanos_eq] at hlt
    exact (Instant.lt_iff_toNanos_lt (hshown a ha).1 (hshown b hb).1).2 hlt
  · intro t hlow hhigh
    by_cases ht : IsOrdinary t
    · rw [filter_time_eq hshown ht, filter_time_eq hitems ht]
      exact h.latest _ ((Instant.clampedNanos_le_iff hfirst ht.1 ht.2).2 hlow)
        ((Instant.le_clampedNanos_iff hlast ht.1 ht.2).2 hhigh)
    · rw [filter_time_eq_nil hshown ht, filter_time_eq_nil hitems ht]
      rfl

end Ordinary

end Timelines

end LogWatch
