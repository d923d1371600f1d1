import LogWatch.Proofs.Report.Visits
import LogWatch.Proofs.Scoring.Loading

/-!
# Histories and archives that fail

The scorer loads histories from an archive, which may be any store: it shows some summaries of a source,
one after the other, and then it has shown them all, or it fails.  A history that cannot be loaded stays as
it is, unless it was to be forgotten: what is forgotten is dropped before anything is asked for.

* `Archive`, `Showing` — what a store shows of a source when it is asked;
* `Scorer.loadFrom`, `Scorer.clearFrom`, `Scorer.clearAllFrom` — histories loaded and forgotten with any
  archive;
* `Scorer.load_eq_loadFrom` and its like — with the store of reports these are the histories of the scorer;
* `Scorer.forEach_clearFrom_eq` — where nothing is left to forget, forgetting is loading;
* `Scorer.forEach_loadFrom` — sources that are loaded in order, up to the first failure;
* `Scorer.histories_after_failure` — the histories after an archive has failed, and after it has not;
* `Scorer.forgotten_and_not_loaded` — a history that is lost.
-/

namespace LogWatch.Anomaly

open Time

/-! ## Archives -/

/-- What is shown of a source: some summaries in order, and then the error that ended the showing, if one
did. -/
structure Showing where
  shown : List Summary
  failure : Option StoreError

/-- The points that a showing adds. -/
def Showing.points (a : Showing) : List HistoryPoint :=
  a.shown.map Scorer.pointOf

/-- A store of any kind: what it shows of a source between two times, and the store after that, which may
show something else or fail the next time. -/
abbrev Archive (σ : Type) :=
  σ → SourceType → Instant → Instant → Showing × σ

namespace Archive

variable {σ τ : Type}

/-- The summaries of a source between two times shown to a visitor until it declines: the error that ended
the visit, the visitor, and the archive after the visit. -/
def visit (A : Archive σ) (store : σ) (source : SourceType) (first last : Instant)
    (visitor : τ → Summary → τ × Bool) (init : τ) : Option StoreError × τ × σ :=
  let answer := A store source first last
  (answer.1.failure, Store.visitWhile visitor answer.1.shown init, answer.2)

/-- What an archive shows of a source when it is asked for everything. -/
def whole (A : Archive σ) (store : σ) (source : SourceType) : Showing × σ :=
  A store source .earliest .latest

/-- What an archive shows of some sources when it is asked for everything of one after the other. -/
def showings (A : Archive σ) (store : σ) : List SourceType → List (SourceType × Showing)
  | [] => []
  | source :: rest => (source, (A.whole store source).1) :: showings A (A.whole store source).2 rest

/-- The store of reports.  When it fails it has not shown anything. -/
def ofStore : Archive Store := fun store source first last =>
  match store.visitSummaries source first last (fun seen m => (seen ++ [m], true)) [] with
  | (.ok seen, store) => (⟨seen, none⟩, store)
  | (.error e, store) => (⟨[], some e⟩, store)

end Archive

/-! ## Loading and forgetting -/

namespace Scorer

variable {σ : Type}

section Definitions

variable (A : Archive σ) (store : σ) (s : Scorer)

/-- The history of a source replaced by what an archive shows of it, and the number of its points. -/
def loadFrom (source : SourceType) : Except StoreError Nat × Scorer × σ :=
  match A.visit store source .earliest .latest
      (fun points summary => (points ++ [pointOf summary], true)) [] with
  | (some e, _, store) => (.error e, s, store)
  | (none, points, store) => (.ok points.length, s.setHistory source points, store)

/-- The history of a source dropped and loaded again. -/
def clearFrom (source : SourceType) : Except StoreError Nat × Scorer × σ :=
  loadFrom A store (s.setHistory source []) source

/-- Something done for some sources in order, up to the first failure. -/
def forEach (act : σ → Scorer → SourceType → Except StoreError Nat × Scorer × σ) (store : σ)
    (s : Scorer) : List SourceType → Except StoreError Unit × Scorer × σ
  | [] => (.ok (), s, store)
  | source :: rest =>
    match act store s source with
    | (.error e, s, store) => (.error e, s, store)
    | (.ok _, s, store) => forEach act store s rest

/-- All histories loaded. -/
def loadAllFrom : Except StoreError Unit × Scorer × σ :=
  forEach (loadFrom A) store s SourceType.all

/-- All histories dropped, and then each of them dropped and loaded again. -/
def clearAllFrom : Except StoreError Unit × Scorer × σ :=
  forEach (clearFrom A) store s.blank SourceType.all

end Definitions

/-! ## One source -/

section OneSource

variable {A : Archive σ} {store : σ} {s : Scorer} {source : SourceType}

theorem loadFrom_of_failure {e : StoreError} (h : (A.whole store source).1.failure = some e) :
    s.loadFrom A store source = (.error e, s, (A.whole store source).2) := by
  rw [Archive.whole] at h
  rw [loadFrom, Archive.visit, h, Archive.whole]

theorem loadFrom_of_whole (h : (A.whole store source).1.failure = none) :
    s.loadFrom A store source =
      (.ok (A.whole store source).1.points.length,
        s.setHistory source (A.whole store source).1.points, (A.whole store source).2) := by
  rw [Archive.whole] at h
  rw [loadFrom, Archive.visit, h, Store.visitWhile_append, List.nil_append, Archive.whole, Showing.points]

/-- The histories after that of one source has been replaced. -/
structure Replaces (s s' : Scorer) (source : SourceType) (points : List HistoryPoint) : Prop where
  own : s'.history source = points
  others : ∀ other, other ≠ source → s'.history other = s.history other

theorem replaces_setHistory (s : Scorer) (source : SourceType) (points : List HistoryPoint) :
    s.Replaces (s.setHistory source points) source points :=
  ⟨s.history_setHistory_self source points, fun _ h => s.history_setHistory_of_ne h points⟩

/-- A history that has been dropped before is replaced all the same. -/
theorem Replaces.of_setHistory {s s' : Scorer} {source : SourceType} {dropped points : List HistoryPoint}
    (h : (s.setHistory source dropped).Replaces s' source points) : s.Replaces s' source points :=
  ⟨h.own, fun other hne => (h.others other hne).trans (s.history_setHistory_of_ne hne dropped)⟩

/-- A history that cannot be loaded stays as it is. -/
theorem history_loadFrom_of_error {e : StoreError} (h : (s.loadFrom A store source).1 = .error e)
    (other : SourceType) : (s.loadFrom A store source).2.1.history other = s.history other := by
  cases hfailure : (A.whole store source).1.failure with
  | some _ => rw [loadFrom_of_failure hfailure]
  | none =>
    rw [loadFrom_of_whole hfailure] at h
    cases h

/-- A history that is loaded has the points that are shown. -/
theorem replaces_loadFrom_of_ok {n : Nat} (h : (s.loadFrom A store source).1 = .ok n) :
    n = (A.whole store source).1.points.length ∧
      s.Replaces (s.loadFrom A store source).2.1 source (A.whole store source).1.points := by
  cases hfailure : (A.whole store source).1.failure with
  | some _ =>
    rw [loadFrom_of_failure hfailure] at h
    cases h
  | none =>
    rw [loadFrom_of_whole hfailure] at h ⊢
    cases h
    exact ⟨rfl, s.replaces_setHistory source _⟩

/-- A history that is forgotten and cannot be loaded again is lost. -/
theorem replaces_clearFrom_of_error {e : StoreError} (h : (s.clearFrom A store source).1 = .error e) :
    s.Replaces (s.clearFrom A store source).2.1 source [] :=
  ⟨(history_loadFrom_of_error h source).trans (s.history_setHistory_self source []),
    fun other hne => (history_loadFrom_of_error h other).trans (s.history_setHistory_of_ne hne [])⟩

theorem replaces_clearFrom_of_ok {n : Nat} (h : (s.clearFrom A store source).1 = .ok n) :
    n = (A.whole store source).1.points.length ∧
      s.Replaces (s.clearFrom A store source).2.1 source (A.whole store source).1.points :=
  (replaces_loadFrom_of_ok h).imp_right Replaces.of_setHistory

end OneSource

/-! ## Several sources -/

section SeveralSources

variable {A : Archive σ}

/-- What has been loaded from a row of showings: the first ones, up to one that has failed or up to the
last.  Other histories are as they were before. -/
structure Reaches (showings front : List (SourceType × Showing))
    (before : SourceType → List HistoryPoint) (result : Except StoreError Unit) (s : Scorer) : Prop where
  loaded : ∀ a ∈ front, a.2.failure = none ∧ s.history a.1 = a.2.points
  kept : ∀ source, source ∉ front.map Prod.fst → s.history source = before source
  ending : (result = .ok () ∧ showings = front) ∨
    ∃ failed rest e, showings = front ++ failed :: rest ∧ failed.2.failure = some e ∧ result = .error e

theorem map_fst_showings (A : Archive σ) (store : σ) (sources : List SourceType) :
    (A.showings store sources).map Prod.fst = sources := by
  induction sources generalizing store with
  | nil => rfl
  | cons source rest ih => rw [Archive.showings, List.map_cons, ih]

theorem Reaches.isPrefix {showings front : List (SourceType × Showing)}
    {before : SourceType → List HistoryPoint} {result : Except StoreError Unit} {s : Scorer}
    (h : Reaches showings front before result s) : front <+: showings := by
  rcases h.ending with ⟨-, rfl⟩ | ⟨failed, rest, e, rfl, -, -⟩
  · exact List.prefix_refl _
  · exact List.prefix_append _ _

/-- A source that has been loaded keeps its history while others are loaded. -/
theorem Reaches.cons {showings front : List (SourceType × Showing)} {s s' : Scorer}
    {result : Except StoreError Unit} {a : SourceType × Showing} (hfailure : a.2.failure = none)
    (hnew : a.1 ∉ front.map Prod.fst)
    (h : Reaches showings front (s.setHistory a.1 a.2.points).history result s') :
    Reaches (a :: showings) (a :: front) s.history result s' where
  loaded := by
    rw [List.forall_mem_cons]
    exact ⟨⟨hfailure, (h.kept a.1 hnew).trans (s.history_setHistory_self a.1 _)⟩, h.loaded⟩
  kept source hsource := by
    rw [List.map_cons, List.mem_cons, not_or] at hsource
    exact (h.kept source hsource.2).trans (s.history_setHistory_of_ne hsource.1 _)
  ending := by
    rcases h.ending with ⟨hresult, hall⟩ | ⟨failed, rest, e, hall, hfailed, hresult⟩
    · exact Or.inl ⟨hresult, congrArg (a :: ·) hall⟩
    · exact Or.inr ⟨failed, rest, e, congrArg (a :: ·) hall, hfailed, hresult⟩

/-- Sources that are loaded one after the other, up to the first failure. -/
theorem forEach_loadFrom {sources : List SourceType} (hnodup : sources.Nodup) (store : σ) (s : Scorer) :
    ∃ front, Reaches (A.showings store sources) front s.history
      (forEach (loadFrom A) store s sources).1 (forEach (loadFrom A) store s sources).2.1 := by
  induction sources generalizing store s with
  | nil => exact ⟨[], List.forall_mem_nil _, fun _ _ => rfl, Or.inl ⟨rfl, rfl⟩⟩
  | cons source rest ih =>
    obtain ⟨hnew, hnodup⟩ := List.nodup_cons.1 hnodup
    rw [forEach, Archive.showings]
    cases hfailure : (A.whole store source).1.failure with
    | some e =>
      rw [loadFrom_of_failure hfailure]
      exact ⟨[], List.forall_mem_nil _, fun _ _ => rfl, Or.inr ⟨_, _, e, rfl, hfailure, rfl⟩⟩
    | none =>
      rw [loadFrom_of_whole hfailure]
      obtain ⟨front, hreaches⟩ := ih hnodup (A.whole store source).2
        (s.setHistory source (A.whole store source).1.points)
      refine ⟨(source, (A.whole store source).1) :: front, hreaches.cons hfailure fun hmem => hnew ?_⟩
      rw [← map_fst_showings A (A.whole store source).2 rest]
      exact (hreaches.isPrefix.map Prod.fst).subset hmem

/-- To drop a history that is empty changes nothing. -/
theorem setHistory_nil_of_eq {s : Scorer} {source : SourceType} (h : s.history source = []) :
    s.setHistory source [] = s := by
  rw [setHistory, ← h]
  cases source <;> rfl

/-- Where nothing is left to forget, forgetting is loading. -/
theorem forEach_clearFrom_eq {sources : List SourceType} (hnodup : sources.Nodup) (store : σ) (s : Scorer)
    (hempty : ∀ source ∈ sources, s.history source = []) :
    forEach (clearFrom A) store s sources = forEach (loadFrom A) store s sources := by
  induction sources generalizing store s with
  | nil => rfl
  | cons source rest ih =>
    rw [List.forall_mem_cons] at hempty
    obtain ⟨hnew, hnodup⟩ := List.nodup_cons.1 hnodup
    rw [forEach, forEach, clearFrom, setHistory_nil_of_eq hempty.1]
    cases hfailure : (A.whole store source).1.failure with
    | some e => rw [loadFrom_of_failure hfailure]
    | none =>
      rw [loadFrom_of_whole hfailure]
      refine ih hnodup _ _ fun other hother => ?_
      have hne : other ≠ source := by
        rintro rfl
        exact hnew hother
      rw [history_setHistory_of_ne _ hne]
      exact hempty.2 other hother

theorem history_blank (s : Scorer) (source : SourceType) : s.blank.history source = [] :=
  PerSource.get_const _ source

theorem nodup_all : SourceType.all.Nodup := by
  decide

/-- After all histories have been dropped, loading them again is loading into a scorer without any. -/
theorem clearAllFrom_eq (store : σ) (s : Scorer) :
    s.clearAllFrom A store = s.blank.loadAllFrom A store :=
  forEach_clearFrom_eq nodup_all store s.blank fun source _ => s.history_blank source

end SeveralSources

/-! ## The store of reports -/

section StoreOfReports

variable (store : Store) (s : Scorer)

/-- The store of reports shows the same to every visitor that asks for everything, or fails for all of them,
and stays as it is. -/
theorem visitSummaries_whole (source : SourceType) :
    (∃ e, ∀ {τ : Type} (visitor : τ → Summary → τ × Bool) (init : τ),
      store.visitSummaries source .earliest .latest visitor init = (.error e, store)) ∨
    ∃ shown, ∀ {τ : Type} (visitor : τ → Summary → τ × Bool) (init : τ),
      store.visitSummaries source .earliest .latest visitor init =
        (.ok (Store.visitWhile visitor shown init), store) := by
  obtain ⟨left, rfl | ⟨-, hreversed⟩, hvisit⟩ := store.visitSummaries_cases source .earliest .latest
  · exact hvisit
  · exact absurd hreversed (by decide)

/-- A result without the archive that was asked. -/
def withoutArchive {ε α : Type} (r : Except ε α × Scorer × σ) : Except ε α × Scorer :=
  (r.1, r.2.1)

theorem load_eq_loadFrom (source : SourceType) :
    s.load store source = withoutArchive (s.loadFrom .ofStore store source) ∧
      (s.loadFrom .ofStore store source).2.2 = store := by
  rcases visitSummaries_whole store source with ⟨e, hvisit⟩ | ⟨shown, hvisit⟩
  · have hwhole : Archive.ofStore.whole store source = (⟨[], some e⟩, store) := by
      rw [Archive.whole, Archive.ofStore, hvisit]
    rw [loadFrom_of_failure (e := e) (by rw [hwhole]), hwhole, load, storedPoints, hvisit]
    exact ⟨rfl, rfl⟩
  · have hall : Store.visitWhile (fun seen m => (seen ++ [m], true)) shown [] = shown :=
      (Store.visitWhile_append id []).trans (List.map_id shown)
    have hwhole : Archive.ofStore.whole store source = (⟨shown, none⟩, store) := by
      rw [Archive.whole, Archive.ofStore, hvisit, hall]
    rw [loadFrom_of_whole (by rw [hwhole]), hwhole, load, storedPoints, hvisit, Store.visitWhile_append,
      List.nil_append]
    exact ⟨rfl, rfl⟩

theorem clear_eq_clearFrom (source : SourceType) :
    s.clear store source = withoutArchive (s.clearFrom .ofStore store source) :=
  (load_eq_loadFrom store (s.setHistory source []) source).1

theorem loadEach_eq_forEach (sources : List SourceType) :
    s.loadEach store sources = withoutArchive (forEach (loadFrom .ofStore) store s sources) := by
  induction sources generalizing s with
  | nil => rfl
  | cons source rest ih =>
    obtain ⟨hload, hstore⟩ := load_eq_loadFrom store s source
    rw [loadEach, hload, forEach]
    generalize loadFrom .ofStore store s source = r at hstore ⊢
    obtain ⟨result, s', store'⟩ := r
    obtain rfl : store' = store := hstore
    cases result with
    | error e => rfl
    | ok n => exact ih s'

theorem loadAll_eq_loadAllFrom : s.loadAll store = withoutArchive (s.loadAllFrom .ofStore store) :=
  loadEach_eq_forEach store s SourceType.all

theorem clearAll_eq_clearAllFrom : s.clearAll store = withoutArchive (s.clearAllFrom .ofStore store) := by
  rw [clearAllFrom_eq]
  exact loadEach_eq_forEach store s.blank SourceType.all

end StoreOfReports

/-! ## After a failure -/

/-- What the scorer does with the store of reports is what it does with any archive. -/
structure UsesArchive (s : Scorer) (store : Store) : Prop where
  load : ∀ source, s.load store source = withoutArchive (s.loadFrom .ofStore store source)
  clear : ∀ source, s.clear store source = withoutArchive (s.clearFrom .ofStore store source)
  loadAll : s.loadAll store = withoutArchive (s.loadAllFrom .ofStore store)
  clearAll : s.clearAll store = withoutArchive (s.clearAllFrom .ofStore store)

/-- Whatever an archive shows and wherever it fails: a history that cannot be loaded stays as it is, one that
is forgotten and cannot be loaded again is empty, and neither touches another history.  Where all histories
are forgotten and one cannot be loaded again, those before it are loaded, and it is empty like those after
it.  A history that is loaded has the points that have been shown, in their order. -/
theorem histories_after_failure (s : Scorer) :
    (∀ {σ : Type} (A : Archive σ) (store : σ),
      (∀ source,
        (∀ e, (s.loadFrom A store source).1 = .error e →
          ∀ other, (s.loadFrom A store source).2.1.history other = s.history other) ∧
        (∀ n, (s.loadFrom A store source).1 = .ok n →
          n = (A.whole store source).1.points.length ∧
            s.Replaces (s.loadFrom A store source).2.1 source (A.whole store source).1.points) ∧
        (∀ e, (s.clearFrom A store source).1 = .error e →
          s.Replaces (s.clearFrom A store source).2.1 source []) ∧
        (∀ n, (s.clearFrom A store source).1 = .ok n →
          n = (A.whole store source).1.points.length ∧
            s.Replaces (s.clearFrom A store source).2.1 source (A.whole store source).1.points)) ∧
      (A.showings store SourceType.all).map Prod.fst = SourceType.all ∧
      (∃ front, Reaches (A.showings store SourceType.all) front s.history
        (s.loadAllFrom A store).1 (s.loadAllFrom A store).2.1) ∧
      (∃ front, Reaches (A.showings store SourceType.all) front (fun _ => [])
        (s.clearAllFrom A store).1 (s.clearAllFrom A store).2.1)) ∧
    ∀ store : Store, s.UsesArchive store := by
  constructor
  · intro σ A store
    refine ⟨fun source => ⟨fun e he other => history_loadFrom_of_error he other,
      fun n hn => replaces_loadFrom_of_ok hn, fun e he => replaces_clearFrom_of_error he,
      fun n hn => replaces_clearFrom_of_ok hn⟩, map_fst_showings A store _,
      forEach_loadFrom nodup_all store s, ?_⟩
    have hblank : s.blank.history = fun _ => [] := funext s.history_blank
    rw [clearAllFrom_eq, ← hblank]
    exact forEach_loadFrom nodup_all store s.blank
  · exact fun store => ⟨fun source => (load_eq_loadFrom store s source).1,
      fun source => clear_eq_clearFrom store s source, loadAll_eq_loadAllFrom store s,
      clearAll_eq_clearAllFrom store s⟩

/-- An archive that fails the third time it is asked, after it has shown a summary. -/
theorem histories_after_failure_thirdTime :
    let traps : Summary := .trap ⟨⟨0, 0⟩, 4, 1, []⟩
    let A : Archive Nat := fun asked _ _ _ =>
      (⟨[traps], if asked = 2 then some (.storage "disk full") else none⟩, asked + 1)
    let s : Scorer := (start .default defaultSeed).setHistory .trap [pointOf traps, pointOf traps]
    ((s.loadFrom A 2 .trap).1 = .error (.storage "disk full") ∧
      (s.loadFrom A 2 .trap).2.1.history .trap = [pointOf traps, pointOf traps]) ∧
    ((s.loadFrom A 0 .trap).1 = .ok 1 ∧
      s.Replaces (s.loadFrom A 0 .trap).2.1 .trap [pointOf traps]) ∧
    ((s.clearFrom A 2 .trap).1 = .error (.storage "disk full") ∧
      s.Replaces (s.clearFrom A 2 .trap).2.1 .trap []) ∧
    ((s.clearFrom A 0 .trap).1 = .ok 1 ∧
      s.Replaces (s.clearFrom A 0 .trap).2.1 .trap [pointOf traps]) ∧
    ∃ front, Reaches (A.showings 0 SourceType.all) front (fun _ => [])
      (.error (.storage "disk full")) (s.clearAllFrom A 0).2.1 := by
  intro traps A s
  obtain ⟨hsource, -, -, hall⟩ := (histories_after_failure s).1 A 0
  obtain ⟨-, hloaded, -, hcleared⟩ := hsource .trap
  obtain ⟨hkept, -, hlost, -⟩ := ((histories_after_failure s).1 A 2).1 .trap
  exact ⟨⟨rfl, hkept _ rfl .trap⟩, ⟨rfl, (hloaded 1 rfl).2⟩, ⟨rfl, hlost _ rfl⟩,
    ⟨rfl, (hcleared 1 rfl).2⟩, hall⟩

/-- A history of one point is forgotten, alone or with all others, and the store, which has failed since it was
loaded, does not give it back. -/
theorem forgotten_and_not_loaded :
    let traps : Summary := .trap ⟨⟨0, 0⟩, 4, 1, []⟩
    let store := Engine.storeSummary .empty traps
    let failing := { store with outages := [.visitSummaries] }
    let s := ((start .default defaultSeed).load store .trap).2
    s.history .trap = [pointOf traps] ∧
      (s.clear failing .trap).1 = .error (.storage "forced") ∧
      (s.clear failing .trap).2.history .trap ≠ s.history .trap ∧
      (s.clearAll failing).1 = .error (.storage "forced") ∧
      (s.clearAll failing).2.history .trap ≠ s.history .trap := by
  intro traps store failing s
  have hbefore : s.history .trap = [pointOf traps] := rfl
  have hcleared : (s.clear failing .trap).2.history .trap = [] := rfl
  have hallCleared : (s.clearAll failing).2.history .trap = [] := rfl
  refine ⟨hbefore, rfl, ?_, rfl, ?_⟩
  · rw [hbefore, hcleared]
    exact (List.cons_ne_nil _ _).symm
  · rw [hbefore, hallCleared]
    exact (List.cons_ne_nil _ _).symm

end Scorer

end LogWatch.Anomaly
