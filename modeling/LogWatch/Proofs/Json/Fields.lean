import LogWatch.Json.Words
import LogWatch.Proofs.Outcome
import Mathlib.Data.List.Nodup

/-!
# Objects read as they were written

An object lists its members in the order of the fields, and members that are absent are left out.  Where
no name comes twice, the reader finds each member under its name, and the leaves give the words,
strings and finite doubles that were written.

* `Json.fields?_obj` — the fields of an object that was written from them;
* `Json.tagged?_obj` — the variant of an object that carries it in front;
* `Json.u8?_ofNat`, …, `Json.float?_ofFloat` — the leaves.
-/

namespace LogWatch.Json

/-! ## Lists -/

/-- A list is read item by item. -/
theorem list?_map {α : Type} {write : α → Json} {item? : Json → Option α}
    (h : ∀ a, item? (write a) = some a) (as : List α) :
    list? item? (.arr (as.map write)) = some as := by
  have hitems : as.mapM (item? ∘ write) = some (as.map id) :=
    mapM_eq_some_map fun a _ => h a
  rw [list?, List.mapM_map, hitems, List.map_id]

/-! ## Members -/

section Members

variable {members : List (String × Json)}

theorem occurrences_cons (name : String) (m : String × Json) (members : List (String × Json)) :
    occurrences name (m :: members) =
      if m.1 = name then m.2 :: occurrences name members else occurrences name members := by
  unfold occurrences
  rw [List.filterMap_cons]
  by_cases h : m.1 = name <;> simp [h]

theorem ne_of_not_mem_names {name : String} (h : name ∉ members.map (·.1)) {m : String × Json}
    (hm : m ∈ members) : m.1 ≠ name := by
  rintro rfl
  exact h (List.mem_map.2 ⟨m, hm, rfl⟩)

theorem occurrences_of_not_mem {name : String} (h : name ∉ members.map (·.1)) :
    occurrences name members = [] := by
  unfold occurrences
  rw [List.filterMap_eq_nil_iff]
  intro m hm
  simp [ne_of_not_mem_names h hm]

/-- Where no name comes twice, a member is the only one of its name. -/
theorem occurrences_of_mem (hnames : (members.map (·.1)).Nodup) {m : String × Json}
    (hm : m ∈ members) : occurrences m.1 members = [m.2] := by
  induction members with
  | nil => cases hm
  | cons n members ih =>
    rw [List.map_cons, List.nodup_cons] at hnames
    rw [occurrences_cons]
    rcases List.mem_cons.1 hm with rfl | hm
    · rw [if_pos rfl, occurrences_of_not_mem hnames.1]
    · have hne : n.1 ≠ m.1 := (ne_of_not_mem_names hnames.1 hm).symm
      rw [if_neg hne, ih hnames.2 hm]

/-- The value of a field that may come once. -/
def single? : List Json → Option (Option Json)
  | [] => some none
  | [j] => some (some j)
  | _ => none

theorem fields?_obj_eq_mapM (names : List String) (members : List (String × Json)) :
    (Json.obj members).fields? names = names.mapM fun name => single? (occurrences name members) :=
  rfl

/-- The fields of an object that lists some of them in order and leaves out the last ones. -/
theorem fields?_obj {names : List String} (absent : List String)
    (hnames : names = members.map (·.1) ++ absent) (hnodup : names.Nodup) :
    (Json.obj members).fields? names =
      some (members.map (fun m => some m.2) ++ absent.map fun _ => none) := by
  subst hnames
  obtain ⟨hmembers, -, hapart⟩ := List.nodup_append.1 hnodup
  have hpresent : (members.map (·.1)).mapM (fun name => single? (occurrences name members)) =
      some (members.map fun m => some m.2) := by
    rw [List.mapM_map]
    apply mapM_eq_some_map
    intro m hm
    show single? (occurrences m.1 members) = some (some m.2)
    rw [occurrences_of_mem hmembers hm]
    rfl
  have habsent : absent.mapM (fun name => single? (occurrences name members)) =
      some (absent.map fun _ => none) := by
    apply mapM_eq_some_map
    intro name hname
    have hnot : name ∉ members.map (·.1) := fun hmem => hapart name hmem name hname rfl
    rw [occurrences_of_not_mem hnot]
    rfl
  rw [fields?_obj_eq_mapM, List.mapM_append, hpresent, habsent]
  rfl

/-- An object with its variant in front is read as this variant and the members that follow. -/
theorem tagged?_obj {tag v : String} (hreadable : isReadableMembers members = true)
    (htag : tag ∉ members.map (·.1)) :
    (Json.obj ((tag, .str v) :: members)).tagged? tag = some (v, .obj members) := by
  have hwhole : (Json.obj ((tag, .str v) :: members)).isReadable = true := by
    simp [isReadable, isReadableMembers, hreadable]
  unfold tagged?
  rw [hwhole]
  simpa [occurrences_cons, occurrences_of_not_mem htag] using
    fun name j => ne_of_not_mem_names htag (m := (name, j))

end Members

/-! ## Leaves -/

@[simp] theorem required?_some {α : Type} (value? : Json → Option α) (j : Json) :
    required? value? (some j) = value? j :=
  rfl

/-- A field that is read for sure is read before the others. -/
theorem required?_bind {α β : Type} {value? : Json → Option α} {j : Json} {a : α}
    (h : value? j = some a) (f : α → Option β) : (required? value? (some j) >>= f) = f a := by
  rw [required?_some, h]
  rfl

@[simp] theorem withDefault?_some {α : Type} (value? : Json → Option α) (default : α) (j : Json) :
    withDefault? value? default (some j) = value? j :=
  rfl

@[simp] theorem optional?_none {α : Type} (value? : Json → Option α) :
    optional? value? none = some none :=
  rfl

@[simp] theorem str?_str (s : String) : str? (.str s) = some s :=
  rfl

@[simp] theorem variant?_str (s : String) : variant? (.str s) = some s :=
  rfl

@[simp] theorem optional?_ofString? (s : Option String) :
    optional? str? (some (ofString? s)) = some s := by
  cases s <;> rfl

theorem nat?_ofNat {bound n : Nat} (h : n < bound) : nat? bound (ofNat n) = some n :=
  if_pos h

@[simp] theorem u8?_ofNat (n : UInt8) : u8? (ofNat n.toNat) = some n := by
  rw [u8?, nat?_ofNat n.toNat_lt, Option.map_some, UInt8.ofNat_toNat]

@[simp] theorem u16?_ofNat (n : UInt16) : u16? (ofNat n.toNat) = some n := by
  rw [u16?, nat?_ofNat n.toNat_lt, Option.map_some, UInt16.ofNat_toNat]

@[simp] theorem u32?_ofNat (n : UInt32) : u32? (ofNat n.toNat) = some n := by
  rw [u32?, nat?_ofNat n.toNat_lt, Option.map_some, UInt32.ofNat_toNat]

@[simp] theorem u64?_ofNat (n : UInt64) : u64? (ofNat n.toNat) = some n := by
  rw [u64?, nat?_ofNat n.toNat_lt, Option.map_some, UInt64.ofNat_toNat]

/-- A double comes back just when it is finite: the others are written as `null`. -/
@[simp] theorem float?_ofFloat_eq_some_iff {x y : Float} :
    float? (ofFloat x) = some y ↔ Number.isFinite x = true ∧ x = y := by
  by_cases h : Number.isFinite x = true <;> simp [ofFloat, h, float?]

@[simp] theorem optional?_ofFloat_eq_some_iff {x y : Float} :
    optional? float? (some (ofFloat x)) = some (some y) ↔ Number.isFinite x = true ∧ x = y := by
  by_cases h : Number.isFinite x = true <;> simp [ofFloat, h, optional?, float?]

@[simp] theorem time?_ofTime (t : Time.Instant) : time? (ofTime t) = Time.Instant.ofText? t.toText :=
  rfl

@[simp] theorem address?_ofAddress (a : Net.IpAddress) :
    address? (ofAddress a) = Net.IpAddress.ofText? a.toText :=
  rfl

/-! ## Readable values -/

theorem isReadableList_map {α : Type} {write : α → Json} (h : ∀ a, (write a).isReadable = true)
    (as : List α) : isReadableList (as.map write) = true := by
  induction as with
  | nil => rfl
  | cons a as ih => simp [isReadableList, h, ih]

@[simp] theorem isReadable_ofNat (n : Nat) : (ofNat n).isReadable = true :=
  rfl

@[simp] theorem isReadable_ofTime (t : Time.Instant) : (ofTime t).isReadable = true :=
  rfl

@[simp] theorem isReadable_ofAddress (a : Net.IpAddress) : (ofAddress a).isReadable = true :=
  rfl

@[simp] theorem isReadable_ofString? (s : Option String) : (ofString? s).isReadable = true := by
  cases s <;> rfl

@[simp] theorem isReadable_ofFloat (x : Float) : (ofFloat x).isReadable = true := by
  unfold ofFloat
  split <;> rfl

end LogWatch.Json
