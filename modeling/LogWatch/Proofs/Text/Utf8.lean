import LogWatch.Proofs.Outcome
import LogWatch.Text.Utf8

/-!
# Texts and their bytes

What is read from bytes is a text just when they are the bytes of that text.

* `units_one` and its like — reading goes on behind a sequence of one to four bytes;
* `units_encodeChar` — the bytes of a character are read as that character;
* `encodeChar_one` and its like — what is put together from a sequence has that sequence as its bytes;
* `decode_eq_ok_iff` — the texts that are read;
* `shown_encode` — the bytes of a text are shown as the text.
-/

namespace LogWatch.Text.Utf8

/-! ## Sequences -/

section Sequences

variable {a b c d : UInt8} (index : Nat) (rest : List UInt8)

theorem between_iff {low high : UInt8} :
    (decide (low ≤ a) && decide (a ≤ high)) = true ↔ low.toNat ≤ a.toNat ∧ a.toNat ≤ high.toNat := by
  rw [Bool.and_eq_true, decide_eq_true_eq, decide_eq_true_eq, UInt8.le_iff_toNat_le,
    UInt8.le_iff_toNat_le]

theorem isContinuation_iff : isContinuation b = true ↔ 0x80 ≤ b.toNat ∧ b.toNat ≤ 0xBF := by
  rw [isContinuation, between_iff]
  rfl

theorem secondInRange_iff : secondInRange a b = true ↔
    0x80 ≤ b.toNat ∧ b.toNat ≤ 0xBF ∧ (a.toNat = 0xE0 → 0xA0 ≤ b.toNat) ∧
      (a.toNat = 0xED → b.toNat ≤ 0x9F) ∧ (a.toNat = 0xF0 → 0x90 ≤ b.toNat) ∧
      (a.toNat = 0xF4 → b.toNat ≤ 0x8F) := by
  simp only [secondInRange, isContinuation, beq_iff_eq, ← UInt8.toNat_inj]
  repeat' split
  all_goals
    rw [between_iff]
    simp only [UInt8.reduceToNat] at *
    omega

theorem units_one (ha : a.toNat < 0x80) :
    units index (a :: rest) = .ok (Char.ofNat a.toNat) :: units (index + 1) rest := by
  rw [units.eq_def]
  simp only [UInt8.lt_iff_toNat_lt, UInt8.reduceToNat, if_pos ha]

theorem units_two (ha : 0xC2 ≤ a.toNat ∧ a.toNat ≤ 0xDF) (hb : isContinuation b = true) :
    units index (a :: b :: rest) = .ok (assemble (a.toNat - 0xC0) [b]) :: units (index + 2) rest := by
  have hnot : ¬ a.toNat < 0x80 := by omega
  rw [units.eq_def]
  simp [UInt8.lt_iff_toNat_lt, UInt8.le_iff_toNat_le, hnot, ha, hb]

theorem units_three (ha : 0xE0 ≤ a.toNat ∧ a.toNat ≤ 0xEF) (hb : secondInRange a b = true)
    (hc : isContinuation c = true) :
    units index (a :: b :: c :: rest) =
      .ok (assemble (a.toNat - 0xE0) [b, c]) :: units (index + 3) rest := by
  have hnot : ¬ a.toNat < 0x80 := by omega
  have hlonger : ¬ a.toNat ≤ 0xDF := by omega
  rw [units.eq_def]
  simp [UInt8.lt_iff_toNat_lt, UInt8.le_iff_toNat_le, hnot, hlonger, ha, hb, hc]

theorem units_four (ha : 0xF0 ≤ a.toNat ∧ a.toNat ≤ 0xF4) (hb : secondInRange a b = true)
    (hc : isContinuation c = true) (hd : isContinuation d = true) :
    units index (a :: b :: c :: d :: rest) =
      .ok (assemble (a.toNat - 0xF0) [b, c, d]) :: units (index + 4) rest := by
  have hnot : ¬ a.toNat < 0x80 := by omega
  have hlonger : ¬ a.toNat ≤ 0xDF := by omega
  have hlongest : ¬ a.toNat ≤ 0xEF := by omega
  rw [units.eq_def]
  simp [UInt8.lt_iff_toNat_lt, UInt8.le_iff_toNat_le, hnot, hlonger, hlongest, ha, hb, hc, hd]

end Sequences

/-! ## Characters -/

/-- The code points of characters leave out the surrogates. -/
theorem toNat_lt_or (c : Char) : c.toNat < 0xD800 ∨ 0xDFFF < c.toNat ∧ c.toNat < 0x110000 :=
  c.valid

theorem assemble_eq {first : Nat} {more : List UInt8} {c : Char}
    (h : more.foldl (fun n b => n * 64 + b.toNat % 64) first = c.toNat) : assemble first more = c := by
  rw [assemble, h, Char.ofNat_toNat]

theorem toNat_byte {n : Nat} (h : n < 256) : (UInt8.ofNat n).toNat = n :=
  UInt8.toNat_ofNat_of_lt' h

/-- The byte that continues a sequence with the last six bits of a number. -/
theorem toNat_continuation (n : Nat) : (UInt8.ofNat (n % 64 + 128)).toNat = n % 64 + 128 :=
  toNat_byte (by omega)

theorem isContinuation_continuation (n : Nat) : isContinuation (UInt8.ofNat (n % 64 + 128)) = true := by
  rw [isContinuation_iff, toNat_continuation]
  omega

/-- The bytes of a character are read as that character. -/
theorem units_encodeChar (index : Nat) (c : Char) (rest : List UInt8) :
    units index (String.utf8EncodeChar c ++ rest) =
      .ok c :: units (index + (String.utf8EncodeChar c).length) rest := by
  have hpoint := toNat_lt_or c
  have hval : c.val.toNat = c.toNat := rfl
  simp only [String.utf8EncodeChar, hval]
  split
  · have ha : (UInt8.ofNat c.toNat).toNat = c.toNat := toNat_byte (by omega)
    rw [List.singleton_append, units_one _ _ (by omega), ha, Char.ofNat_toNat]
    rfl
  · split
    · have ha : (UInt8.ofNat (c.toNat / 64 % 32 + 192)).toNat = c.toNat / 64 + 192 := by
        rw [toNat_byte (by omega)]
        omega
      rw [List.cons_append, List.singleton_append,
        units_two _ _ (by omega) (isContinuation_continuation _), assemble_eq (c := c)]
      · rfl
      · simp only [List.foldl_cons, List.foldl_nil, ha, toNat_continuation]
        omega
    · split
      · have ha : (UInt8.ofNat (c.toNat / 4096 % 16 + 224)).toNat = c.toNat / 4096 + 224 := by
          rw [toNat_byte (by omega)]
          omega
        have hsecond := secondInRange_iff (a := UInt8.ofNat (c.toNat / 4096 % 16 + 224))
          (b := UInt8.ofNat (c.toNat / 64 % 64 + 128))
        rw [ha, toNat_continuation] at hsecond
        rw [List.cons_append, List.cons_append, List.singleton_append,
          units_three _ _ (by omega) (hsecond.2 (by omega)) (isContinuation_continuation _),
          assemble_eq (c := c)]
        · rfl
        · simp only [List.foldl_cons, List.foldl_nil, ha, toNat_continuation]
          omega
      · have ha : (UInt8.ofNat (c.toNat / 262144 % 8 + 240)).toNat = c.toNat / 262144 + 240 := by
          rw [toNat_byte (by omega)]
          omega
        have hsecond := secondInRange_iff (a := UInt8.ofNat (c.toNat / 262144 % 8 + 240))
          (b := UInt8.ofNat (c.toNat / 4096 % 64 + 128))
        rw [ha, toNat_continuation] at hsecond
        rw [List.cons_append, List.cons_append, List.cons_append, List.singleton_append,
          units_four _ _ (by omega) (hsecond.2 (by omega)) (isContinuation_continuation _)
            (isContinuation_continuation _), assemble_eq (c := c)]
        · rfl
        · simp only [List.foldl_cons, List.foldl_nil, ha, toNat_continuation]
          omega

theorem toNat_ofNat {n : Nat} (h : n < 0xD800 ∨ 0xDFFF < n ∧ n < 0x110000) :
    (Char.ofNat n).toNat = n := by
  rw [Char.ofNat, dif_pos h]
  rfl

theorem ofNat_eq {a : UInt8} {n : Nat} (h : n = a.toNat) : UInt8.ofNat n = a := by
  rw [h, UInt8.ofNat_toNat]

/-! ## Characters put together from sequences -/

section Assembled

variable {a b c d : UInt8}

theorem encodeChar_one (ha : a.toNat < 0x80) : String.utf8EncodeChar (Char.ofNat a.toNat) = [a] := by
  have hpoint : (Char.ofNat a.toNat).val.toNat = a.toNat := toNat_ofNat (by omega)
  simp only [String.utf8EncodeChar, hpoint]
  rw [if_pos (by omega), ofNat_eq rfl]

theorem encodeChar_two (ha : 0xC2 ≤ a.toNat ∧ a.toNat ≤ 0xDF) (hb : isContinuation b = true) :
    String.utf8EncodeChar (assemble (a.toNat - 0xC0) [b]) = [a, b] := by
  rw [isContinuation_iff] at hb
  have hpoint : (assemble (a.toNat - 0xC0) [b]).val.toNat =
      (a.toNat - 0xC0) * 64 + b.toNat % 64 := toNat_ofNat (by simp; omega)
  simp only [String.utf8EncodeChar, hpoint]
  rw [if_neg (by omega), if_pos (by omega), ofNat_eq (a := a) (by omega), ofNat_eq (a := b) (by omega)]

theorem encodeChar_three (ha : 0xE0 ≤ a.toNat ∧ a.toNat ≤ 0xEF) (hb : secondInRange a b = true)
    (hc : isContinuation c = true) :
    String.utf8EncodeChar (assemble (a.toNat - 0xE0) [b, c]) = [a, b, c] := by
  rw [secondInRange_iff] at hb
  rw [isContinuation_iff] at hc
  have hpoint : (assemble (a.toNat - 0xE0) [b, c]).val.toNat =
      ((a.toNat - 0xE0) * 64 + b.toNat % 64) * 64 + c.toNat % 64 := toNat_ofNat (by simp; omega)
  simp only [String.utf8EncodeChar, hpoint]
  rw [if_neg (by omega), if_neg (by omega), if_pos (by omega), ofNat_eq (a := a) (by omega),
    ofNat_eq (a := b) (by omega), ofNat_eq (a := c) (by omega)]

theorem encodeChar_four (ha : 0xF0 ≤ a.toNat ∧ a.toNat ≤ 0xF4) (hb : secondInRange a b = true)
    (hc : isContinuation c = true) (hd : isContinuation d = true) :
    String.utf8EncodeChar (assemble (a.toNat - 0xF0) [b, c, d]) = [a, b, c, d] := by
  rw [secondInRange_iff] at hb
  rw [isContinuation_iff] at hc hd
  have hpoint : (assemble (a.toNat - 0xF0) [b, c, d]).val.toNat =
      (((a.toNat - 0xF0) * 64 + b.toNat % 64) * 64 + c.toNat % 64) * 64 + d.toNat % 64 :=
    toNat_ofNat (by simp; omega)
  simp only [String.utf8EncodeChar, hpoint]
  rw [if_neg (by omega), if_neg (by omega), if_neg (by omega), ofNat_eq (a := a) (by omega),
    ofNat_eq (a := b) (by omega), ofNat_eq (a := c) (by omega), ofNat_eq (a := d) (by omega)]

end Assembled

/-! ## Texts -/

/-- Results in a row are all good just when they are the good ones of some list. -/
theorem mapM_id_eq_ok_iff {ε α : Type} {results : List (Except ε α)} {values : List α} :
    results.mapM id = .ok values ↔ results = values.map .ok := by
  rw [mapM_eq_ok_iff, ← List.forall₂_map_right_iff]
  exact iff_of_eq (congrFun₂ List.forall₂_eq_eq_eq results (values.map .ok))

theorem decode_eq_ok_iff_units {bytes : List UInt8} {text : String} :
    decode bytes = .ok text ↔ units 0 bytes = text.toList.map .ok := by
  rw [decode, ← mapM_id_eq_ok_iff]
  cases (units 0 bytes).mapM id with
  | error e => simp [Except.map]
  | ok cs =>
    simp only [Except.map, Except.ok.injEq]
    exact ⟨fun h => by rw [← h, String.toList_ofList], fun h => by rw [h, String.ofList_toList]⟩

/-- The bytes of characters are read as those characters. -/
theorem units_flatMap_encodeChar (index : Nat) (cs : List Char) :
    units index (cs.flatMap String.utf8EncodeChar) = cs.map .ok := by
  induction cs generalizing index with
  | nil => rfl
  | cons c cs ih => rw [List.flatMap_cons, units_encodeChar, ih, List.map_cons]

theorem decode_encode (text : String) : decode (encode text) = .ok text :=
  decode_eq_ok_iff_units.2 (units_flatMap_encodeChar 0 text.toList)

/-- The bytes of a text are shown as the text. -/
theorem shown_encode (text : String) : shown (encode text) = text := by
  rw [shown, encode, units_flatMap_encodeChar, List.map_map]
  exact (congrArg String.ofList (List.map_id _)).trans String.ofList_toList

/-- Bytes are read as something. -/
theorem units_ne_nil (index : Nat) (a : UInt8) (rest : List UInt8) : units index (a :: rest) ≠ [] := by
  rw [units.eq_def]
  dsimp only
  repeat' split
  all_goals exact List.cons_ne_nil _ _

/-- What is read as a character first are its bytes. -/
theorem exists_append_of_units {index : Nat} {bytes : List UInt8} {c : Char}
    {results : List (Except Fault Char)} (h : units index bytes = .ok c :: results) :
    ∃ next rest, bytes = String.utf8EncodeChar c ++ rest ∧ units next rest = results := by
  revert h
  fun_cases units index bytes <;> intro h
  case case2 a rest ha =>
    cases h
    rw [encodeChar_one (UInt8.lt_iff_toNat_lt.1 ha)]
    exact ⟨index + 1, rest, rfl, rfl⟩
  case case4 a _ ha b rest hb =>
    cases h
    rw [encodeChar_two (between_iff.1 ha) hb]
    exact ⟨index + 2, rest, rfl, rfl⟩
  case case9 a _ _ ha b hb d rest hd =>
    cases h
    rw [encodeChar_three (between_iff.1 ha) (by simpa using hb) hd]
    exact ⟨index + 3, rest, rfl, rfl⟩
  case case16 a _ _ _ ha b hb d hd e rest he =>
    cases h
    rw [encodeChar_four (between_iff.1 ha) (by simpa using hb) (by simpa using hd) he]
    exact ⟨index + 4, rest, rfl, rfl⟩
  -- What is left begins with a fault, or with nothing.
  all_goals cases h

/-- Where nothing is faulty, the bytes are those of the characters that are read. -/
theorem flatMap_encodeChar_of_units {index : Nat} {bytes : List UInt8} {cs : List Char}
    (h : units index bytes = cs.map .ok) : bytes = cs.flatMap String.utf8EncodeChar := by
  induction cs generalizing index bytes with
  | nil =>
    cases bytes with
    | nil => rfl
    | cons a rest => exact absurd h (units_ne_nil index a rest)
  | cons c cs ih =>
    obtain ⟨next, rest, rfl, hrest⟩ := exists_append_of_units h
    rw [List.flatMap_cons, ← ih hrest]

/-- What is read is a text just when the bytes are those of the text. -/
theorem decode_eq_ok_iff {bytes : List UInt8} {text : String} :
    decode bytes = .ok text ↔ bytes = encode text := by
  constructor
  · intro h
    exact flatMap_encodeChar_of_units (decode_eq_ok_iff_units.1 h)
  · rintro rfl
    exact decode_encode text

end LogWatch.Text.Utf8
