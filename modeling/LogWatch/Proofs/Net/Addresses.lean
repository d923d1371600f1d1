import LogWatch.Net.Address
import LogWatch.Proofs.Outcome
import LogWatch.Proofs.Text.Pieces
import Mathlib.Data.List.TakeWhile

/-!
# Addresses read as they were written

* `IpAddress.ofText?_toText` — a written address is read back;
* `IpAddress.toText_injective` — different addresses are written differently;
* `IpAddress.not_mem_toText` — an address is written without spaces.
-/

namespace LogWatch.Net.IpAddress

/-! ## Digits -/

theorem exists_digit_of_mem {b n : Nat} (hb : 1 < b) {c : Char} (h : c ∈ Nat.toDigits b n) :
    ∃ d, d < b ∧ c = d.digitChar := by
  induction n using Nat.strongRecOn with
  | ind n ih =>
    rw [Nat.toDigits_eq_if hb] at h
    split at h
    · rename_i hn
      exact ⟨n, hn, List.mem_singleton.1 h⟩
    · rename_i hn
      rcases List.mem_append.1 h with h | h
      · exact ih (n / b) (Nat.div_lt_self (by omega) hb) h
      · exact ⟨n % b, Nat.mod_lt n (by omega), List.mem_singleton.1 h⟩

/-- The characters between digits, and the space. -/
def IsMark (c : Char) : Prop :=
  c = ':' ∨ c = '.' ∨ c = ' '

theorem not_isMark_digitChar {d : Nat} (h : d < 16) : ¬ IsMark d.digitChar := by
  unfold IsMark
  revert d
  decide

theorem not_mem_hexadecimal {c : Char} (hc : IsMark c) (n : Nat) :
    c ∉ (Text.hexadecimal n).toList := by
  rw [Text.hexadecimal, String.toList_ofList]
  intro h
  obtain ⟨d, hd, rfl⟩ := exists_digit_of_mem (by decide) h
  exact not_isMark_digitChar hd hc

theorem not_mem_decimal {c : Char} (hc : IsMark c) (n : Nat) : c ∉ (Text.decimal n).toList := by
  rw [Text.decimal, Nat.toList_repr]
  intro h
  obtain ⟨d, hd, rfl⟩ := exists_digit_of_mem (by decide) h
  exact not_isMark_digitChar (Nat.lt_trans hd (by decide)) hc

theorem hexValue?_digitChar {d : Nat} (h : d < 16) : Text.hexValue? d.digitChar = some d := by
  revert d
  decide

theorem exists_hexValues (n : Nat) :
    ∃ ds, (Nat.toDigits 16 n).mapM Text.hexValue? = some ds ∧
      ds.foldl (fun n d => n * 16 + d) 0 = n := by
  induction n using Nat.strongRecOn with
  | ind n ih =>
    rw [Nat.toDigits_eq_if (by decide)]
    split
    · rename_i hn
      refine ⟨[n], ?_, ?_⟩
      · rw [List.mapM_cons, hexValue?_digitChar hn]
        rfl
      · simp
    · rename_i hn
      obtain ⟨ds, hds, hvalue⟩ := ih (n / 16) (by omega)
      refine ⟨ds ++ [n % 16], ?_, ?_⟩
      · rw [List.mapM_append, hds, List.mapM_cons, hexValue?_digitChar (Nat.mod_lt _ (by decide))]
        rfl
      · rw [List.foldl_append, hvalue, List.foldl_cons, List.foldl_nil]
        omega

/-- A group is read as it was written. -/
theorem group?_hexadecimal {g : Nat} (h : g < 65536) : group? (Text.hexadecimal g).toList = some g := by
  obtain ⟨ds, hds, hvalue⟩ := exists_hexValues g
  have hlength : (Nat.toDigits 16 g).length ≤ 4 :=
    (Nat.length_toDigits_le_iff (by decide) (by decide)).2 h
  rw [group?, Text.hexadecimal, String.toList_ofList, hds, if_neg]
  · rw [Option.map_some, hvalue]
  · simpa [Nat.toDigits_ne_nil] using hlength

/-- An octet is read as it was written. -/
theorem octet?_decimal {n : Nat} (h : n < 256) : octet? (Text.decimal n).toList = some n := by
  rw [Text.decimal, Nat.toList_repr]
  revert n
  decide +kernel

/-! ## Four octets -/

theorem lt_of_mem_octets {bits : BitVec 32} {n : Nat} (h : n ∈ octets bits) : n < 256 := by
  simp only [octets, List.mem_cons, List.not_mem_nil, or_false] at h
  omega

theorem toList_v4Text (bits : BitVec 32) :
    (v4Text bits).toList = ['.'].intercalate ((octets bits).map fun n => (Text.decimal n).toList) := by
  rw [v4Text, String.toList_intercalate, List.map_map]
  rfl

theorem v4Octets?_v4Text (bits : BitVec 32) :
    v4Octets? (v4Text bits).toList = some (octets bits) := by
  have hpieces : Text.splitOn '.' (v4Text bits).toList =
      (octets bits).map fun n => (Text.decimal n).toList := by
    rw [toList_v4Text, Text.splitOn_intercalate (by simp [octets])]
    intro piece hpiece
    obtain ⟨n, -, rfl⟩ := List.mem_map.1 hpiece
    exact not_mem_decimal (Or.inr (Or.inl rfl)) n
  have hfour : (octets bits).length = 4 := rfl
  have hoctets : (octets bits).mapM (octet? ∘ fun n => (Text.decimal n).toList) =
      some ((octets bits).map id) :=
    mapM_eq_some_map fun n hn => octet?_decimal (lt_of_mem_octets hn)
  rw [v4Octets?, hpieces, List.length_map, if_pos hfour, List.mapM_map, hoctets, List.map_id]

theorem ofOctets_octets (bits : BitVec 32) {a b c d : Nat} (h : octets bits = [a, b, c, d]) :
    ofOctets a b c d = .v4 bits := by
  simp only [octets, List.cons.injEq, and_true] at h
  obtain ⟨rfl, rfl, rfl, rfl⟩ := h
  rw [ofOctets]
  congr 1
  apply BitVec.eq_of_toNat_eq
  have hlt := bits.isLt
  rw [BitVec.toNat_ofNat]
  simp only [Nat.shiftRight_eq_div_pow]
  omega

theorem v4?_v4Text (bits : BitVec 32) : v4? (v4Text bits).toList = some (.v4 bits) := by
  rw [v4?, v4Octets?_v4Text]
  exact congrArg some (ofOctets_octets bits rfl)

/-! ## Eight groups -/

theorem lt_of_mem_groups {bits : BitVec 128} {g : Nat} (h : g ∈ groups bits) : g < 65536 := by
  obtain ⟨i, -, rfl⟩ := List.mem_map.1 h
  exact Nat.mod_lt _ (by decide)

theorem length_groups (bits : BitVec 128) : (groups bits).length = 8 :=
  rfl

theorem ofGroups_groups (bits : BitVec 128) : ofGroups (groups bits) = .v6 bits := by
  have hlt := bits.isLt
  have hshift (k : Nat) : bits.toNat >>> (16 * (k + 1)) = bits.toNat >>> (16 * k) / 65536 := by
    rw [Nat.mul_succ, Nat.shiftRight_add, Nat.shiftRight_eq_div_pow _ 16]
  have h0 := hshift 0
  have h1 := hshift 1
  have h2 := hshift 2
  have h3 := hshift 3
  have h4 := hshift 4
  have h5 := hshift 5
  have h6 := hshift 6
  have h7 : bits.toNat >>> (16 * 7) < 65536 := by
    rw [Nat.shiftRight_eq_div_pow]
    omega
  rw [ofGroups]
  congr 1
  apply BitVec.eq_of_toNat_eq
  rw [BitVec.toNat_ofNat]
  simp only [groups, List.range, List.range.loop, List.map_cons, List.map_nil, List.foldl_cons,
    List.foldl_nil]
  simp only [Nat.mul_zero, Nat.shiftRight_zero] at h0 ⊢
  omega

theorem toList_groupsText (gs : List Nat) :
    (groupsText gs).toList =
      [':'].intercalate (gs.map fun g => (Text.hexadecimal g).toList) := by
  rw [groupsText, String.toList_intercalate, List.map_map]
  rfl

/-- A written group is not empty and has no colon. -/
theorem hexadecimal_piece {gs : List Nat} :
    ∀ piece ∈ gs.map (fun g => (Text.hexadecimal g).toList), piece ≠ [] ∧ ':' ∉ piece := by
  intro piece hpiece
  obtain ⟨g, -, rfl⟩ := List.mem_map.1 hpiece
  refine ⟨?_, not_mem_hexadecimal (Or.inl rfl) g⟩
  rw [Text.hexadecimal, String.toList_ofList]
  exact Nat.toDigits_ne_nil

/-- Groups are read as they were written. -/
theorem groups?_groupsText {gs : List Nat} (h : ∀ g ∈ gs, g < 65536) (embedded : Bool) :
    groups? embedded (groupsText gs).toList = some gs := by
  cases gs with
  | nil => rfl
  | cons first rest =>
    have hpieces : Text.splitOn ':' (groupsText (first :: rest)).toList =
        (first :: rest).map fun g => (Text.hexadecimal g).toList := by
      rw [toList_groupsText]
      exact Text.splitOn_intercalate (by simp) fun piece hpiece => (hexadecimal_piece piece hpiece).2
    have hne : (groupsText (first :: rest)).toList.isEmpty = false := by
      rw [List.isEmpty_eq_false_iff]
      intro hempty
      rw [hempty, Text.splitOn] at hpieces
      exact (hexadecimal_piece [] (hpieces ▸ List.mem_singleton_self _)).1 rfl
    have hlast : (((first :: rest).map fun g => (Text.hexadecimal g).toList).getLast?.getD
        []).contains '.' = false := by
      rw [List.getLast?_map, List.getLast?_eq_some_getLast (List.cons_ne_nil first rest)]
      simpa using not_mem_hexadecimal (Or.inr (Or.inl rfl)) _
    have hgroups : (first :: rest).mapM (group? ∘ fun g => (Text.hexadecimal g).toList) =
        some ((first :: rest).map id) :=
      mapM_eq_some_map fun g hg => group?_hexadecimal (h g hg)
    simp only [groups?, hne, hpieces, hlast, Bool.and_false, Bool.false_eq_true, if_false]
    rw [List.mapM_map, hgroups, List.map_id]

/-! ## The gap -/

theorem cutAtGap_cons {c : Char} {cs : List Char} (h : c = ':' → cs.head? ≠ some ':') :
    cutAtGap (c :: cs) = (cutAtGap cs).map fun parts => (c :: parts.1, parts.2) := by
  rw [cutAtGap]
  rintro rest rfl rfl
  exact h rfl rfl

/-- What has no colon is not cut. -/
theorem cutAtGap_append {cs : List Char} (h : ':' ∉ cs) (rest : List Char) :
    cutAtGap (cs ++ rest) = (cutAtGap rest).map fun parts => (cs ++ parts.1, parts.2) := by
  induction cs with
  | nil => simp
  | cons c cs ih =>
    rw [List.mem_cons, not_or] at h
    rw [List.cons_append, cutAtGap_cons fun hc => absurd hc.symm h.1, ih h.2, Option.map_map]
    rfl

/-- Pieces with single colons between them are cut only behind the last of them. -/
theorem cutAtGap_intercalate_append {pieces : List (List Char)}
    (h : ∀ piece ∈ pieces, piece ≠ [] ∧ ':' ∉ piece) (rest : List Char) :
    cutAtGap ([':'].intercalate pieces ++ rest) =
      (cutAtGap rest).map fun parts => ([':'].intercalate pieces ++ parts.1, parts.2) := by
  induction pieces with
  | nil => simp
  | cons piece pieces ih =>
    obtain ⟨hpiece, hpieces⟩ := List.forall_mem_cons.1 h
    cases pieces with
    | nil => rw [List.intercalate_singleton, cutAtGap_append hpiece.2]
    | cons next pieces =>
      obtain ⟨d, ds, hnext⟩ := List.exists_cons_of_ne_nil (hpieces next List.mem_cons_self).1
      have hd : d ≠ ':' := by
        rintro rfl
        exact (hpieces next List.mem_cons_self).2 (hnext ▸ List.mem_cons_self)
      have hhead : (([':'].intercalate (next :: pieces)) ++ rest).head? ≠ some ':' := by
        cases pieces <;> simpa [hnext, List.intercalate_cons_cons] using hd
      rw [List.intercalate_cons_cons, List.append_assoc, List.append_assoc,
        cutAtGap_append hpiece.2, List.singleton_append, cutAtGap_cons fun _ => hhead, ih hpieces,
        Option.map_map, Option.map_map]
      simp [Function.comp_def]

/-- A place and a number of zeros from there on, behind which nothing has been skipped. -/
def IsRun (gs : List Nat) (run : Nat × Nat) : Prop :=
  gs = gs.take run.1 ++ List.replicate run.2 0 ++ gs.drop (run.1 + run.2)

theorem isRun_takeWhile (gs : List Nat) (i : Nat) :
    IsRun gs (i, ((gs.drop i).takeWhile (· == 0)).length) := by
  have hzeros : List.replicate ((gs.drop i).takeWhile (· == 0)).length 0 =
      (gs.drop i).takeWhile (· == 0) := by
    refine (List.eq_replicate_iff.2 ⟨rfl, fun g hg => ?_⟩).symm
    simpa using List.mem_takeWhile_imp hg
  have hrest : gs.drop (i + ((gs.drop i).takeWhile (· == 0)).length) =
      (gs.drop i).dropWhile (· == 0) := by
    rw [← List.drop_drop]
    nth_rewrite 2 [← List.takeWhile_append_dropWhile (p := (· == 0)) (l := gs.drop i)]
    rw [List.drop_left]
  rw [IsRun, hzeros, hrest, List.append_assoc, List.takeWhile_append_dropWhile,
    List.take_append_drop]

theorem isRun_foldl {gs : List Nat} (runs : List (Nat × Nat)) (hruns : ∀ run ∈ runs, IsRun gs run)
    {best : Nat × Nat} (hbest : IsRun gs best) :
    IsRun gs (runs.foldl (fun best run => if best.2 < run.2 then run else best) best) := by
  induction runs generalizing best with
  | nil => exact hbest
  | cons run runs ih =>
    obtain ⟨hrun, hruns⟩ := List.forall_mem_cons.1 hruns
    rw [List.foldl_cons]
    split
    · exact ih hruns hrun
    · exact ih hruns hbest

theorem isRun_longestZeros (gs : List Nat) : IsRun gs (longestZeros gs) := by
  refine isRun_foldl _ ?_ rfl
  intro run hrun
  obtain ⟨i, -, rfl⟩ := List.mem_map.1 hrun
  exact isRun_takeWhile gs i

/-! ## Both families -/

/-- Of the groups of a run of zeros the others are enough. -/
theorem v6?_gap {bits : BitVec 128} {start length : Nat} (hrun : IsRun (groups bits) (start, length))
    (hlength : 1 < length) :
    v6? ((groupsText ((groups bits).take start) ++ "::" ++
      groupsText ((groups bits).drop (start + length))).toList) = some (.v6 bits) := by
  have hfront : groups? false (groupsText ((groups bits).take start)).toList =
      some ((groups bits).take start) :=
    groups?_groupsText (fun g hg => lt_of_mem_groups (List.mem_of_mem_take hg)) false
  have hback : groups? true (groupsText ((groups bits).drop (start + length))).toList =
      some ((groups bits).drop (start + length)) :=
    groups?_groupsText (fun g hg => lt_of_mem_groups (List.mem_of_mem_drop hg)) true
  have hcut : cutAtGap ((groupsText ((groups bits).take start) ++ "::" ++
      groupsText ((groups bits).drop (start + length))).toList) =
      some ((groupsText ((groups bits).take start)).toList,
        (groupsText ((groups bits).drop (start + length))).toList) := by
    rw [String.toList_append, String.toList_append, List.append_assoc, toList_groupsText,
      cutAtGap_intercalate_append hexadecimal_piece]
    simp [cutAtGap]
  have hsum := congrArg List.length hrun
  rw [List.length_append, List.length_append, List.length_replicate, length_groups] at hsum
  dsimp only at hsum
  simp only [v6?, hcut, hfront, hback, Option.bind_eq_bind, Option.bind_some]
  have hzeros : 8 - ((groups bits).take start).length -
      ((groups bits).drop (start + length)).length = length := by omega
  rw [if_pos (by omega), hzeros, ← hrun, ofGroups_groups]

theorem v6?_whole (bits : BitVec 128) : v6? (groupsText (groups bits)).toList = some (.v6 bits) := by
  have hcut : cutAtGap (groupsText (groups bits)).toList = none := by
    have h := cutAtGap_intercalate_append (@hexadecimal_piece (groups bits)) []
    rw [List.append_nil, ← toList_groupsText] at h
    exact h
  have hgroups := groups?_groupsText (fun g => @lt_of_mem_groups bits g) true
  simp only [v6?, hcut, hgroups, length_groups, if_true, ofGroups_groups]

theorem not_mem_v4Text {c : Char} (hc : c = ':' ∨ c = ' ') (bits : BitVec 32) :
    c ∉ (v4Text bits).toList := by
  have hmark : IsMark c := hc.elim Or.inl fun h => Or.inr (Or.inr h)
  have hpoint : c ≠ '.' := by
    rintro rfl
    exact absurd hc (by decide)
  rw [toList_v4Text]
  simp [octets, List.intercalate_cons_cons, hpoint, not_mem_decimal hmark]

theorem point_mem_v4Text (bits : BitVec 32) : '.' ∈ (v4Text bits).toList := by
  rw [toList_v4Text]
  simp [octets, List.intercalate_cons_cons]

/-- The last two groups of an address that embeds one of four octets. -/
theorem groups?_embedded (bits : BitVec 32) {a b c d : Nat} (h : octets bits = [a, b, c, d]) :
    groups? true ("ffff:".toList ++ (v4Text bits).toList) =
      some [0xffff, a * 256 + b, c * 256 + d] := by
  have hpieces : Text.splitOn ':' ("ffff:".toList ++ (v4Text bits).toList) =
      ["ffff".toList, (v4Text bits).toList] := by
    have hcolon : "ffff:".toList ++ (v4Text bits).toList =
        "ffff".toList ++ ':' :: (v4Text bits).toList := by simp
    rw [hcolon, Text.splitOn_append_cons,
      Text.splitOn_of_not_mem (not_mem_v4Text (Or.inl rfl) bits)]
    rfl
  have hgroup : group? "ffff".toList = some 0xffff := by decide
  have hpoint : (v4Text bits).toList.contains '.' = true :=
    List.contains_iff_mem.2 (point_mem_v4Text bits)
  have hne : ("ffff:".toList ++ (v4Text bits).toList).isEmpty = false := rfl
  simp only [groups?, hne, hpieces, List.getLast?_cons_cons, List.getLast?_singleton,
    Option.getD_some, hpoint, Bool.and_self, Bool.false_eq_true, if_false, if_true,
    List.dropLast_cons_cons, List.dropLast_singleton, List.mapM_cons, List.mapM_nil, hgroup,
    v4Octets?_v4Text, h]
  rfl

theorem v6?_mapped {bits : BitVec 128} (h : (groups bits).take 6 = [0, 0, 0, 0, 0, 0xffff]) :
    v6? ("::ffff:" ++ v4Text (BitVec.ofNat 32 bits.toNat)).toList = some (.v6 bits) := by
  have htext : ("::ffff:" ++ v4Text (BitVec.ofNat 32 bits.toNat)).toList =
      ':' :: ':' :: ("ffff:".toList ++ (v4Text (BitVec.ofNat 32 bits.toNat)).toList) := by simp
  obtain ⟨a, b, c, d, hoctets⟩ : ∃ a b c d, octets (BitVec.ofNat 32 bits.toNat) = [a, b, c, d] :=
    ⟨_, _, _, _, rfl⟩
  have hback := groups?_embedded (BitVec.ofNat 32 bits.toNat) hoctets
  have hlast : (groups bits).drop 6 = [a * 256 + b, c * 256 + d] := by
    simp only [octets, BitVec.toNat_ofNat, List.cons.injEq, and_true] at hoctets
    obtain ⟨rfl, rfl, rfl, rfl⟩ := hoctets
    simp only [groups, List.range, List.range.loop, List.map_cons, List.map_nil, List.drop_succ_cons,
      List.drop_zero, Nat.shiftRight_eq_div_pow, List.cons.injEq, and_true]
    omega
  have hgroups : List.replicate 5 0 ++ [0xffff, a * 256 + b, c * 256 + d] = groups bits := by
    rw [← List.take_append_drop 6 (groups bits), h, hlast]
    rfl
  have hfront : groups? false [] = some [] := rfl
  rw [htext]
  have hroom : ([] : List Nat).length + [0xffff, a * 256 + b, c * 256 + d].length ≤ 7 := by
    simp
  simp only [v6?, cutAtGap, hfront, hback, Option.bind_eq_bind, Option.bind_some, if_pos hroom]
  exact congrArg some ((congrArg ofGroups hgroups).trans (ofGroups_groups bits))

/-- Groups are written with digits and colons. -/
theorem not_mem_groupsText {c : Char} (hc : c = '.' ∨ c = ' ') (gs : List Nat) :
    c ∉ (groupsText gs).toList := by
  have hcolon : c ≠ ':' := by
    rintro rfl
    exact absurd hc (by decide)
  rw [toList_groupsText]
  induction gs with
  | nil => simp
  | cons g gs ih =>
    cases gs with
    | nil => simpa using not_mem_hexadecimal (Or.inr hc) g
    | cons next gs =>
      rw [List.map_cons] at ih
      rw [List.map_cons, List.map_cons, List.intercalate_cons_cons]
      simp [not_mem_hexadecimal (Or.inr hc) g, hcolon, ih]

theorem v4?_of_not_mem {cs : List Char} (h : '.' ∉ cs) : v4? cs = none := by
  rw [v4?, v4Octets?, Text.splitOn_of_not_mem h]
  rfl

/-- Before the first point of an embedded address stands more than an octet. -/
theorem v4?_mapped (bits : BitVec 32) : v4? ("::ffff:" ++ v4Text bits).toList = none := by
  obtain ⟨a, rest, hrest⟩ : ∃ a rest, (v4Text bits).toList = (Text.decimal a).toList ++ '.' :: rest :=
    ⟨bits.toNat >>> 24 % 256, _, by
      rw [toList_v4Text, octets, List.map_cons, List.map_cons, List.intercalate_cons_cons,
        List.append_assoc, List.singleton_append]⟩
  have htext : ("::ffff:" ++ v4Text bits).toList =
      ("::ffff:".toList ++ (Text.decimal a).toList) ++ '.' :: rest := by
    rw [String.toList_append, hrest, List.append_assoc]
  have hfirst : '.' ∉ "::ffff:".toList ++ (Text.decimal a).toList := by
    simp [not_mem_decimal (Or.inr (Or.inl rfl))]
  have hoctet : octet? ("::ffff:".toList ++ (Text.decimal a).toList) = none := by
    simp [octet?]
  have hoctets : v4Octets? ("::ffff:" ++ v4Text bits).toList = none := by
    rw [v4Octets?, htext, Text.splitOn_append_cons, Text.splitOn_of_not_mem hfirst,
      List.singleton_append, List.mapM_cons, hoctet]
    exact ite_self none
  rw [v4?, hoctets]

/-- A written address of eight groups is not one of four octets. -/
theorem v4?_v6Text (bits : BitVec 128) : v4? (v6Text bits).toList = none := by
  rw [v6Text]
  dsimp only
  split
  · exact v4?_mapped (BitVec.ofNat 32 bits.toNat)
  · split
    · refine v4?_of_not_mem ?_
      simp [not_mem_groupsText (Or.inl rfl)]
    · exact v4?_of_not_mem (not_mem_groupsText (Or.inl rfl) _)

/-- A written address is read back. -/
theorem ofText?_toText (a : IpAddress) : ofText? a.toText = some a := by
  cases a with
  | v4 bits => rw [ofText?, toText, v4?_v4Text]
  | v6 bits =>
    rw [ofText?, toText, v4?_v6Text]
    dsimp only
    rw [v6Text]
    dsimp only
    split
    · rename_i h
      exact v6?_mapped h
    · split
      · rename_i hlength
        exact v6?_gap (isRun_longestZeros _) hlength
      · exact v6?_whole bits

/-- Different addresses are written differently. -/
theorem toText_injective : Function.Injective toText := by
  intro a b h
  have hread := congrArg ofText? h
  rwa [ofText?_toText, ofText?_toText, Option.some.injEq] at hread

/-- An address is written without spaces. -/
theorem not_mem_toText (a : IpAddress) : ' ' ∉ a.toText.toList := by
  cases a with
  | v4 bits => exact not_mem_v4Text (Or.inr rfl) bits
  | v6 bits =>
    rw [toText, v6Text]
    dsimp only
    split
    · simp [not_mem_v4Text (Or.inr rfl)]
    · split
      · simp [not_mem_groupsText (Or.inr rfl)]
      · exact not_mem_groupsText (Or.inr rfl) _

end LogWatch.Net.IpAddress
