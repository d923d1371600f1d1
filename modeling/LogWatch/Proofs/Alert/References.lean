import LogWatch.Alert.Webhook
import LogWatch.Proofs.Outcome
import LogWatch.Proofs.Text.Pieces

/-!
# References to variables of the environment

A text is read from left to right: a dollar sign with an opening brace begins a reference, which ends at
the next closing brace, and any other character stands for itself.  How a text is read does not depend on
what the variables hold, and what they hold is not read.

* `Piece`, `Reads` — the characters and references of a text, up to some place;
* `Piece.value`, `AreSet` — what a piece stands for, and pieces that all stand for something;
* `Ends`, `exists_reads_ends` — every text is read up to its end or up to the first fault;
* `Reads.unique` — a text is read in one way;
* `resolve_replaces_references` — what a text is resolved to, and when it is not.
-/

namespace LogWatch.Alert

/-! ## Reading -/

/-- How a reference begins. -/
def opening : List Char :=
  ['$', '\x7b']

/-- A character that stands for itself, or a reference to a variable. -/
inductive Piece where
  | char (c : Char)
  | reference (name : List Char)
deriving DecidableEq

/-- A text is read as some pieces, in order, up to a place where `rest` is left. -/
inductive Reads : List Char → List Piece → List Char → Prop
  | stop (rest : List Char) : Reads rest [] rest
  | char {c : Char} {text rest : List Char} {pieces : List Piece} (hc : ¬ opening <+: c :: text)
      (hmore : Reads text pieces rest) : Reads (c :: text) (.char c :: pieces) rest
  | reference {name text rest : List Char} {pieces : List Piece} (hname : '\x7d' ∉ name)
      (hmore : Reads text pieces rest) :
      Reads (opening ++ (name ++ '\x7d' :: text)) (.reference name :: pieces) rest

/-- What a piece stands for; a variable that is not set stands for nothing. -/
def Piece.value (env : String → Option String) : Piece → List Char
  | .char c => [c]
  | .reference name => ((env (String.ofList name)).getD "").toList

/-- All variables that some pieces refer to are set. -/
def AreSet (env : String → Option String) (pieces : List Piece) : Prop :=
  ∀ name, .reference name ∈ pieces → ∃ v, env (String.ofList name) = some v

/-- The ways in which nothing more is read: all has been read, a variable is not set, or a reference is not
closed. -/
inductive Ends (env : String → Option String) (whole : String) :
    List Char → Except ConfigFault (List Char) → Prop
  | done : Ends env whole [] (.ok [])
  | unknown {name rest : List Char} (hname : '\x7d' ∉ name)
      (hunset : env (String.ofList name) = none) :
      Ends env whole (opening ++ (name ++ '\x7d' :: rest))
        (.error (.unknownVariable (String.ofList name)))
  | unclosed {rest : List Char} (hrest : '\x7d' ∉ rest) :
      Ends env whole (opening ++ rest) (.error (.unclosedReference whole))

variable {env : String → Option String} {whole : String} {text rest : List Char}
  {pieces : List Piece}

theorem areSet_char {c : Char} : AreSet env (.char c :: pieces) ↔ AreSet env pieces := by
  simp [AreSet]

theorem areSet_reference {name : List Char} :
    AreSet env (.reference name :: pieces) ↔
      (∃ v, env (String.ofList name) = some v) ∧ AreSet env pieces := by
  simp [AreSet]

/-! ## Resolving what is read -/

theorem resolveFrom_char {c : Char} (hc : ¬ opening <+: c :: text) :
    resolveFrom env whole none (c :: text) = (c :: ·) <$> resolveFrom env whole none text := by
  rw [resolveFrom]
  · rfl
  · rintro more rfl rfl
    exact hc ⟨more, rfl⟩

/-- A reference that is closed, of which some has been read. -/
theorem resolveFrom_closed {name : List Char} (hname : '\x7d' ∉ name) (seen : List Char) :
    resolveFrom env whole (some seen) (name ++ '\x7d' :: rest) =
      match env (String.ofList (seen.reverse ++ name)) with
      | none => .error (.unknownVariable (String.ofList (seen.reverse ++ name)))
      | some v => (v.toList ++ ·) <$> resolveFrom env whole none rest := by
  induction name generalizing seen with
  | nil =>
    rw [List.nil_append, resolveFrom, if_pos rfl, List.append_nil]
    rfl
  | cons c name ih =>
    rw [List.mem_cons, not_or] at hname
    rw [List.cons_append, resolveFrom, if_neg (Ne.symm hname.1), ih hname.2, List.reverse_cons,
      List.append_assoc, List.singleton_append]

theorem resolveFrom_unclosed (hrest : '\x7d' ∉ rest) (seen : List Char) :
    resolveFrom env whole (some seen) rest = .error (.unclosedReference whole) := by
  induction rest generalizing seen with
  | nil => rfl
  | cons c rest ih =>
    rw [List.mem_cons, not_or] at hrest
    rw [resolveFrom, if_neg (Ne.symm hrest.1), ih hrest.2]

/-- What is read is put in front of what the rest is resolved to. -/
theorem Reads.resolveFrom_eq (h : Reads text pieces rest) (hset : AreSet env pieces) :
    resolveFrom env whole none text =
      (pieces.flatMap (Piece.value env) ++ ·) <$> resolveFrom env whole none rest := by
  induction h with
  | stop rest => simp
  | @char c text rest pieces hc hmore ih =>
    rw [resolveFrom_char hc, ih (areSet_char.1 hset)]
    simp [Piece.value]
  | @reference name text rest pieces hname hmore ih =>
    obtain ⟨⟨v, hv⟩, hset⟩ := areSet_reference.1 hset
    refine (resolveFrom_closed hname []).trans ?_
    rw [List.reverse_nil, List.nil_append, hv, ih hset]
    simp [Piece.value, hv]

theorem Ends.resolveFrom_eq {result : Except ConfigFault (List Char)}
    (h : Ends env whole rest result) : resolveFrom env whole none rest = result := by
  cases h with
  | done => rfl
  | @unknown name rest hname hunset =>
    refine (resolveFrom_closed hname []).trans ?_
    rw [List.reverse_nil, List.nil_append, hunset]
  | unclosed hrest => exact resolveFrom_unclosed hrest []

/-- Every text is read up to its end or up to the first fault. -/
theorem exists_reads_ends (env : String → Option String) (whole : String) (text : List Char) :
    ∃ pieces rest result, Reads text pieces rest ∧ AreSet env pieces ∧ Ends env whole rest result := by
  -- Behind a reference the rest is shorter, but it is not the tail.
  induction h : text.length using Nat.strongRecOn generalizing text with
  | ind n ih =>
    by_cases hopen : opening <+: text
    · obtain ⟨behind, rfl⟩ := hopen
      by_cases hclosed : '\x7d' ∈ behind
      · obtain ⟨name, more, rfl, hname⟩ := List.eq_append_cons_of_mem hclosed
        cases hvalue : env (String.ofList name) with
        | none => exact ⟨[], _, _, .stop _, nofun, .unknown hname hvalue⟩
        | some v =>
          have hshorter : more.length < n := by
            rw [← h, List.length_append, List.length_append, List.length_cons]
            omega
          obtain ⟨pieces, rest, result, hreads, hset, hends⟩ := ih _ hshorter more rfl
          exact ⟨_, _, _, .reference hname hreads, areSet_reference.2 ⟨⟨v, hvalue⟩, hset⟩, hends⟩
      · exact ⟨[], _, _, .stop _, nofun, .unclosed hclosed⟩
    · cases text with
      | nil => exact ⟨[], _, _, .stop _, nofun, .done⟩
      | cons c text =>
        obtain ⟨pieces, rest, result, hreads, hset, hends⟩ :=
          ih text.length (by rw [← h, List.length_cons]; omega) text rfl
        exact ⟨_, _, _, .char hopen hreads, areSet_char.2 hset, hends⟩

/-- What is read first. -/
theorem reads_iff :
    Reads text pieces rest ↔ (pieces = [] ∧ text = rest) ∨
      (∃ c text' pieces', pieces = .char c :: pieces' ∧ text = c :: text' ∧
        ¬ opening <+: c :: text' ∧ Reads text' pieces' rest) ∨
      ∃ name text' pieces', pieces = .reference name :: pieces' ∧
        text = opening ++ (name ++ '\x7d' :: text') ∧ '\x7d' ∉ name ∧ Reads text' pieces' rest := by
  constructor
  · intro h
    cases h with
    | stop => exact .inl ⟨rfl, rfl⟩
    | char hc hmore => exact .inr (.inl ⟨_, _, _, rfl, rfl, hc, hmore⟩)
    | reference hname hmore => exact .inr (.inr ⟨_, _, _, rfl, rfl, hname, hmore⟩)
  · rintro (⟨rfl, rfl⟩ | ⟨c, text', pieces', rfl, rfl, hc, hmore⟩ |
      ⟨name, text', pieces', rfl, rfl, hname, hmore⟩)
    · exact .stop _
    · exact .char hc hmore
    · exact .reference hname hmore

/-- A text that is read to its end is read in one way. -/
theorem Reads.unique {pieces' : List Piece} (h : Reads text pieces []) (h' : Reads text pieces' []) :
    pieces = pieces' := by
  generalize hrest : ([] : List Char) = rest at h
  induction h generalizing pieces' with
  | stop rest =>
    subst hrest
    rcases reads_iff.1 h' with ⟨rfl, -⟩ | ⟨c, _, _, -, h, -⟩ | ⟨name, _, _, -, h, -⟩
    · rfl
    · cases h
    · simp [opening] at h
  | @char c text rest pieces hc hmore ih =>
    rcases reads_iff.1 h' with ⟨-, h⟩ | ⟨d, text', pieces', rfl, h, -, hmore'⟩ |
      ⟨name, text', pieces', rfl, h, -⟩
    · cases h
    · cases h
      rw [ih hmore' hrest]
    · exact absurd ⟨_, h.symm⟩ hc
  | @reference name text rest pieces hname hmore ih =>
    rcases reads_iff.1 h' with ⟨-, h⟩ | ⟨c, text', pieces', rfl, h, hc, -⟩ |
      ⟨name', text', pieces', rfl, h, hname', hmore'⟩
    · simp [opening] at h
    · exact absurd ⟨_, h⟩ hc
    · obtain ⟨rfl, rfl⟩ := Text.eq_of_append_cons_eq hname hname' (List.append_cancel_left h)
      rw [ih hmore' hrest]

/-! ## Texts -/

/-- What comes of a text is what comes of its end, with what has been read in front. -/
theorem resolve_eq_of_reads {result : Except ConfigFault (List Char)} {text : String}
    (hreads : Reads text.toList pieces rest) (hset : AreSet env pieces)
    (hends : Ends env text rest result) :
    resolve env text =
      (fun behind => String.ofList (pieces.flatMap (Piece.value env) ++ behind)) <$> result := by
  rw [resolve, hreads.resolveFrom_eq hset, hends.resolveFrom_eq]
  cases result <;> rfl

/-- Whatever comes of a text, it comes of one of the ways in which the text ends. -/
theorem exists_ends_of_resolve_eq {text : String} {outcome : Except ConfigFault String}
    (h : resolve env text = outcome) :
    ∃ pieces rest result, Reads text.toList pieces rest ∧ AreSet env pieces ∧
      Ends env text rest result ∧
        (fun behind => String.ofList (pieces.flatMap (Piece.value env) ++ behind)) <$> result =
          outcome := by
  obtain ⟨pieces, rest, result, hreads, hset, hends⟩ := exists_reads_ends env text text.toList
  rw [resolve_eq_of_reads hreads hset hends] at h
  exact ⟨pieces, rest, result, hreads, hset, hends, h⟩

section Texts

variable (env : String → Option String) (text : String)

theorem resolve_eq_ok_iff (out : String) :
    resolve env text = .ok out ↔ ∃ pieces, Reads text.toList pieces [] ∧ AreSet env pieces ∧
      out.toList = pieces.flatMap (Piece.value env) := by
  constructor
  · intro h
    obtain ⟨pieces, rest, result, hreads, hset, hends, h⟩ := exists_ends_of_resolve_eq h
    cases hends with
    | done =>
      cases h
      exact ⟨pieces, hreads, hset, by simp⟩
    | unknown => cases h
    | unclosed => cases h
  · rintro ⟨pieces, hreads, hset, hout⟩
    rw [resolve_eq_of_reads hreads hset .done, ← String.ofList_toList (s := out), hout]
    simp

theorem resolve_eq_unknown_iff (name : String) :
    resolve env text = .error (.unknownVariable name) ↔
      ∃ pieces rest, Reads text.toList pieces (opening ++ (name.toList ++ '\x7d' :: rest)) ∧
        AreSet env pieces ∧ '\x7d' ∉ name.toList ∧ env name = none := by
  constructor
  · intro h
    obtain ⟨pieces, rest, result, hreads, hset, hends, h⟩ := exists_ends_of_resolve_eq h
    cases hends with
    | done => cases h
    | @unknown spelt rest hname hunset =>
      cases h
      rw [← String.toList_ofList (l := spelt)] at hreads hname
      exact ⟨pieces, rest, hreads, hset, hname, hunset⟩
    | unclosed => cases h
  · rintro ⟨pieces, rest, hreads, hset, hname, hunset⟩
    rw [← String.ofList_toList (s := name)] at hunset
    rw [resolve_eq_of_reads hreads hset (.unknown hname hunset), String.ofList_toList]
    rfl

theorem resolve_eq_unclosed_iff (shown : String) :
    resolve env text = .error (.unclosedReference shown) ↔ shown = text ∧
      ∃ pieces rest, Reads text.toList pieces (opening ++ rest) ∧ AreSet env pieces ∧
        '\x7d' ∉ rest := by
  constructor
  · intro h
    obtain ⟨pieces, rest, result, hreads, hset, hends, h⟩ := exists_ends_of_resolve_eq h
    cases hends with
    | done => cases h
    | unknown => cases h
    | @unclosed rest hrest =>
      cases h
      exact ⟨rfl, pieces, rest, hreads, hset, hrest⟩
  · rintro ⟨rfl, pieces, rest, hreads, hset, hrest⟩
    rw [resolve_eq_of_reads hreads hset (.unclosed hrest)]
    rfl

end Texts

/-- A text is resolved just when, from left to right, every reference is closed and its variable is set.  Each
reference is then replaced by what its variable holds, as it is, and every other character stays.  The first
reference that is not closed or whose variable is not set is the fault.  How a text is read has nothing to
do with the variables: what it is resolved to differs at the references alone. -/
theorem resolve_replaces_references (text : String) :
    (∀ env out, resolve env text = .ok out ↔
      ∃ pieces, Reads text.toList pieces [] ∧ AreSet env pieces ∧
        out.toList = pieces.flatMap (Piece.value env)) ∧
    (∀ env name, resolve env text = .error (.unknownVariable name) ↔
      ∃ pieces rest, Reads text.toList pieces (opening ++ (name.toList ++ '\x7d' :: rest)) ∧
        AreSet env pieces ∧ '\x7d' ∉ name.toList ∧ env name = none) ∧
    (∀ env shown, resolve env text = .error (.unclosedReference shown) ↔ shown = text ∧
      ∃ pieces rest, Reads text.toList pieces (opening ++ rest) ∧ AreSet env pieces ∧
        '\x7d' ∉ rest) ∧
    ∀ env env' out out', resolve env text = .ok out → resolve env' text = .ok out' →
      ∃ pieces, (∀ other, Reads text.toList other [] ↔ other = pieces) ∧
        out.toList = pieces.flatMap (Piece.value env) ∧
        out'.toList = pieces.flatMap (Piece.value env') := by
  refine ⟨(resolve_eq_ok_iff · text), (resolve_eq_unknown_iff · text),
    (resolve_eq_unclosed_iff · text), ?_⟩
  intro env env' out out' hout hout'
  obtain ⟨pieces, hreads, -, htext⟩ := (resolve_eq_ok_iff env text out).1 hout
  obtain ⟨pieces', hreads', -, htext'⟩ := (resolve_eq_ok_iff env' text out').1 hout'
  obtain rfl := hreads.unique hreads'
  refine ⟨pieces, fun other => ⟨fun h => h.unique hreads, ?_⟩, htext, htext'⟩
  rintro rfl
  exact hreads

/-- A value that looks like a reference is not read again, and lone dollar signs and braces stay. -/
theorem resolve_replaces_references_lookalike :
    let text := "$$\x7bA\x7d\x7d$\x7bB\x7d\x7b"
    let first : String → Option String := fun name =>
      if name = "A" then some "$\x7bB\x7d" else if name = "B" then some "x" else none
    let second : String → Option String := fun name => if name = "A" then some "" else some "$"
    resolve first text = .ok "$$\x7bB\x7d\x7dx\x7b" ∧ resolve second text = .ok "$\x7d$\x7b" ∧
      ∃ pieces, (∀ other, Reads text.toList other [] ↔ other = pieces) ∧
        "$$\x7bB\x7d\x7dx\x7b".toList = pieces.flatMap (Piece.value first) ∧
        "$\x7d$\x7b".toList = pieces.flatMap (Piece.value second) := by
  intro text first second
  have hfirst : resolve first text = .ok "$$\x7bB\x7d\x7dx\x7b" := by
    simp [resolve, resolveFrom, text, first]
  have hsecond : resolve second text = .ok "$\x7d$\x7b" := by
    simp [resolve, resolveFrom, text, second]
  obtain ⟨-, -, -, hpieces⟩ := resolve_replaces_references text
  exact ⟨hfirst, hsecond, hpieces first second _ _ hfirst hsecond⟩

end LogWatch.Alert
