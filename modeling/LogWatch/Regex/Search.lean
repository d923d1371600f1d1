import LogWatch.Regex.Parser
import LogWatch.Regex.Program

/-!
# Searching a text

All threads of a program run through the text side by side, in their order of preference; two
threads at the same instruction are one, so the time is bounded by the product of the two
lengths.  The first place where a match begins wins, and at it the preferred match.

* `Pattern.isMatch` — does the pattern match somewhere?
* `Pattern.captures?` — the places of the groups of the first match.
-/

namespace LogWatch.Regex

/-! ## Conditions -/

/-- Is there a character of words? -/
def isWordAt (ascii : Bool) : Option Char → Bool
  | some c => if ascii then CharSet.asciiWord.has c else Text.Unicode.isWord c
  | none => false

/-- Does a condition hold between two characters, which are absent at the ends of the text? -/
def Look.holds (l : Look) (before after : Option Char) : Bool :=
  match l with
  | .textStart => before.isNone
  | .textEnd => after.isNone
  | .lineStart => before.isNone || before == some '\n'
  | .lineEnd => after.isNone || after == some '\n'
  | .lineStartAnyReturn =>
    before.isNone || before == some '\n' || (before == some '\r' && after != some '\n')
  | .lineEndAnyReturn =>
    after.isNone || after == some '\r' || (after == some '\n' && before != some '\r')
  | .wordBoundary ascii => isWordAt ascii before != isWordAt ascii after
  | .noWordBoundary ascii => isWordAt ascii before == isWordAt ascii after
  | .wordStart ascii => !isWordAt ascii before && isWordAt ascii after
  | .wordEnd ascii => isWordAt ascii before && !isWordAt ascii after
  | .wordStartHalf ascii => !isWordAt ascii before
  | .wordEndHalf ascii => !isWordAt ascii after

/-! ## Threads -/

/-- The places that a thread has noted. -/
abbrev Slots := Array (Option Nat)

/-- A thread: where it is in the program and what it has noted. -/
structure Thread where
  pc : Nat
  slots : Slots

/-- Threads that wait for a character, the latest first, and the instructions seen so far at this
place. -/
structure Threads where
  waiting : List Thread
  seen : Array Bool

/-- No threads. -/
def Threads.none (size : Nat) : Threads :=
  ⟨[], Array.replicate size false⟩

/-- What is around a place in the text. -/
structure Context where
  index : Nat
  before : Option Char
  after : Option Char

/-- The threads that a stack of threads leads to without taking a character.  Each instruction is
entered once, so twice the length of the program bounds the steps. -/
def follow (code : Code) (ctx : Context) : Nat → List Thread → Threads → Threads
  | 0, _, ts => ts
  | _ + 1, [], ts => ts
  | fuel + 1, t :: stack, ts =>
    if ts.seen.getD t.pc true then follow code ctx fuel stack ts
    else
      let ts : Threads := { ts with seen := ts.seen.setIfInBounds t.pc true }
      match code[t.pc]? with
      | none => follow code ctx fuel stack ts
      | some (.take _) | some .accept =>
        follow code ctx fuel stack { ts with waiting := t :: ts.waiting }
      | some (.check l) =>
        if l.holds ctx.before ctx.after then
          follow code ctx fuel ({ t with pc := t.pc + 1 } :: stack) ts
        else follow code ctx fuel stack ts
      | some (.save slot) =>
        follow code ctx fuel
          (⟨t.pc + 1, t.slots.setIfInBounds slot (some ctx.index)⟩ :: stack) ts
      | some (.fork first second) =>
        follow code ctx fuel ({ t with pc := first } :: { t with pc := second } :: stack) ts
      | some (.jump target) => follow code ctx fuel ({ t with pc := target } :: stack) ts

/-- A thread started or continued at a place. -/
def enter (code : Code) (ctx : Context) (t : Thread) (ts : Threads) : Threads :=
  follow code ctx (2 * code.size + 2) [t] ts

/-- The threads after a character, in order of preference; a thread that has matched ends the
less preferred ones. -/
def advance (code : Code) (c : Char) (ctx : Context) :
    List Thread → Threads → Threads × Option Slots
  | [], next => (next, none)
  | t :: rest, next =>
    match code[t.pc]? with
    | some .accept => (next, some t.slots)
    | some (.take s) =>
      if s.has c then advance code c ctx rest (enter code ctx { t with pc := t.pc + 1 } next)
      else advance code c ctx rest next
    | _ => advance code c ctx rest next

/-- The slots of a thread that has matched. -/
def accepted (code : Code) : List Thread → Option Slots
  | [] => none
  | t :: rest =>
    match code[t.pc]? with
    | some .accept => some t.slots
    | _ => accepted code rest

/-- The run through what is left of a text.  A new thread is started at each place, with the least
preference, until a match has been found. -/
def run (code : Code) (slotCount : Nat) (before : Option Char) (index : Nat) :
    List Char → Threads → Option Slots → Option Slots
  | [], ts, found =>
    let ctx : Context := ⟨index, before, none⟩
    let ts :=
      if found.isNone then enter code ctx ⟨0, Array.replicate slotCount none⟩ ts else ts
    match accepted code ts.waiting.reverse with
    | some slots => some slots
    | none => found
  | c :: cs, ts, found =>
    let ctx : Context := ⟨index, before, some c⟩
    let ts :=
      if found.isNone then enter code ctx ⟨0, Array.replicate slotCount none⟩ ts else ts
    let order := ts.waiting.reverse
    if order.isEmpty && found.isSome then found
    else
      let next : Context := ⟨index + 1, some c, cs.head?⟩
      let (ts, hit) := advance code c next order (Threads.none code.size)
      run code slotCount (some c) (index + 1) cs ts (hit.orElse fun _ => found)

/-- A program ready to run, with the names of its groups. -/
structure Matcher where
  code : Code
  names : List (Option String)

/-- A pattern made ready to run. -/
def Matcher.ofPattern (p : Pattern) : Matcher :=
  ⟨p.regex.program, p.names⟩

/-- A matcher for the pattern that a text spells. -/
def Matcher.ofText (s : String) : Except PatternError Matcher :=
  (Pattern.ofText s).map Matcher.ofPattern

/-- The slots of the first match of a text. -/
def Matcher.slots? (m : Matcher) (cs : List Char) : Option Slots :=
  run m.code (2 * m.names.length + 2) none 0 cs (Threads.none m.code.size) none

/-- Does the pattern match somewhere in the text? -/
def Matcher.isMatch (m : Matcher) (cs : List Char) : Bool :=
  (m.slots? cs).isSome

/-- A match: the beginning and end of each group, the whole match being group zero. -/
structure Captures where
  slots : Slots
  names : List (Option String)

/-- The groups of the first match of a text. -/
def Matcher.captures? (m : Matcher) (cs : List Char) : Option Captures :=
  (m.slots? cs).map fun s => ⟨s, m.names⟩

/-- The text of the group of a number. -/
def Captures.group? (c : Captures) (text : List Char) (index : Nat) : Option (List Char) :=
  match c.slots.getD (2 * index) none, c.slots.getD (2 * index + 1) none with
  | some first, some last => some ((text.drop first).take (last - first))
  | _, _ => none

/-- The text of the group of a name. -/
def Captures.named? (c : Captures) (text : List Char) (name : String) : Option (List Char) :=
  match c.names.findIdx? (· == some name) with
  | some i => c.group? text (i + 1)
  | none => none

end LogWatch.Regex
