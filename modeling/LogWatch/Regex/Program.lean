import LogWatch.Regex.Basic

/-!
# Regular expressions as programs

An expression is laid out as a list of instructions that a set of threads runs through: each
instruction goes on to the next one unless it says otherwise, and of the two targets of a fork the
first one is preferred.
-/

namespace LogWatch.Regex

/-- A step of a thread. -/
inductive Instruction where
  /-- Take a character of the set. -/
  | take (set : CharSet)
  /-- Go on if the condition holds here. -/
  | check (condition : Look)
  /-- Note this place in a slot. -/
  | save (slot : Nat)
  /-- Go on at both places, the first one preferred. -/
  | fork (first second : Nat)
  | jump (target : Nat)
  /-- The whole expression has matched. -/
  | accept

/-- A program under construction; the next instruction goes to the end. -/
abbrev Code := Array Instruction

/-- Both orders of a fork: into the repeated part first, or past it first. -/
def forkTo (greedy : Bool) (inside outside : Nat) : Instruction :=
  if greedy then .fork inside outside else .fork outside inside

/-- Code that may be run any number of times.  If the part can match the empty text it is run once
before the question arises, so that the order of preference stays right. -/
def emitStar (emit : Code → Code) (nullable greedy : Bool) (code : Code) : Code :=
  let entry := code.size
  if nullable then
    let code := emit (code.push (.jump 0))
    let code := code.push (forkTo greedy (entry + 1) (code.size + 1))
    code.setIfInBounds entry (forkTo greedy (entry + 1) code.size)
  else
    let code := emit (code.push (.jump 0))
    let code := code.push (.jump entry)
    code.setIfInBounds entry (forkTo greedy (entry + 1) code.size)

/-- Code that is run at least once. -/
def emitPlus (emit : Code → Code) (greedy : Bool) (code : Code) : Code :=
  let entry := code.size
  let code := emit code
  code.push (forkTo greedy entry (code.size + 1))

/-- Code run a given number of times. -/
def emitTimes (emit : Code → Code) : Nat → Code → Code
  | 0, code => code
  | n + 1, code => emitTimes emit n (emit code)

/-- Code run up to a number of times; the forks that leave are set once the end is known. -/
def emitUpTo (emit : Code → Code) (greedy : Bool) (n : Nat) (code : Code) : Code :=
  let (code, forks) := go n (code, [])
  forks.foldl (fun c at_ => c.setIfInBounds at_ (forkTo greedy (at_ + 1) code.size)) code
where
  /-- The copies, with the places of their forks. -/
  go : Nat → Code × List Nat → Code × List Nat
    | 0, r => r
    | n + 1, (code, forks) => go n (emit (code.push (.jump 0)), code.size :: forks)

/-- The code of an expression after what is there already. -/
def emit : Regex → Code → Code
  | .empty, code => code
  | .chars s, code => code.push (.take s)
  | .look l, code => code.push (.check l)
  | .group i r, code => (r.emit (code.push (.save (2 * i)))).push (.save (2 * i + 1))
  | .seq a b, code => b.emit (a.emit code)
  | .alt a b, code =>
    let entry := code.size
    let code := a.emit (code.push (.jump 0))
    let leave := code.size
    let code := (code.push (.jump 0)).setIfInBounds entry (.fork (entry + 1) (leave + 1))
    let code := b.emit code
    code.setIfInBounds leave (.jump code.size)
  | .rep r least most greedy, code =>
    match most with
    | none =>
      if least = 0 then emitStar r.emit r.canBeEmpty greedy code
      else emitPlus r.emit greedy (emitTimes r.emit (least - 1) code)
    | some most => emitUpTo r.emit greedy (most - least) (emitTimes r.emit least code)

/-- The program of an expression: it notes its beginning and its end as group zero. -/
def program (r : Regex) : Code :=
  ((r.emit #[.save 0]).push (.save 1)).push .accept

end LogWatch.Regex
