import LogWatch.Text.Basic

/-!
# Text and bytes

UTF-8 is read sequence by sequence, with the place of each fault.

* `Utf8.encode` — the bytes of a text;
* `Utf8.decode` — the text of a list of bytes, or the number of bytes that were well formed and the
  length of the faulty sequence, none when the bytes end in the middle of one;
* `Utf8.shown` — something to read whatever the bytes are.
-/

namespace LogWatch.Text.Utf8

/-- The first fault of a byte sequence. -/
structure Fault where
  index : Nat
  length : Option Nat
deriving DecidableEq, Repr

/-- A fault in words. -/
def Fault.message (f : Fault) : String :=
  match f.length with
  | some n => "invalid utf-8 sequence of " ++ decimal n ++ " bytes from index " ++ decimal f.index
  | none => "incomplete utf-8 byte sequence from index " ++ decimal f.index

/-- A byte that continues a sequence. -/
def isContinuation (b : UInt8) : Bool :=
  0x80 ≤ b && b ≤ 0xBF

/-- Bounds of the second byte after a given first one of a sequence of three or four: they keep
out spellings that are too long, surrogates, and code points beyond the last. -/
def secondInRange (first second : UInt8) : Bool :=
  if first == 0xE0 then 0xA0 ≤ second && second ≤ 0xBF
  else if first == 0xED then 0x80 ≤ second && second ≤ 0x9F
  else if first == 0xF0 then 0x90 ≤ second && second ≤ 0xBF
  else if first == 0xF4 then 0x80 ≤ second && second ≤ 0x8F
  else isContinuation second

/-- The character of the payload bits of a sequence. -/
def assemble (first : Nat) (more : List UInt8) : Char :=
  Char.ofNat (more.foldl (fun n b => n * 64 + b.toNat % 64) first)

/-- The characters of some bytes that start at `index`, with a fault in the place of each sequence that
is no character.  Reading goes on behind a fault, unless the bytes end in the middle of a sequence. -/
def units (index : Nat) : List UInt8 → List (Except Fault Char)
  | [] => []
  | a :: rest =>
    if a < 0x80 then .ok (Char.ofNat a.toNat) :: units (index + 1) rest
    else if 0xC2 ≤ a && a ≤ 0xDF then
      match rest with
      | [] => [.error ⟨index, none⟩]
      | b :: more =>
        if isContinuation b then .ok (assemble (a.toNat - 0xC0) [b]) :: units (index + 2) more
        else .error ⟨index, some 1⟩ :: units (index + 1) (b :: more)
    else if 0xE0 ≤ a && a ≤ 0xEF then
      match rest with
      | [] => [.error ⟨index, none⟩]
      | b :: more =>
        if !secondInRange a b then .error ⟨index, some 1⟩ :: units (index + 1) (b :: more)
        else
          match more with
          | [] => [.error ⟨index, none⟩]
          | c :: last =>
            if isContinuation c then
              .ok (assemble (a.toNat - 0xE0) [b, c]) :: units (index + 3) last
            else .error ⟨index, some 2⟩ :: units (index + 2) (c :: last)
    else if 0xF0 ≤ a && a ≤ 0xF4 then
      match rest with
      | [] => [.error ⟨index, none⟩]
      | b :: more =>
        if !secondInRange a b then .error ⟨index, some 1⟩ :: units (index + 1) (b :: more)
        else
          match more with
          | [] => [.error ⟨index, none⟩]
          | c :: last =>
            if !isContinuation c then .error ⟨index, some 2⟩ :: units (index + 2) (c :: last)
            else
              match last with
              | [] => [.error ⟨index, none⟩]
              | d :: behind =>
                if isContinuation d then
                  .ok (assemble (a.toNat - 0xF0) [b, c, d]) :: units (index + 4) behind
                else .error ⟨index, some 3⟩ :: units (index + 3) (d :: behind)
    else .error ⟨index, some 1⟩ :: units (index + 1) rest

/-- The text of a list of bytes. -/
def decode (bytes : List UInt8) : Except Fault String :=
  ((units 0 bytes).mapM id).map String.ofList

/-- The text of a list of bytes for a reader: a replacement character stands for each fault. -/
def shown (bytes : List UInt8) : String :=
  String.ofList ((units 0 bytes).map fun
    | .ok c => c
    | .error _ => '\uFFFD')

/-- The bytes of a text. -/
def encode (text : String) : List UInt8 :=
  text.toList.flatMap String.utf8EncodeChar

end LogWatch.Text.Utf8
