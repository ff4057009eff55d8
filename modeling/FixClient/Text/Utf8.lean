import FixClient.Bytes

/-!
# UTF-8

Text travels as UTF-8. The reader is a machine fed one byte at a time: between
characters it expects a lead byte, inside one it knows the range of the next
byte and how many more are owed. It emits one symbol per character and one per
maximal ill-formed run of bytes, so that strict decoding and decoding with
replacement are two readings of the same list of symbols.
-/

namespace FixClient.Utf8

def encode (s : String) : Bytes := s.toList.flatMap String.utf8EncodeChar

inductive Symbol where
  | char (c : Char)
  /-- A run of `size` bytes that no character starts with. -/
  | malformed (size : Nat)
  /-- The input ended after `size` bytes of an unfinished character. -/
  | unfinished (size : Nat)
  deriving DecidableEq, Repr

/-- A character whose first `seen` bytes have been read: the bits so far, the
range of the next byte and the number of bytes owed after it. -/
structure Pending where
  value : Nat
  seen : Nat
  low : UInt8
  high : UInt8
  more : Nat
  deriving DecidableEq, Repr

/-- Reads a byte between characters. The second byte is bounded where a lead
byte alone would admit an overlong form, a surrogate or a value past U+10FFFF. -/
def start (b : UInt8) : List Symbol × Option Pending :=
  if b < 0x80 then ([.char (Char.ofNat b.toNat)], none)
  else if b < 0xc2 then ([.malformed 1], none)
  else if b < 0xe0 then ([], some ⟨b.toNat - 0xc0, 1, 0x80, 0xbf, 0⟩)
  else if b < 0xf0 then
    ([], some ⟨b.toNat - 0xe0, 1, if b = 0xe0 then 0xa0 else 0x80,
      if b = 0xed then 0x9f else 0xbf, 1⟩)
  else if b < 0xf5 then
    ([], some ⟨b.toNat - 0xf0, 1, if b = 0xf0 then 0x90 else 0x80,
      if b = 0xf4 then 0x8f else 0xbf, 2⟩)
  else ([.malformed 1], none)

/-- Reads a byte inside a character. A byte out of range ends the ill-formed run
before it and starts over. -/
def Pending.step (p : Pending) (b : UInt8) : List Symbol × Option Pending :=
  if p.low ≤ b ∧ b ≤ p.high then
    let value := p.value * 64 + (b.toNat - 0x80)
    match p.more with
    | 0 => ([.char (Char.ofNat value)], none)
    | more + 1 => ([], some ⟨value, p.seen + 1, 0x80, 0xbf, more⟩)
  else
    let (symbols, next) := start b
    (.malformed p.seen :: symbols, next)

def scan : Option Pending → Bytes → List Symbol
  | none, [] => []
  | some p, [] => [.unfinished p.seen]
  | state, b :: rest =>
    let (symbols, next) :=
      match state with
      | none => start b
      | some p => p.step b
    symbols ++ scan next rest

def symbols (bs : Bytes) : List Symbol := scan none bs

/-- Where and how a byte string stops being UTF-8: the number of valid bytes
before, and the size of the ill-formed run, or nothing if the input merely ended. -/
structure Fault where
  index : Nat
  size : Option Nat
  deriving DecidableEq, Repr

namespace Fault

def message (f : Fault) : String :=
  match f.size with
  | some n => s!"invalid utf-8 sequence of {n} bytes from index {f.index}"
  | none => s!"incomplete utf-8 byte sequence from index {f.index}"

end Fault

/-- The characters, if every symbol is one. `index` counts the bytes before. -/
def collect (index : Nat) : List Symbol → Except Fault (List Char)
  | [] => .ok []
  | .char c :: rest =>
    match collect (index + c.utf8Size) rest with
    | .ok cs => .ok (c :: cs)
    | .error f => .error f
  | .malformed n :: _ => .error ⟨index, some n⟩
  | .unfinished _ :: _ => .error ⟨index, none⟩

def decode (bs : Bytes) : Except Fault String :=
  match collect 0 (symbols bs) with
  | .ok cs => .ok (String.ofList cs)
  | .error f => .error f

/-- The character of a symbol, U+FFFD for an ill-formed or unfinished run. -/
def Symbol.shown : Symbol → Char
  | .char c => c
  | _ => '\ufffd'

/-- Decoding with replacement: one U+FFFD for each maximal ill-formed run. -/
def decodeLossy (bs : Bytes) : List Char := (symbols bs).map Symbol.shown

end FixClient.Utf8
