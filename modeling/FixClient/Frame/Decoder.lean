import FixClient.Frame.Reader

/-!
# Decoders

A decoder keeps its place in one input, and each call goes on where the last one stopped, also
behind a frame that was refused. It takes parts of the input by their bounds and subtracts places
from each other. Bounds outside of the input and differences below zero are no answers: they stop
the decoder for good. Sums of lengths have no bound.
-/

namespace FixClient

/-- What a decoder must never ask for. -/
inductive OutOfRange where
  | slice (start stop length : Nat)
  | difference (minuend subtrahend : Nat)
  deriving DecidableEq, Repr

/-- The bytes from `start` to `stop`. -/
def Bytes.slice (start stop : Nat) (bs : Bytes) : Except OutOfRange Bytes :=
  if start ≤ stop ∧ stop ≤ bs.length then .ok ((bs.take stop).drop start)
  else .error (.slice start stop bs.length)

def difference (minuend subtrahend : Nat) : Except OutOfRange Nat :=
  if subtrahend ≤ minuend then .ok (minuend - subtrahend)
  else .error (.difference minuend subtrahend)

def Bytes.zero : UInt8 := 0x30

def Bytes.isDigit (b : UInt8) : Bool := 0x30 ≤ b.toNat && b.toNat ≤ 0x39

/-- The value of a digit. -/
def Bytes.digit (b : UInt8) : Except OutOfRange Nat := difference b.toNat Bytes.zero.toNat

namespace Tag

/-- A number with one more digit, if it fits 32 bits. -/
def extend? (n d : Nat) : Option Nat :=
  if n * 10 < 2 ^ 32 then
    if n * 10 + d < 2 ^ 32 then some (n * 10 + d) else none
  else none

/-- Reads digits behind a number that was read already. -/
def readDigits (n : Nat) : Bytes → Except OutOfRange (Option Nat)
  | [] => return some n
  | b :: rest => do
    if !Bytes.isDigit b then return none
    match extend? n (← Bytes.digit b) with
    | none => return none
    | some n => readDigits n rest

/-- Reads a tag digit by digit. -/
def read (bs : Bytes) : Except OutOfRange (Option Tag) := do
  if bs.isEmpty || maxDigits < bs.length then return none
  return (← readDigits 0 bs).map fun n => ⟨n.toUInt32⟩

end Tag

/-- Reads a checksum digit by digit. -/
def CheckSum.read : Bytes → Except OutOfRange (Option UInt8)
  | [a, b, c] => do
    if !(Bytes.isDigit a && Bytes.isDigit b && Bytes.isDigit c) then return none
    let n := (← Bytes.digit a) * 100 + (← Bytes.digit b) * 10 + (← Bytes.digit c)
    return if n < 256 then some n.toUInt8 else none
  | _ => return none

/-- Reads the field at the start of the input and gives its size there. -/
def WireField.read (input : Bytes) : Except OutOfRange (Option (WireField × Nat)) := do
  match input.idxOf? Bytes.equals with
  | none => return none
  | some equalsAt =>
    match ← Tag.read (← Bytes.slice 0 equalsAt input) with
    | none => return none
    | some tag =>
      let start := equalsAt + 1
      let afterEquals ← Bytes.slice start input.length input
      match afterEquals.idxOf? Bytes.soh with
      | none => return none
      | some size =>
        let bytes ← Bytes.slice start (start + size) input
        return some (⟨tag, bytes⟩, start + size + 1)

/-- A computation in range goes through values in range. -/
theorem OutOfRange.exists_of_bind {α β : Type} {x : Except OutOfRange α}
    {f : α → Except OutOfRange β} {b : β} (h : x >>= f = .ok b) : ∃ a, x = .ok a ∧ f a = .ok b := by
  cases x with
  | error fault => cases h
  | ok a => exact ⟨a, rfl, h⟩

theorem WireField.pos_of_read {input : Bytes} {f : WireField} {size : Nat}
    (h : read input = .ok (some (f, size))) : 0 < size ∧ input ≠ [] := by
  unfold read at h
  split at h
  · cases h
  · next hequals =>
    obtain ⟨tagText, -, h⟩ := OutOfRange.exists_of_bind h
    obtain ⟨tag?, -, h⟩ := OutOfRange.exists_of_bind h
    split at h
    · cases h
    · obtain ⟨afterEquals, -, h⟩ := OutOfRange.exists_of_bind h
      split at h
      · cases h
      · obtain ⟨bytes, -, h⟩ := OutOfRange.exists_of_bind h
        cases h
        refine ⟨Nat.succ_pos _, ?_⟩
        rintro rfl
        cases hequals

structure Decoder where
  input : Bytes
  /-- Where the next field is read. -/
  offset : Nat := 0
  /-- Whether checksums are looked at. -/
  validate : Bool := true
  /-- How many fields were asked for so far. -/
  asked : Nat := 0
  deriving DecidableEq, Repr

namespace Decoder

/-- The bytes behind the place of the decoder. -/
def remaining (d : Decoder) : Except OutOfRange Bytes :=
  Bytes.slice (min d.offset d.input.length) d.input.length d.input

def isEmpty (d : Decoder) : Bool := d.input.length ≤ d.offset

/-- Reads one field. Where none can be read, the decoder stays. -/
def nextField (d : Decoder) : Except OutOfRange (Option WireField × Decoder) := do
  let d := { d with asked := d.asked + 1 }
  if d.input.length < d.offset then return (none, d)
  match ← WireField.read (d.input.drop d.offset) with
  | none => return (none, d)
  | some (f, size) => return (some f, { d with offset := d.offset + size })

/-- A field is read in front of the end, and the decoder moves behind it. -/
theorem lt_of_nextField {d after : Decoder} {f : WireField}
    (h : d.nextField = .ok (some f, after)) :
    after.input = d.input ∧ d.offset < d.input.length ∧ d.offset < after.offset := by
  unfold nextField at h
  dsimp only at h
  split at h
  · cases h
  · obtain ⟨field?, hread, h⟩ := OutOfRange.exists_of_bind h
    split at h
    · cases h
    · obtain ⟨hsize, hne⟩ := WireField.pos_of_read hread
      cases h
      rw [Ne, List.drop_eq_nil_iff] at hne
      exact ⟨rfl, Nat.lt_of_not_le hne, Nat.lt_add_of_pos_right hsize⟩

/-- Reads BeginString and BodyLength, and makes sure that the declared body and
a trailer can follow. -/
def readHeader (d : Decoder) :
    Except OutOfRange (Except DecodeError (WireField × Nat) × Decoder) := do
  match ← d.nextField with
  | (none, d) => return (.error .incomplete, d)
  | (some beginString, d) =>
    if beginString.tag != .beginString || !beginString.namesProtocol then
      return (.error .invalidBeginString, d)
    match ← d.nextField with
    | (none, d) => return (.error .missingBodyLength, d)
    | (some bodyLength, d) =>
      if bodyLength.tag != .bodyLength then return (.error .missingBodyLength, d)
      match bodyLength.size with
      | .error e => return (.error e, d)
      | .ok declared =>
        if d.input.length < d.offset + declared + Frame.trailerSize then
          return (.error .incomplete, d)
        return (.ok (beginString, declared), d)

/-- The fields before a checksum field, that field, and where it starts. -/
structure Body where
  fields : List Field
  checkSum : WireField
  checkSumAt : Nat
  deriving Repr

/-- Reads fields up to the first checksum field. -/
def readBody (d : Decoder) : Except OutOfRange (Except DecodeError Body × Decoder) :=
  match _h : d.nextField with
  | .error fault => .error fault
  | .ok (none, after) => .ok (.error .incomplete, after)
  | .ok (some f, after) =>
    if f.tag = .checkSum then .ok (.ok ⟨[], f, d.offset⟩, after)
    else
      match f.text with
      | .error e => .ok (.error e, after)
      | .ok s =>
        match readBody after with
        | .error fault => .error fault
        | .ok (.error e, last) => .ok (.error e, last)
        | .ok (.ok body, last) =>
          .ok (.ok { body with fields := ⟨f.tag, .text s⟩ :: body.fields }, last)
  termination_by d.input.length - d.offset
  decreasing_by
    obtain ⟨hinput, hlt, hmoved⟩ := lt_of_nextField _h
    rw [hinput]
    omega

/-- Compares a checksum field with the bytes from `start` up to it. -/
def verify (d : Decoder) (start : Nat) (body : Body) :
    Except OutOfRange (Except DecodeError Unit) := do
  match ← CheckSum.read body.checkSum.bytes with
  | none => return .error (.invalidValue body.checkSum.tag .checkSumFormat)
  | some declared =>
    let calculated := CheckSum.ofBytes (← Bytes.slice start body.checkSumAt d.input)
    if calculated = declared then return .ok ()
    return .error (.checkSumMismatch calculated declared)

/-- Compares a body with its declared length and with its checksum. -/
def check (d : Decoder) (start bodyStart declared : Nat) (body : Body) :
    Except OutOfRange (Except DecodeError Unit) := do
  let actual ← difference body.checkSumAt bodyStart
  if actual ≠ declared then return .error (.bodyLengthMismatch declared actual)
  if d.validate then d.verify start body else return .ok ()

/-- Reads one frame. A frame that is refused is left where reading it has stopped. -/
def decodeMessage (d : Decoder) : Except OutOfRange (Except DecodeError Message × Decoder) := do
  let start := d.offset
  match ← d.readHeader with
  | (.error e, d) => return (.error e, d)
  | (.ok (beginString, declared), d) =>
    let bodyStart := d.offset
    match ← d.nextField with
    | (none, d) => return (.error .missingMsgType, d)
    | (some type, d) =>
      if type.tag != .msgType then return (.error .missingMsgType, d)
      match beginString.text, type.text with
      | .error e, _ => return (.error e, d)
      | .ok _, .error e => return (.error e, d)
      | .ok beginText, .ok typeText =>
        match ← d.readBody with
        | (.error e, d) => return (.error e, d)
        | (.ok body, d) =>
          match ← d.check start bodyStart declared body with
          | .error e => return (.error e, d)
          | .ok () =>
            let fields := ⟨.beginString, .text beginText⟩ :: ⟨.msgType, .text typeText⟩ :: body.fields
            return (.ok ⟨fields⟩, d)

inductive Call where
  | nextField
  | decodeMessage
  deriving DecidableEq, Repr

inductive Answer where
  | field (f? : Option WireField)
  | message (result : Except DecodeError Message)
  deriving Repr

def call (d : Decoder) : Call → Except OutOfRange (Answer × Decoder)
  | .nextField => do
    let (f?, after) ← d.nextField
    return (.field f?, after)
  | .decodeMessage => do
    let (result, after) ← d.decodeMessage
    return (.message result, after)

/-- Makes calls one after another. -/
def calls (d : Decoder) : List Call → Except OutOfRange (List Answer × Decoder)
  | [] => return ([], d)
  | c :: rest => do
    let (answer, after) ← d.call c
    let (answers, last) ← after.calls rest
    return (answer :: answers, last)

end Decoder

end FixClient
