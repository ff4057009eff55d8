import FixClient.Frame.Error

/-!
# Fields on the wire

A frame is a row of fields `tag=value`, each ended by the separator. A field is
read from the front of the input; what follows it is left for the next one. The
last field is the checksum: the sum of all earlier bytes modulo 256, written in
exactly three digits.
-/

namespace FixClient

/-- A field as read: its tag and the bytes of its value. -/
structure WireField where
  tag : Tag
  bytes : Bytes
  deriving DecidableEq, Repr

namespace WireField

def write (tag : Tag) (bytes : Bytes) : Bytes :=
  Bytes.ascii tag.text ++ Bytes.equals :: bytes ++ [Bytes.soh]

/-- Reads one field and returns the rest. The tag is what stands before the
first equals sign, the value what stands between that sign and the next separator. -/
def next? (input : Bytes) : Option (WireField × Bytes) :=
  match Bytes.cut? Bytes.equals input with
  | none => none
  | some (tagText, afterEquals) =>
    match Tag.ofBytes? tagText with
    | none => none
    | some tag =>
      match Bytes.cut? Bytes.soh afterEquals with
      | none => none
      | some (bytes, rest) => some (⟨tag, bytes⟩, rest)

theorem length_lt_of_next? {input rest : Bytes} {f : WireField}
    (h : next? input = some (f, rest)) : rest.length < input.length := by
  unfold next? at h
  split at h
  · cases h
  · next tagText afterEquals hcut =>
    split at h
    · cases h
    · split at h
      · cases h
      · next bytes rest' hcut' =>
        cases h
        have h₁ := Bytes.length_lt_of_cut? hcut
        have h₂ := Bytes.length_lt_of_cut? hcut'
        omega

def text (f : WireField) : Except DecodeError String :=
  match Utf8.decode f.bytes with
  | .ok s => .ok s
  | .error fault => .error (.invalidUtf8 fault)

def scalar (f : WireField) (type : ScalarType) : Except DecodeError Scalar :=
  match f.text with
  | .error e => .error e
  | .ok s =>
    match type.read? s with
    | some v => .ok v
    | none => .error (.invalidValue f.tag (.unreadable s type))

/-- The value as a number of bytes. -/
def size (f : WireField) : Except DecodeError Nat :=
  match f.text with
  | .error e => .error e
  | .ok s =>
    match Numeral.size? s with
    | some n => .ok n
    | none => .error (.invalidValue f.tag (.unreadable s .size))

def protocolName : Bytes := Bytes.ascii ['F', 'I', 'X']

def namesProtocol (f : WireField) : Bool := protocolName.isPrefixOf f.bytes

end WireField

namespace CheckSum

/-- The sum of all bytes modulo 256. -/
def ofBytes (bs : Bytes) : UInt8 := bs.foldl (· + ·) 0

def text (sum : UInt8) : Bytes := Bytes.ascii (Numeral.fixed 3 sum.toNat)

@[simp] theorem length_text (sum : UInt8) : (text sum).length = 3 := by simp [text]

/-- Reads exactly three digits whose value is below 256. -/
def ofText? (bs : Bytes) : Option UInt8 :=
  let cs := bs.map fun b => Char.ofNat b.toNat
  if bs.length = 3 then
    ((Numeral.natural? cs).filter (· < 256)).map fun n => n.toUInt8
  else none

end CheckSum

end FixClient
