import FixClient.Frame.Field
import FixClient.Message

/-!
# Reading frames

A frame is read from the front of the input: the two header fields, the message
type, the body up to the first checksum field, then the two checks. Each reader
returns the bytes it left, also when it fails, since the next call goes on there.
The length of a frame follows from its declared BodyLength and the fixed size of
its trailer, without looking into its body.
-/

namespace FixClient.Frame

def trailerSize : Nat := 7

/-- Reads BeginString and BodyLength, and makes sure that the declared body and
a trailer can follow. -/
def readHeader (input : Bytes) : Except DecodeError (WireField × Nat) × Bytes :=
  match WireField.next? input with
  | none => (.error .incomplete, input)
  | some (beginString, rest) =>
    if beginString.tag != .beginString || !beginString.namesProtocol then
      (.error .invalidBeginString, rest)
    else
      match WireField.next? rest with
      | none => (.error .missingBodyLength, rest)
      | some (bodyLength, body) =>
        if bodyLength.tag != .bodyLength then (.error .missingBodyLength, body)
        else
          match bodyLength.size with
          | .error e => (.error e, body)
          | .ok declared =>
            if body.length < declared + trailerSize then (.error .incomplete, body)
            else (.ok (beginString, declared), body)

/-- The fields before a checksum field, that field, and the input from its start on. -/
structure Body where
  fields : List Field
  checkSum : WireField
  trailer : Bytes
  deriving Repr

/-- Reads fields up to the first checksum field. -/
def readBody (input : Bytes) : Except DecodeError Body × Bytes :=
  match _h : WireField.next? input with
  | none => (.error .incomplete, input)
  | some (f, rest) =>
    if f.tag = .checkSum then (.ok ⟨[], f, input⟩, rest)
    else
      match f.text with
      | .error e => (.error e, rest)
      | .ok s =>
        match readBody rest with
        | (.error e, left) => (.error e, left)
        | (.ok body, left) => (.ok { body with fields := ⟨f.tag, .text s⟩ :: body.fields }, left)
  termination_by input.length
  decreasing_by exact WireField.length_lt_of_next? _h

/-- Compares a checksum field with the bytes it covers. -/
def verify (field : WireField) (covered : Bytes) : Except DecodeError Unit :=
  match CheckSum.ofText? field.bytes with
  | none => .error (.invalidValue field.tag .checkSumFormat)
  | some declared =>
    let calculated := CheckSum.ofBytes covered
    if calculated = declared then .ok () else .error (.checkSumMismatch calculated declared)

/-- Reads one frame. The message holds BeginString and then the body in wire
order, all values as texts. With `validate` off, the checksum is not looked at. -/
def decode (validate : Bool) (input : Bytes) : Except DecodeError Message × Bytes :=
  match readHeader input with
  | (.error e, rest) => (.error e, rest)
  | (.ok (beginString, declared), body) =>
    match WireField.next? body with
    | none => (.error .missingMsgType, body)
    | some (type, afterType) =>
      if type.tag != .msgType then (.error .missingMsgType, afterType)
      else
        match beginString.text, type.text with
        | .error e, _ => (.error e, afterType)
        | .ok _, .error e => (.error e, afterType)
        | .ok beginText, .ok typeText =>
          match readBody afterType with
          | (.error e, rest) => (.error e, rest)
          | (.ok read, rest) =>
            let actual := body.length - read.trailer.length
            if actual ≠ declared then (.error (.bodyLengthMismatch declared actual), rest)
            else
              let message : Message :=
                ⟨⟨.beginString, .text beginText⟩ :: ⟨.msgType, .text typeText⟩ :: read.fields⟩
              if validate then
                match verify read.checkSum (input.take (input.length - read.trailer.length)) with
                | .error e => (.error e, rest)
                | .ok () => (.ok message, rest)
              else (.ok message, rest)

/-- What follows a literal start of the input. -/
def afterLiteral? (literal : List Char) (input : Bytes) : Option Bytes :=
  if (Bytes.ascii literal).isPrefixOf input then some (input.drop literal.length) else none

/-- The length of the first frame, once it is complete. -/
def length? (input : Bytes) : Option Nat := do
  let afterTag ← afterLiteral? ['8', '='] input
  let (_, rest) ← Bytes.cut? Bytes.soh afterTag
  let lengthField ← afterLiteral? ['9', '='] rest
  let (digits, body) ← Bytes.cut? Bytes.soh lengthField
  let text ← (Utf8.decode digits).toOption
  let declared ← Numeral.size? text
  let total := input.length - body.length + declared + trailerSize
  if total ≤ input.length then some total else none

end FixClient.Frame
