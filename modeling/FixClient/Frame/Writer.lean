import FixClient.Frame.Field
import FixClient.Message

/-!
# Writing frames

A frame is sealed around its body: BeginString and BodyLength before it, the
checksum after it. A message is written in two passes: its type and its two
component identifiers first, then all other fields as they were appended, past
the places from which the first ones came.
-/

namespace FixClient

namespace Frame

/-- Everything before the checksum of a frame with a given body. -/
def unsealed (beginString body : Bytes) : Bytes :=
  WireField.write .beginString beginString ++
    WireField.write .bodyLength (Bytes.ascii (Numeral.digits body.length)) ++ body

def ofBody (beginString body : Bytes) : Bytes :=
  let front := unsealed beginString body
  front ++ WireField.write .checkSum (CheckSum.text (CheckSum.ofBytes front))

end Frame

/-- A frame under construction: the fields of its body written so far. -/
structure FrameBody where
  bytes : Bytes
  deriving DecidableEq, Repr

namespace FrameBody

def empty : FrameBody := ⟨[]⟩

/-- Appends a field with a value of any bytes. -/
def put (b : FrameBody) (tag : Tag) (bytes : Bytes) : FrameBody :=
  ⟨b.bytes ++ WireField.write tag bytes⟩

def putText (b : FrameBody) (tag : Tag) (s : String) : FrameBody := b.put tag (Utf8.encode s)

def putValue (b : FrameBody) (tag : Tag) (v : Value) : FrameBody := b.put tag v.wire

def putFields (b : FrameBody) (fs : List Field) : FrameBody :=
  fs.foldl (fun b f => b.putValue f.tag f.value) b

def size (b : FrameBody) : Nat := b.bytes.length

def finish (b : FrameBody) (beginString : Bytes) : Bytes := Frame.ofBody beginString b.bytes

end FrameBody

namespace Message

/-- The first field with a tag, and its place in the message. -/
def place? (m : Message) (tag : Tag) : Option (Field × Nat) :=
  m.fields.zipIdx.find? fun p => p.1.tag == tag

/-- The tags whose first field is put in front, in this order. -/
def headerTags : List Tag := [.msgType, .senderCompId, .targetCompId]

def header (m : Message) : List (Field × Nat) := headerTags.filterMap m.place?

/-- Appends the fields, each given with its place, that are neither in the header nor computed.
The first BeginString is passed over as well; the flag says whether it has been seen. -/
def putOthers (header : List Nat) :
    List (Field × Nat) → Bool → FrameBody → Except EncodeError FrameBody
  | [], _, b => .ok b
  | (f, i) :: rest, seen, b =>
    if !f.tag.isValid then .error (.invalidTag f.tag)
    else if header.contains i || f.tag.isComputed then putOthers header rest seen b
    else if f.tag == .beginString && !seen then putOthers header rest true b
    else putOthers header rest seen (b.putValue f.tag f.value)

/-- The frame of a message. It needs a BeginString and a type, and no tag may be
zero. Fields 9 and 10 of the message are ignored: both are computed. -/
def encode (m : Message) : Except EncodeError Bytes :=
  match m.get? .beginString with
  | none => .error (.missingField .beginString)
  | some beginString =>
    match m.place? .msgType with
    | none => .error (.missingField .msgType)
    | some _ =>
      let begun := FrameBody.empty.putFields (m.header.map Prod.fst)
      match putOthers (m.header.map Prod.snd) m.fields.zipIdx false begun with
      | .error e => .error e
      | .ok body => .ok (body.finish beginString.wire)

end Message

end FixClient
