import FixClient.Frame.Field
import FixClient.MsgType

/-!
# Peeking at the message type

The type of a message stands in the third field of its frame, so it is known
before the frame is complete. Until these three fields have arrived, there is no
answer yet.
-/

namespace FixClient.Frame

/-- The next field, which must have a given tag. There is no answer yet if the
field is not ended by a separator. -/
def headerField (tag : Tag) (otherwise : DecodeError) (input : Bytes) :
    Except DecodeError (Option (WireField × Bytes)) :=
  match WireField.next? input with
  | some (f, rest) => if f.tag = tag then .ok (some (f, rest)) else .error otherwise
  | none => if Bytes.soh ∈ input then .error otherwise else .ok none

/-- The message type at the start of a frame that may still be arriving. -/
def peekMsgType (input : Bytes) : Except DecodeError (Option MsgType) :=
  match headerField .beginString .invalidBeginString input with
  | .error e => .error e
  | .ok none => .ok none
  | .ok (some (beginString, rest)) =>
    if !beginString.namesProtocol then .error .invalidBeginString
    else
      match headerField .bodyLength .missingBodyLength rest with
      | .error e => .error e
      | .ok none => .ok none
      | .ok (some (bodyLength, body)) =>
        match bodyLength.size with
        | .error e => .error e
        | .ok _ =>
          match headerField .msgType .missingMsgType body with
          | .error e => .error e
          | .ok none => .ok none
          | .ok (some (type, _)) =>
            match type.text with
            | .error e => .error e
            | .ok s => .ok (some (MsgType.ofCode s))

end FixClient.Frame
