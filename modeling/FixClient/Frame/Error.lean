import FixClient.Scalar
import FixClient.Tag
import FixClient.Text.Utf8

/-!
# Frame errors

Why a frame cannot be read, and why a message cannot be written.
-/

namespace FixClient

/-- What is wrong with the text of a field. -/
inductive ValueFault where
  /-- The text does not spell a scalar of the type asked for. -/
  | unreadable (text : String) (type : ScalarType)
  /-- A checksum is no three-digit number below 256. -/
  | checkSumFormat
  deriving DecidableEq, Repr

def ValueFault.message : ValueFault → String
  | unreadable text type => s!"failed to parse '{text}' as {type.name}"
  | checkSumFormat => "invalid checksum format"

inductive DecodeError where
  /-- More bytes are needed. -/
  | incomplete
  | invalidBeginString
  | missingBodyLength
  | bodyLengthMismatch (declared actual : Nat)
  | missingMsgType
  | checkSumMismatch (calculated declared : UInt8)
  | invalidValue (tag : Tag) (fault : ValueFault)
  | invalidUtf8 (fault : Utf8.Fault)
  deriving DecidableEq, Repr

def DecodeError.message : DecodeError → String
  | incomplete => "incomplete message, need more data"
  | invalidBeginString => "invalid begin string: expected 8=FIX.x.y"
  | missingBodyLength => "missing body length field (tag 9)"
  | bodyLengthMismatch declared actual =>
    s!"body length mismatch: declared {declared}, actual {actual}"
  | missingMsgType => "missing msg type field (tag 35)"
  | checkSumMismatch calculated declared =>
    s!"checksum mismatch: calculated {calculated.toNat}, declared {declared.toNat}"
  | invalidValue tag fault =>
    s!"invalid field value for tag {tag.number.toNat}: {fault.message}"
  | invalidUtf8 fault => s!"invalid utf-8 in field: {fault.message}"

inductive EncodeError where
  | missingField (tag : Tag)
  | invalidTag (tag : Tag)
  deriving DecidableEq, Repr

def EncodeError.message : EncodeError → String
  | missingField tag => s!"missing required field: tag {tag.number.toNat}"
  | invalidTag tag => s!"invalid tag: {tag.number.toNat}"

end FixClient
