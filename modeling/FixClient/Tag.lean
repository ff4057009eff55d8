import FixClient.Text.Numeral

/-!
# Tags

A field is known by its tag, a number below 2^32. Zero is no valid tag, and the
two tags that every frame computes anew are BodyLength and CheckSum.
-/

namespace FixClient

structure Tag where
  number : UInt32
  deriving DecidableEq, Repr

namespace Tag

instance {n : Nat} : OfNat Tag n := ⟨⟨UInt32.ofNat n⟩⟩

def beginString : Tag := 8
def bodyLength : Tag := 9
def checkSum : Tag := 10
def msgType : Tag := 35
def senderCompId : Tag := 49
def targetCompId : Tag := 56

def isValid (t : Tag) : Bool := t.number != 0

/-- The fields that are computed when a frame is sealed. -/
def isComputed (t : Tag) : Bool := t == bodyLength || t == checkSum

def text (t : Tag) : List Char := Numeral.digits t.number.toNat

/-- The longest text that is read as a tag. -/
def maxDigits : Nat := 10

/-- Reads one to ten decimal digits whose value fits 32 bits. -/
def ofBytes? (bs : Bytes) : Option Tag :=
  let cs := bs.map fun b => Char.ofNat b.toNat
  if bs.length ≤ maxDigits then
    ((Numeral.natural? cs).filter (· < 2 ^ 32)).map fun n => ⟨n.toUInt32⟩
  else none

end Tag

end FixClient
