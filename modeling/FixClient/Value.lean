import FixClient.Codes
import FixClient.Decimal
import FixClient.Identity
import FixClient.Text.Utf8

/-!
# Field values

A value is typed before it is sent. On the wire every kind but raw data is the
UTF-8 of the text it shows.
-/

namespace FixClient

inductive Value where
  | text (s : String)
  | int (n : Int64)
  | uint (n : UInt64)
  | decimal (d : Decimal)
  | flag (b : Bool)
  | char (c : Char)
  | data (bytes : Bytes)
  deriving Repr, BEq

namespace Value

/-- A value as text. Flags are `Y` and `N`; bytes that are no UTF-8 show as U+FFFD. -/
def shown : Value → List Char
  | text s => s.toList
  | int n => if n < 0 then '-' :: Numeral.digits n.toInt.natAbs else Numeral.digits n.toInt.natAbs
  | uint n => Numeral.digits n.toNat
  | decimal d => d.text
  | flag true => ['Y']
  | flag false => ['N']
  | char c => [c]
  | data bytes => Utf8.decodeLossy bytes

def display (v : Value) : String := String.ofList v.shown

def wire : Value → Bytes
  | data bytes => bytes
  | v => Utf8.encode v.display

def text? : Value → Option String
  | text s => some s
  | _ => none

def code {α : Type} [Code α] (a : α) : Value := char (Code.char a)

def compId (id : CompId) : Value := text id.text

/-- A 32-bit count. -/
def count (n : UInt32) : Value := uint n.toUInt64

end Value

end FixClient
