import FixClient.Text.Numeral

/-!
# Scalars

The simple types a field's text can be read as. A number may have leading zeros
and a plus sign, and a minus sign if its type is signed; a flag is spelled out;
a character is a text of length one.
-/

namespace FixClient

/-- The types of scalars: numbers of bytes, unsigned numbers of 8 and 32 bits,
signed numbers of 32 and 64 bits, flags and characters. -/
inductive ScalarType where
  | size
  | byte
  | word
  | int
  | long
  | flag
  | char
  deriving DecidableEq, Repr

inductive Scalar where
  | number (n : Int)
  | flag (b : Bool)
  | char (c : Char)
  deriving DecidableEq, Repr

namespace Scalar

def text : Scalar → String
  | number n => String.ofList <|
      if n < 0 then '-' :: Numeral.digits n.natAbs else Numeral.digits n.natAbs
  | flag true => "true"
  | flag false => "false"
  | char c => String.ofList [c]

end Scalar

namespace ScalarType

def name : ScalarType → String
  | size => "usize"
  | byte => "u8"
  | word => "u32"
  | int => "i32"
  | long => "i64"
  | flag => "bool"
  | char => "char"

/-- The scalar of a type that a text spells. -/
def read? (type : ScalarType) (s : String) : Option Scalar :=
  match type with
  | size => (Numeral.size? s).map fun n => .number n
  | byte => (Numeral.unsigned? (2 ^ 8) s.toList).map fun n => .number n
  | word => (Numeral.unsigned? (2 ^ 32) s.toList).map fun n => .number n
  | int => (Numeral.signed? (2 ^ 31) s.toList).map .number
  | long => (Numeral.signed? (2 ^ 63) s.toList).map .number
  | flag => if s = "true" then some (.flag true) else if s = "false" then some (.flag false) else none
  | char =>
    match s.toList with
    | [c] => some (.char c)
    | _ => none

end ScalarType

end FixClient
