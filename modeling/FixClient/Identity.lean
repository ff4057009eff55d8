/-!
# Identities

The names by which the two ends of a session know each other are at most 32
bytes of UTF-8. Every message of one client carries them, with the protocol
version, the account and the instrument.
-/

namespace FixClient

/-- The name of one end of a session. -/
structure CompId where
  text : String
  size_le : text.utf8ByteSize ≤ 32
  deriving DecidableEq

namespace CompId

/-- The longest name, in bytes. -/
def maxSize : Nat := 32

def ofText? (text : String) : Option CompId :=
  if h : text.utf8ByteSize ≤ maxSize then some ⟨text, h⟩ else none

end CompId

structure Identity where
  beginString : String := "FIX.4.4"
  sender : CompId
  target : CompId
  account : String := ""
  exchange : String := ""
  symbol : String := ""
  deriving DecidableEq

end FixClient
