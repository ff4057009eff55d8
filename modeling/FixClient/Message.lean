import FixClient.Frame.Error
import FixClient.MsgType
import FixClient.Value

/-!
# Messages

A message is a row of typed fields in the order in which they were appended.
Tags may repeat, and no rule ties a tag to a type of value.
-/

namespace FixClient

structure Field where
  tag : Tag
  value : Value
  deriving Repr, BEq

structure Message where
  fields : List Field
  deriving Repr, BEq

namespace Message

def empty : Message := ⟨[]⟩

def append (m : Message) (tag : Tag) (value : Value) : Message := ⟨m.fields ++ [⟨tag, value⟩]⟩

def tags (m : Message) : List Tag := m.fields.map Field.tag

def find? (m : Message) (tag : Tag) : Option Field := m.fields.find? fun f => f.tag == tag

def get? (m : Message) (tag : Tag) : Option Value := (m.find? tag).map Field.value

def getAll (m : Message) (tag : Tag) : List Value :=
  (m.fields.filter fun f => f.tag == tag).map Field.value

/-- The type a message declares in tag 35. -/
def msgType? (m : Message) : Option MsgType :=
  (m.get? .msgType).map fun v => MsgType.ofCode v.display

end Message

end FixClient
