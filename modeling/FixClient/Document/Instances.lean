import FixClient.Decimal.Reader
import FixClient.Decimal.Shortest
import FixClient.Document.Basic
import FixClient.Identity
import FixClient.MsgType
import FixClient.Tag
import FixClient.Timestamp
import FixClient.Value

/-!
# What is kept as a document

Tags are numbers, component identifiers texts. Enumerations are kept by name, and
values under the name of their kind.
-/

namespace FixClient

instance : Documented String where
  read? := Document.text?
  write := .text

instance : Documented Tag where
  read? d := (d.natural? (2 ^ 32)).map fun n => ⟨n.toUInt32⟩
  write t := .whole t.number.toNat

instance : Documented Timestamp where
  read? d := do
    let [nanos] ← d.parts? ["nanos_since_epoch"] | none
    return ⟨(← nanos.natural? (2 ^ 64)).toUInt64⟩
  write t := .record [("nanos_since_epoch", .whole t.nanos.toNat)]

instance : Documented CompId where
  read? d := d.text?.bind CompId.ofText?
  write id := .text id.text

instance {α : Type} [Code α] : Documented α where
  read? d := d.bareName?.bind Code.ofName?
  write a := .text (Code.name a)

/-- The name under which an unnamed message type is kept. -/
def MsgType.customName : String := "Custom"

instance : Documented MsgType where
  read? d :=
    match d.alternative? with
    | some (name, some (.text code)) => if name = MsgType.customName then some (.custom code) else none
    | _ => d.bareName?.bind fun name => MsgType.named.find? fun t => t.name == name
  write
    | .custom code => .record [(MsgType.customName, .text code)]
    | t => .text t.name

instance : Documented Decimal where
  read?
    | .text s => Decimal.ofText? s.toList
    | .whole n => if -2 ^ 63 ≤ n ∧ n < 2 ^ 64 then some (.ofInt n 0) else none
    | .real x => Decimal.ofText? (Decimal.ofFloat x).text
    | _ => none
  write d := .text (String.ofList d.text)

/-- Reads raw data: a list of bytes, or a text for its UTF-8. -/
def Document.data? : Document → Option Bytes
  | .list items => items.mapM fun item => (item.natural? 256).map Nat.toUInt8
  | .text s => some (Utf8.encode s)
  | _ => none

def Document.char? (d : Document) : Option Char :=
  match d.text?.map String.toList with
  | some [c] => some c
  | _ => none

def Document.flag? : Document → Option Bool
  | .flag b => some b
  | _ => none

instance : Documented Value where
  read? d :=
    match d.alternative? with
    | some ("String", some d) => d.text?.map .text
    | some ("Int", some d) =>
      (d.whole? (-2 ^ 63) (2 ^ 63 - 1)).map fun n => .int (Int64.ofInt n)
    | some ("UInt", some d) => (d.natural? (2 ^ 64)).map fun n => .uint n.toUInt64
    | some ("Decimal", some d) => (Documented.read? d).map .decimal
    | some ("Bool", some d) => d.flag?.map .flag
    | some ("Char", some d) => d.char?.map .char
    | some ("Data", some d) => d.data?.map .data
    | _ => none
  write
    | .text s => .record [("String", .text s)]
    | .int n => .record [("Int", .whole n.toInt)]
    | .uint n => .record [("UInt", .whole n.toNat)]
    | .decimal d => .record [("Decimal", Documented.write d)]
    | .flag b => .record [("Bool", .flag b)]
    | .char c => .record [("Char", .text (String.ofList [c]))]
    | .data bytes => .record [("Data", .list (bytes.map fun b => .whole b.toNat))]

instance : Documented Identity where
  read? d := do
    let [beginString, sender, target, account, exchange, symbol] ← d.parts?
      ["begin_string", "sender_comp_id", "target_comp_id", "account", "exchange", "symbol"] | none
    return {
      beginString := ← beginString.text?
      sender := ← Documented.read? sender
      target := ← Documented.read? target
      account := ← account.text?
      exchange := ← exchange.text?
      symbol := ← symbol.text? }
  write id := .record [
    ("begin_string", .text id.beginString), ("sender_comp_id", Documented.write id.sender),
    ("target_comp_id", Documented.write id.target), ("account", .text id.account),
    ("exchange", .text id.exchange), ("symbol", .text id.symbol)]

end FixClient
