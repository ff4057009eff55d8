/-!
# Documents

Structured data as it is stored and exchanged: texts, numbers, lists and records.
A type that can be kept as a document has a reader and a writer.
-/

namespace FixClient

inductive Document where
  | null
  | flag (b : Bool)
  /-- A whole number. -/
  | whole (n : Int)
  /-- A number in binary floating point, even if it happens to be whole. -/
  | real (x : Float)
  | text (s : String)
  | list (items : List Document)
  | record (members : List (String × Document))
  deriving Inhabited, Repr

class Documented (α : Type) where
  read? : Document → Option α
  write : α → Document

namespace Document

/-- Reads a whole number between two bounds, both included. -/
def whole? (low high : Int) : Document → Option Int
  | whole n => if low ≤ n ∧ n ≤ high then some n else none
  | _ => none

def natural? (bound : Nat) (d : Document) : Option Nat :=
  (whole? 0 (bound - 1 : Nat) d).map Int.toNat

def text? : Document → Option String
  | text s => some s
  | _ => none

/-- The parts of a structure, in order: the members of a record by their names, of
which there may be others, or a list of just the parts. -/
def parts? (names : List String) : Document → Option (List Document)
  | record members => names.mapM fun name => members.lookup name
  | list items => if items.length = names.length then some items else none
  | _ => none

/-- An alternative and what it holds. One that holds nothing may be a mere name. -/
def alternative? : Document → Option (String × Option Document)
  | text name => some (name, none)
  | record [(name, d)] => some (name, some d)
  | _ => none

/-- The name of an alternative that holds nothing. -/
def bareName? (d : Document) : Option String :=
  match d.alternative? with
  | some (name, none) => some name
  | some (name, some null) => some name
  | _ => none

end Document

end FixClient
