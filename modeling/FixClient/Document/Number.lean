import FixClient.Document.Basic
import FixClient.Text.Numeral

/-!
# Numbers in documents

A whole number that fits a word of 64 bits is kept as it is. Any other number is kept
in binary floating point: as many of its digits as fit a word are scaled by a power of
ten, and the digits, the power and the result are each rounded to the nearest.
-/

namespace FixClient

structure NumberText where
  negative : Bool
  /-- The digits before the point. -/
  whole : List Char
  /-- The digits after the point, where there is one. -/
  fraction : Option (List Char)
  exponent : Option Int
  deriving Repr

namespace NumberText

def isMark (c : Char) : Bool := c == 'e' || c == 'E'

def exponent? : List Char → Option Int
  | '-' :: rest => (Numeral.natural? rest).map fun n => -(n : Int)
  | '+' :: rest => (Numeral.natural? rest).map Int.ofNat
  | cs => (Numeral.natural? cs).map Int.ofNat

/-- Whether digits may stand before the point: only a zero begins with a zero. -/
def isWholePart (cs : List Char) : Bool :=
  !cs.isEmpty && cs.all Char.isDigit && (cs == ['0'] || cs.head? != some '0')

def isFraction (cs : List Char) : Bool := !cs.isEmpty && cs.all Char.isDigit

def ofUnsigned? (negative : Bool) (cs : List Char) : Option NumberText := do
  let plain := cs.takeWhile fun c => !isMark c
  let whole := plain.takeWhile (· != '.')
  let fraction :=
    match plain.dropWhile (· != '.') with
    | [] => none
    | _ :: digits => some digits
  let exponent ←
    match cs.dropWhile fun c => !isMark c with
    | [] => some none
    | _ :: digits => (exponent? digits).map some
  if isWholePart whole && fraction.all isFraction then some ⟨negative, whole, fraction, exponent⟩
  else none

def ofText? : List Char → Option NumberText
  | '-' :: rest => ofUnsigned? true rest
  | cs => ofUnsigned? false cs

/-- Continues a number with digits for as long as it fits a word. What is left over is
the digits from the first one that does not fit. -/
def gather (n : Nat) : List Char → Nat × List Char
  | [] => (n, [])
  | c :: rest =>
    let next := n * 10 + (c.toNat - 48)
    if next < 2 ^ 64 then gather next rest else (n, c :: rest)

/-- A power of ten in binary floating point. -/
def tenTo (n : Nat) : Float := OfScientific.ofScientific 1 false n

/-- The largest power of ten that is no infinity. -/
def maxTenExponent : Nat := 308

/-- The number `n * 10 ^ exponent` in binary floating point, unless it is too large.
What is too small for one division is divided twice. -/
def scaled? (n : Nat) (exponent : Int) : Option Float :=
  let x := Float.ofNat n
  let places := exponent.natAbs
  if n = 0 then some x
  else if 0 ≤ exponent then
    if places ≤ maxTenExponent then some (x * tenTo places) |>.filter Float.isFinite else none
  else if places ≤ maxTenExponent then some (x / tenTo places)
  else if places ≤ 2 * maxTenExponent then
    some (x / tenTo maxTenExponent / tenTo (places - maxTenExponent))
  else some 0

/-- What a number is kept as. A zero with a minus sign is no whole number. -/
def document? (t : NumberText) : Option Document :=
  let (n, excess) := gather 0 t.whole
  let isWord := excess.isEmpty && (!t.negative || (n != 0 && n ≤ 2 ^ 63))
  if t.fraction.isNone && t.exponent.isNone && isWord then
    some (.whole (if t.negative then -(n : Int) else n))
  else
    let fraction := t.fraction.getD []
    let (m, rest) := gather n fraction
    let places : Int := fraction.length - rest.length
    (scaled? m (t.exponent.getD 0 + excess.length - places)).map fun x =>
      .real (if t.negative then -x else x)

end NumberText

def Document.number? (cs : List Char) : Option Document :=
  (NumberText.ofText? cs).bind NumberText.document?

end FixClient
