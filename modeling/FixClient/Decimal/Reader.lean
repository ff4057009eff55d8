import FixClient.Decimal

/-!
# Reading decimal numbers

A decimal number is read with all its places, as long as the digits fit 96 bits
and there are at most 28 places. Digits after the point that do not fit any more
are rounded away at the first of them, half up. An exponent moves the point.
-/

namespace FixClient.Decimal

/-- Mantissas fit 96 bits. -/
def mantissaBound : Nat := 2 ^ 96

/-- The most decimal places. -/
def maxScale : Nat := 28

/-- A mantissa below this bound is short: it is held in a single word while the next
digit is read. -/
def shortBound : Nat := (2 ^ 64 - 1) / 10 - 255

/-- Takes account of the first digit that does not fit. A mantissa that rounding makes
too large gives up its last place. -/
def roundAt (digit mantissa scale : Nat) : Option (Nat × Nat) :=
  if digit < 5 then some (mantissa, scale)
  else if mantissa + 1 < mantissaBound then some (mantissa + 1, scale)
  else if scale = 0 then none
  else some ((mantissa + 5) / 10, scale - 1)

/-- Whether what follows a rounded number may be dropped: digits and underscores. -/
def isDroppable (rest : List Char) : Bool := rest.all fun c => c.isDigit || c == '_'

/-- Rounds at a digit and drops the rest. -/
def roundDropping (digit mantissa scale : Nat) (rest : List Char) : Option (Nat × Nat) :=
  if isDroppable rest then roundAt digit mantissa scale else none

/-- Reads digits with at most one point among them; after a digit, underscores do
not count. `seen` is whether there was a digit, `point` whether there was a point.
An underscore where all places are taken counts as the digit 0 if the mantissa was
short before its last place. -/
def readDigits (seen point : Bool) (mantissa scale : Nat) : List Char → Option (Nat × Nat)
  | [] => if seen then some (mantissa, scale) else none
  | c :: rest =>
    if c.isDigit then
      let digit := c.toNat - 48
      let next := mantissa * 10 + digit
      if point && scale = maxScale then roundDropping digit mantissa scale rest
      else if next < mantissaBound then
        readDigits true point next (if point then scale + 1 else scale) rest
      else if point then roundDropping digit mantissa scale rest
      else none
    else if c = '.' && !point then readDigits seen true mantissa scale rest
    else if c = '_' && seen then
      if point && scale = maxScale && mantissa / 10 < shortBound then
        roundDropping 0 mantissa scale rest
      else readDigits seen point mantissa scale rest
    else none

/-- A number with a sign; a zero loses it. -/
def signed (negative : Bool) (magnitude scale : Nat) : Decimal :=
  ⟨negative && magnitude != 0, magnitude, scale⟩

def ofPlain? : List Char → Option Decimal
  | '-' :: rest => (readDigits false false 0 0 rest).map fun r => signed true r.1 r.2
  | '+' :: rest => (readDigits false false 0 0 rest).map fun r => signed false r.1 r.2
  | cs => (readDigits false false 0 0 cs).map fun r => signed false r.1 r.2

/-- A number of units of the last place in units that are `10 ^ places` times larger,
rounded half up. -/
def roundedUnits (magnitude places : Nat) : Nat :=
  (magnitude + 10 ^ places / 2) / 10 ^ places

/-- Moves the point to the left, by at most as many places as there can be. Places
beyond the last one are rounded away; the sign stays even if nothing else does. -/
def shiftLeft? (places : Nat) (d : Decimal) : Option Decimal :=
  if maxScale < places then none
  else if d.scale + places ≤ maxScale then some { d with scale := d.scale + places }
  else some { d with
    magnitude := roundedUnits d.magnitude (d.scale + places - maxScale), scale := maxScale }

/-- Moves the point to the right. Where places run out, zeros are appended. -/
def shiftRight? (places : Nat) (d : Decimal) : Option Decimal :=
  if places ≤ d.scale then some { d with scale := d.scale - places }
  else
    let magnitude := d.magnitude * 10 ^ (places - d.scale)
    if places ≤ maxScale && magnitude < mantissaBound then
      some { d with magnitude := magnitude, scale := 0 }
    else none

def ofScientific? (cs : List Char) : Option Decimal :=
  match cs.dropWhile fun c => !(c == 'e' || c == 'E') with
  | [] => none
  | _ :: exponent =>
    (ofPlain? (cs.takeWhile fun c => !(c == 'e' || c == 'E'))).bind fun d =>
      match exponent with
      | '-' :: places => (Numeral.unsigned? (2 ^ 32) places).bind (shiftLeft? · d)
      | places => (Numeral.unsigned? (2 ^ 32) places).bind (shiftRight? · d)

def ofText? (cs : List Char) : Option Decimal := (ofPlain? cs).or (ofScientific? cs)

end FixClient.Decimal
