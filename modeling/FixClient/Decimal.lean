import FixClient.Text.Numeral

/-!
# Decimal numbers

Prices and quantities are whole numbers of the last of their decimal places, with a
sign. The places are kept as given, so 1 and 1.0 print differently although they are
equal numbers. A zero may be negative: it is what rounding leaves of a number below zero.
-/

namespace FixClient

/-- The number `magnitude / 10 ^ scale`, negated if it is negative. -/
structure Decimal where
  negative : Bool
  magnitude : Nat
  scale : Nat
  deriving Repr

namespace Decimal

/-- The number `mantissa / 10 ^ scale`. Its zero is not negative. -/
def ofInt (mantissa : Int) (scale : Nat) : Decimal := ⟨mantissa < 0, mantissa.natAbs, scale⟩

/-- The number in units of its last place. -/
def mantissa (d : Decimal) : Int := if d.negative then -(d.magnitude : Int) else d.magnitude

theorem mantissa_ofInt (mantissa : Int) (scale : Nat) : (ofInt mantissa scale).mantissa = mantissa := by
  rcases Int.lt_or_le mantissa 0 with h | h
  · simp only [ofInt, Decimal.mantissa, h, decide_true, if_true]
    rw [Int.ofNat_natAbs_of_nonpos (Int.le_of_lt h), Int.neg_neg]
  · simp only [ofInt, Decimal.mantissa, Int.not_lt.2 h, decide_false, Bool.false_eq_true, if_false]
    exact Int.natAbs_of_nonneg h

/-- Equality of numbers: neither the places nor the sign of a zero matter. -/
instance : BEq Decimal where
  beq a b := a.mantissa * (10 : Int) ^ b.scale == b.mantissa * (10 : Int) ^ a.scale

theorem beq_iff {a b : Decimal} :
    (a == b) = true ↔ a.mantissa * (10 : Int) ^ b.scale = b.mantissa * (10 : Int) ^ a.scale := by
  simp only [BEq.beq, decide_eq_true_eq]

/-- The digits of a whole part and of `places` decimal places. -/
def unsignedText (n places : Nat) : List Char :=
  let whole := Numeral.digits (n / 10 ^ places)
  if places = 0 then whole else whole ++ '.' :: Numeral.fixed places n

/-- All decimal places are shown; only a negative number has a sign. -/
def text (d : Decimal) : List Char :=
  let digits := unsignedText d.magnitude d.scale
  if d.negative then '-' :: digits else digits

end Decimal

end FixClient
