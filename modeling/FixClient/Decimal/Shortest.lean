import FixClient.Decimal

/-!
# The shortest decimal of a binary number

Among the decimal numbers that a 64-bit binary floating-point number stands for, the
one with the fewest digits is chosen, and of those the nearest. The numbers it stands
for reach halfway to its two neighbours; a number with an even mantissa also stands
for the two points halfway. All comparisons are between naturals.
-/

namespace FixClient

/-- The decimal numbers that a positive binary number stands for. All members are in
units of `1 / denominator`. -/
structure Rounding where
  low : Nat
  value : Nat
  high : Nat
  denominator : Nat
  /-- Whether the ends belong to it. -/
  closed : Bool

namespace Rounding

/-- What `mantissa * 2 ^ exponent` stands for. Below a power of two the neighbours are
closer, and there the number stands for half as much. -/
def ofBinary (mantissa : Nat) (exponent : Int) (isPower : Bool) : Rounding :=
  let unit := 2 ^ exponent.toNat
  { low := (4 * mantissa - if isPower then 1 else 2) * unit
    value := 4 * mantissa * unit
    high := (4 * mantissa + 2) * unit
    denominator := 4 * 2 ^ (-exponent).toNat
    closed := mantissa % 2 == 0 }

/-- Whether `n * 10 ^ place` is among the numbers. -/
def holds (r : Rounding) (place : Int) (n : Nat) : Bool :=
  let x := n * 10 ^ place.toNat * r.denominator
  let low := r.low * 10 ^ (-place).toNat
  let high := r.high * 10 ^ (-place).toNat
  (low < x && x < high) || (r.closed && (x == low || x == high))

/-- The number of units `10 ^ place` nearest to the value that is among the numbers.
Halfway between two of them the upper one is taken. -/
def nearest? (r : Rounding) (place : Int) : Option Nat :=
  let value := r.value * 10 ^ (-place).toNat
  let unit : Nat := 10 ^ place.toNat * r.denominator
  let n := value / unit
  match r.holds place n, r.holds place (n + 1) with
  | true, true => some (if 2 * (value % unit) < unit then n else n + 1)
  | true, false => some n
  | false, true => some (n + 1)
  | false, false => none

theorem holds_of_nearest? {r : Rounding} {place : Int} {n : Nat} (h : r.nearest? place = some n) :
    r.holds place n = true := by
  simp only [nearest?] at h
  split at h
  next h₀ h₁ =>
    obtain rfl := Option.some.inj h
    split <;> assumption
  next h₀ _ => obtain rfl := Option.some.inj h; exact h₀
  next _ h₁ => obtain rfl := Option.some.inj h; exact h₁
  next => nomatch h

/-- The place of the first digit of the upper end, counted from the one of the units. -/
def firstPlace (r : Rounding) : Int :=
  if r.denominator ≤ r.high then (Numeral.digits (r.high / r.denominator)).length - 1
  else -(Numeral.digits ((r.denominator - 1) / r.high)).length

/-- A number of units `10 ^ place` as a decimal. -/
def units (negative : Bool) (place : Int) (n : Nat) : Decimal :=
  ⟨negative, n * 10 ^ place.toNat, (-place).toNat⟩

/-- The first hit on grids that get finer place by place. Seventeen places tell any two
numbers apart, and the upper end may have one digit more than the value. -/
def shortest? (negative : Bool) (r : Rounding) : Option Decimal :=
  (List.range 18).findSome? fun (k : Nat) =>
    let place := r.firstPlace - (k : Int)
    (r.nearest? place).map (units negative place)

end Rounding

namespace Decimal

/-- The number `mantissa * 2 ^ exponent` with all its places. -/
def ofBinary (negative : Bool) (mantissa : Nat) (exponent : Int) : Decimal :=
  ⟨negative, mantissa * 2 ^ exponent.toNat * 5 ^ (-exponent).toNat, (-exponent).toNat⟩

/-- The shortest decimal of a finite binary number. A zero keeps its sign. -/
def ofFloat (x : Float) : Decimal :=
  let bits := x.toBits.toNat
  let negative := bits.testBit 63
  let exponent : Nat := bits / 2 ^ 52 % 2 ^ 11
  let fraction : Nat := bits % 2 ^ 52
  let mantissa := if exponent = 0 then fraction else fraction + 2 ^ 52
  let power : Int := (max exponent 1 : Nat) - 1075
  if mantissa = 0 then ⟨negative, 0, 0⟩
  else
    ((Rounding.ofBinary mantissa power (fraction == 0 && exponent > 1)).shortest? negative).getD
      (ofBinary negative mantissa power)

end Decimal

end FixClient
