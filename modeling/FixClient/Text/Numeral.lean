import FixClient.Bytes

/-!
# Decimal numerals

Numbers are written in decimal without leading zeros, or in a fixed number of
places. Reading accepts leading zeros, and a sign where the caller allows one.
-/

namespace FixClient.Numeral

/-- The decimal digits of a number, `0` for zero. -/
def digits (n : Nat) : List Char := Nat.toDigits 10 n

def value (cs : List Char) : Nat := Nat.ofDigitChars 10 cs 0

theorem value_digits (n : Nat) : value (digits n) = n := Nat.ofDigitChars_ten_toDigits

theorem isDigit_of_mem_digits {n : Nat} {c : Char} (h : c ∈ digits n) : c.isDigit = true :=
  Nat.isDigit_of_mem_toDigits (by decide) (by decide) h

theorem digits_ne_nil (n : Nat) : digits n ≠ [] := Nat.toDigits_ne_nil

/-- Exactly `width` digits, the highest ones of a longer number being dropped. -/
def fixed : Nat → Nat → List Char
  | 0, _ => []
  | width + 1, n => fixed width (n / 10) ++ [Nat.digitChar (n % 10)]

@[simp] theorem length_fixed (width n : Nat) : (fixed width n).length = width := by
  induction width generalizing n with
  | zero => rfl
  | succ width ih => simp [fixed, ih]

/-- A number written as one or more ASCII digits. -/
def natural? (cs : List Char) : Option Nat :=
  if cs ≠ [] ∧ cs.all Char.isDigit then some (value cs) else none

theorem natural?_digits (n : Nat) : natural? (digits n) = some n := by
  have h : (digits n).all Char.isDigit = true :=
    List.all_eq_true.2 fun _ hc => isDigit_of_mem_digits hc
  simp [natural?, digits_ne_nil, h, value_digits]

/-- A number below `bound`, with an optional plus sign. -/
def unsigned? (bound : Nat) (cs : List Char) : Option Nat :=
  let n? :=
    match cs with
    | '+' :: rest => natural? rest
    | _ => natural? cs
  n?.filter (· < bound)

/-- A number `n` with `-bound ≤ n < bound`, with an optional sign. -/
def signed? (bound : Nat) (cs : List Char) : Option Int :=
  match cs with
  | '-' :: rest => ((natural? rest).filter (· ≤ bound)).map fun n => -(n : Int)
  | _ => (unsigned? bound cs).map fun n => (n : Int)

/-- Numbers of bytes fit a 64-bit word. -/
def sizeBound : Nat := 2 ^ 64

def size? (s : String) : Option Nat := unsigned? sizeBound s.toList

end FixClient.Numeral
