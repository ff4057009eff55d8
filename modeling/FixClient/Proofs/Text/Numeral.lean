import FixClient.Proofs.Text.Utf8
import FixClient.Text.Numeral

/-!
# Values of numerals

A run of digits is determined by its length and its value, and by its value alone
if it has no leading zero. Digits are also told apart by their bytes, so that this
carries over to the numerals in a frame.
-/

namespace FixClient

namespace Bytes

/-- The characters whose numbers are the bytes. -/
def chars (bs : Bytes) : List Char := bs.map fun b => Char.ofNat b.toNat

theorem toNat_ofNat_byte (b : UInt8) : (Char.ofNat b.toNat).toNat = b.toNat :=
  Utf8.toNat_ofNat (.inl (Nat.lt_trans b.toNat_lt (by decide)))

@[simp] theorem ascii_chars (bs : Bytes) : ascii (chars bs) = bs := by
  induction bs with
  | nil => rfl
  | cons b rest ih =>
      have hb : (Char.ofNat b.toNat).toNat.toUInt8 = b := by simp [toNat_ofNat_byte]
      calc
        ascii (chars (b :: rest)) = (Char.ofNat b.toNat).toNat.toUInt8 :: ascii (chars rest) := rfl
        _ = b :: rest := by rw [hb, ih]

theorem chars_ascii {cs : List Char} (h : ∀ c ∈ cs, c.toNat < 256) : chars (ascii cs) = cs := by
  induction cs with
  | nil => rfl
  | cons c cs ih =>
      have hc : c.toNat.toUInt8.toNat = c.toNat := by simpa using h c List.mem_cons_self
      calc
        chars (ascii (c :: cs)) = Char.ofNat c.toNat.toUInt8.toNat :: chars (ascii cs) := rfl
        _ = c :: cs := by rw [hc, Char.ofNat_toNat, ih fun d hd => h d (List.mem_cons_of_mem c hd)]

theorem ascii_inj {l r : List Char} (hl : ∀ c ∈ l, c.toNat < 256) (hr : ∀ c ∈ r, c.toNat < 256)
    (h : ascii l = ascii r) : l = r := by
  rw [← chars_ascii hl, h, chars_ascii hr]

theorem notMem_ascii {b : UInt8} {cs : List Char} (h : ∀ c ∈ cs, c.toNat < 256 ∧ c.toNat ≠ b.toNat) :
    b ∉ ascii cs := by
  intro hb
  obtain ⟨c, hc, rfl⟩ := List.mem_map.mp hb
  obtain ⟨hlt, hne⟩ := h c hc
  exact hne (by simp [Nat.mod_eq_of_lt hlt])

end Bytes

namespace Numeral

/-- One or more decimal digits. -/
def IsNumeral (cs : List Char) : Prop := cs ≠ [] ∧ ∀ c ∈ cs, c.isDigit = true

theorem toNat_of_isDigit {c : Char} (h : c.isDigit = true) : 48 ≤ c.toNat ∧ c.toNat ≤ 57 :=
  Char.isDigit_iff_toNat.mp h

theorem natural?_eq_some_iff {cs : List Char} {n : Nat} :
    natural? cs = some n ↔ IsNumeral cs ∧ value cs = n := by
  simp [natural?, IsNumeral]

theorem value_append (l r : List Char) : value (l ++ r) = value l * 10 ^ r.length + value r := by
  simp only [value]
  rw [Nat.ofDigitChars_append, Nat.ofDigitChars_eq_ofDigitChars_zero, Nat.mul_comm]

theorem value_singleton (c : Char) : value [c] = c.toNat - 48 := by
  simp [value, Nat.ofDigitChars_cons]

theorem value_cons (c : Char) (cs : List Char) :
    value (c :: cs) = (c.toNat - 48) * 10 ^ cs.length + value cs := by
  rw [← List.singleton_append, value_append, value_singleton]

theorem value_lt {cs : List Char} (h : ∀ c ∈ cs, c.isDigit = true) :
    value cs < 10 ^ cs.length := by
  induction cs with
  | nil => simp [value]
  | cons c cs ih =>
      have hc := toNat_of_isDigit (h c List.mem_cons_self)
      have hcs := ih fun d hd => h d (List.mem_cons_of_mem c hd)
      have hmul : (c.toNat - 48) * 10 ^ cs.length ≤ 9 * 10 ^ cs.length :=
        Nat.mul_le_mul_right _ (by omega)
      rw [value_cons, List.length_cons, Nat.pow_succ]
      omega

/-- Digits of one length and one value are the same digits. -/
theorem eq_of_value_eq {l r : List Char} (hl : ∀ c ∈ l, c.isDigit = true)
    (hr : ∀ c ∈ r, c.isDigit = true) (hlen : l.length = r.length) (h : value l = value r) :
    l = r := by
  induction l generalizing r with
  | nil => exact (List.length_eq_zero_iff.mp hlen.symm).symm
  | cons c l ih =>
      obtain ⟨d, r, rfl⟩ := List.exists_cons_of_length_pos (l := r) (by simp [← hlen])
      have hlen' : l.length = r.length := by simpa using hlen
      have hc := toNat_of_isDigit (hl c List.mem_cons_self)
      have hd := toNat_of_isDigit (hr d List.mem_cons_self)
      have hl' : ∀ c ∈ l, c.isDigit = true := fun e he => hl e (List.mem_cons_of_mem c he)
      have hr' : ∀ c ∈ r, c.isDigit = true := fun e he => hr e (List.mem_cons_of_mem d he)
      rw [value_cons, value_cons, ← hlen'] at h
      have hlow := value_lt hl'
      have hlow' := hlen' ▸ value_lt hr'
      have hdiv : ∀ k v, v < 10 ^ l.length → (k * 10 ^ l.length + v) / 10 ^ l.length = k := by
        intro k v hv
        rw [Nat.add_comm, Nat.add_mul_div_right _ _ (Nat.pow_pos (by omega)),
          Nat.div_eq_of_lt hv, Nat.zero_add]
      have hhead : c.toNat - 48 = d.toNat - 48 := by
        rw [← hdiv (c.toNat - 48) (value l) hlow, h, hdiv _ _ hlow']
      have hcd : c = d := Char.toNat_inj.mp (by omega)
      subst hcd
      rw [ih hl' hr' hlen' (by omega)]

/-- A numeral grows when digits are put behind it. -/
theorem value_lt_value_append {l r : List Char} (hl : 0 < value l) (hr : r ≠ []) :
    value l < value (l ++ r) := by
  have hlen : 0 < r.length := List.length_pos_iff.mpr hr
  have hten : 10 ^ 1 ≤ 10 ^ r.length := Nat.pow_le_pow_right (by omega) hlen
  have hmul : value l * 10 ^ 1 ≤ value l * 10 ^ r.length := Nat.mul_le_mul_left _ hten
  rw [value_append]
  omega

theorem isNumeral_digits (n : Nat) : IsNumeral (digits n) :=
  ⟨digits_ne_nil n, fun _ hc => isDigit_of_mem_digits hc⟩

theorem length_digits_le {n k : Nat} (hk : 0 < k) (h : n < 10 ^ k) : (digits n).length ≤ k :=
  (Nat.length_toDigits_le_iff (by decide) hk).mpr h

/-- Without a leading zero the value has as many digits as the numeral. -/
theorem pow_le_value {cs : List Char} (h : IsNumeral cs) (hhead : cs.head? ≠ some '0') :
    10 ^ (cs.length - 1) ≤ value cs := by
  obtain ⟨c, cs, rfl⟩ := List.exists_cons_of_ne_nil h.1
  have hc := toNat_of_isDigit (h.2 c List.mem_cons_self)
  have hne : c.toNat ≠ 48 := fun e => hhead (by simp [← Char.toNat_inj, e])
  have hmul : 1 * 10 ^ cs.length ≤ (c.toNat - 48) * 10 ^ cs.length :=
    Nat.mul_le_mul_right _ (by omega)
  rw [value_cons, List.length_cons, Nat.add_sub_cancel]
  omega

theorem head?_digits {n : Nat} (h : 0 < n) : (digits n).head? ≠ some '0' := by
  intro hhead
  obtain ⟨cs, hcs⟩ : ∃ cs, digits n = '0' :: cs := by
    cases hd : digits n with
    | nil => exact absurd hd (digits_ne_nil n)
    | cons c cs => exact ⟨cs, by simpa [hd] using hhead⟩
  have hdigits : ∀ c ∈ cs, c.isDigit = true := fun c hc =>
    isDigit_of_mem_digits (n := n) (hcs ▸ List.mem_cons_of_mem '0' hc)
  have hvalue : value cs = n := by
    rw [← value_digits n, hcs, value_cons]
    simp
  have hlt := hvalue ▸ value_lt hdigits
  have hlen : 0 < cs.length := by
    cases cs with
    | nil => simp at hlt; omega
    | cons c cs => simp
  have hle := length_digits_le hlen hlt
  rw [hcs, List.length_cons] at hle
  omega

/-- Without a leading zero a numeral is the one that is written for its value. -/
theorem digits_value {cs : List Char} (h : IsNumeral cs) (hhead : cs.head? ≠ some '0') :
    digits (value cs) = cs := by
  have hd := isNumeral_digits (value cs)
  have hlen : 0 < cs.length := List.length_pos_iff.mpr h.1
  have hlen' : 0 < (digits (value cs)).length := List.length_pos_iff.mpr hd.1
  have hle : (digits (value cs)).length ≤ cs.length := length_digits_le hlen (value_lt h.2)
  have hlow := pow_le_value h hhead
  have hge : cs.length ≤ (digits (value cs)).length := by
    have hlt := value_digits (value cs) ▸ value_lt hd.2
    have hpow := (Nat.pow_lt_pow_iff_right (by decide)).mp (Nat.lt_of_le_of_lt hlow hlt)
    omega
  exact eq_of_value_eq hd.2 h.2 (by omega) (value_digits _)

theorem isDigit_of_mem_fixed {width n : Nat} {c : Char} (h : c ∈ fixed width n) :
    c.isDigit = true := by
  induction width generalizing n with
  | zero => cases h
  | succ width ih =>
      rcases List.mem_append.mp h with h | h
      · exact ih h
      · obtain rfl := List.mem_singleton.mp h
        simp [Nat.mod_lt]

theorem value_fixed (width n : Nat) : value (fixed width n) = n % 10 ^ width := by
  induction width generalizing n with
  | zero => simp [fixed, value, Nat.mod_one]
  | succ width ih =>
      have hlast := Nat.toNat_digitChar_sub_48_of_lt_ten (Nat.mod_lt n (show 0 < 10 by decide))
      rw [fixed, value_append, ih, value_singleton, hlast, Nat.pow_succ', Nat.mod_mul,
        List.length_singleton]
      omega

theorem toNat_lt_of_isDigit {cs : List Char} (h : ∀ c ∈ cs, c.isDigit = true) :
    ∀ c ∈ cs, c.toNat < 256 := fun c hc => by
  have hd := toNat_of_isDigit (h c hc)
  omega

/-- Digits are told apart by their bytes. -/
theorem ascii_inj {l r : List Char} (hl : ∀ c ∈ l, c.isDigit = true)
    (hr : ∀ c ∈ r, c.isDigit = true) (h : Bytes.ascii l = Bytes.ascii r) : l = r :=
  Bytes.ascii_inj (toNat_lt_of_isDigit hl) (toNat_lt_of_isDigit hr) h

theorem notMem_ascii {b : UInt8} {cs : List Char} (h : ∀ c ∈ cs, c.isDigit = true)
    (hb : b.toNat < 48 ∨ 57 < b.toNat) : b ∉ Bytes.ascii cs :=
  Bytes.notMem_ascii fun c hc => by
    have hd := toNat_of_isDigit (h c hc)
    omega

theorem natural?_chars_eq_some_iff {bs : Bytes} {n : Nat} :
    natural? (Bytes.chars bs) = some n ↔
      ∃ cs, bs = Bytes.ascii cs ∧ IsNumeral cs ∧ value cs = n := by
  rw [natural?_eq_some_iff]
  constructor
  · rintro ⟨hcs, hn⟩
    exact ⟨Bytes.chars bs, (Bytes.ascii_chars bs).symm, hcs, hn⟩
  · rintro ⟨cs, rfl, hcs, hn⟩
    rw [Bytes.chars_ascii (toNat_lt_of_isDigit hcs.2)]
    exact ⟨hcs, hn⟩

/-- A numeral of value `n` behind an optional plus sign. -/
def IsSigned (cs : List Char) (n : Nat) : Prop :=
  ∃ ds, (cs = ds ∨ cs = '+' :: ds) ∧ IsNumeral ds ∧ value ds = n

theorem IsSigned.toNat_le {cs : List Char} {n : Nat} (h : IsSigned cs n) :
    ∀ c ∈ cs, c.toNat ≤ 57 := by
  obtain ⟨ds, rfl | rfl, hds, -⟩ := h
  · exact fun c hc => (toNat_of_isDigit (hds.2 c hc)).2
  · intro c hc
    rcases List.mem_cons.mp hc with rfl | hc
    · decide
    · exact (toNat_of_isDigit (hds.2 c hc)).2

theorem IsSigned.le_toNat {cs : List Char} {n : Nat} (h : IsSigned cs n) :
    ∀ c ∈ cs, 43 ≤ c.toNat := by
  obtain ⟨ds, rfl | rfl, hds, -⟩ := h
  · exact fun c hc => Nat.le_trans (by decide) (toNat_of_isDigit (hds.2 c hc)).1
  · intro c hc
    rcases List.mem_cons.mp hc with rfl | hc
    · decide
    · exact Nat.le_trans (by decide) (toNat_of_isDigit (hds.2 c hc)).1

theorem IsSigned.ascii_inj {l r : List Char} {n k : Nat} (hl : IsSigned l n) (hr : IsSigned r k)
    (h : Bytes.ascii l = Bytes.ascii r) : l = r :=
  Bytes.ascii_inj (fun c hc => Nat.lt_of_le_of_lt (hl.toNat_le c hc) (by decide))
    (fun c hc => Nat.lt_of_le_of_lt (hr.toNat_le c hc) (by decide)) h

theorem unsigned?_eq_some_iff {bound : Nat} {cs : List Char} {n : Nat} :
    unsigned? bound cs = some n ↔ IsSigned cs n ∧ n < bound := by
  have hplus : ∀ ds : List Char, ¬ IsNumeral ('+' :: ds) := fun ds h =>
    absurd (h.2 '+' List.mem_cons_self) (by decide)
  cases cs with
  | nil => simp [unsigned?, IsSigned, natural?_eq_some_iff, Option.filter_eq_some_iff, and_assoc]
  | cons c cs =>
      by_cases hc : c = '+'
      · subst hc
        simp [unsigned?, IsSigned, natural?_eq_some_iff, Option.filter_eq_some_iff, hplus]
      · simp [unsigned?, IsSigned, natural?_eq_some_iff, Option.filter_eq_some_iff, hc]

end Numeral

end FixClient
