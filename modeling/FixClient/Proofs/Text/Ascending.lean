import FixClient.Proofs.Text.Numeral

/-!
# Texts in the order of numbers

Numbers written in a fixed number of places sort as the numbers do. Texts with this property can
be put together: one text for the quotient and one for the remainder of a division make a text for
the number divided.
-/

namespace FixClient

namespace Text

/-- Two texts of one length in ascending order stay so, whatever follows them. -/
theorem append_lt_append {l r : List Char} (h : l < r) (hlen : l.length = r.length)
    (l' r' : List Char) : l ++ l' < r ++ r' := by
  induction h with
  | nil => cases hlen
  | cons _ ih => exact .cons (ih (Nat.succ.inj hlen))
  | rel hlt => exact .rel hlt

/-- Texts of `width` characters for the numbers below `bound`, in the order of the numbers. -/
structure Ascending (width bound : Nat) (text : Nat → List Char) : Prop where
  length_eq : ∀ {n}, n < bound → (text n).length = width
  lt : ∀ {m n}, m < n → n < bound → text m < text n

namespace Ascending

variable {width more bound count m n : Nat} {text front back : Nat → List Char}

theorem eq_iff (h : Ascending width bound text) (hm : m < bound) (hn : n < bound) :
    text m = text n ↔ m = n := by
  constructor
  · intro heq
    rcases Nat.lt_trichotomy m n with hlt | rfl | hlt
    · exact absurd (heq ▸ h.lt hlt hn) (List.lt_irrefl _)
    · rfl
    · exact absurd (heq ▸ h.lt hlt hm) (List.lt_irrefl _)
  · exact fun heq => congrArg text heq

/-- Numbers counted from `offset` on. -/
theorem add (h : Ascending width bound text) (offset : Nat) (hle : count + offset ≤ bound) :
    Ascending width count (fun n => text (n + offset)) where
  length_eq hn := h.length_eq (by omega)
  lt hlt hn := h.lt (by omega) (by omega)

theorem mono (h : Ascending width bound text) (hle : count ≤ bound) :
    Ascending width count text :=
  h.add 0 hle

theorem cons (h : Ascending width bound text) (c : Char) :
    Ascending (width + 1) bound (fun n => c :: text n) where
  length_eq hn := congrArg Nat.succ (h.length_eq hn)
  lt hlt hn := .cons (h.lt hlt hn)

/-- A quotient followed by its remainder. -/
theorem append (hfront : Ascending width bound front) (hback : Ascending more count back) :
    Ascending (width + more) (bound * count) (fun n => front (n / count) ++ back (n % count)) := by
  have hpos : ∀ {n}, n < bound * count → 0 < count := fun hn =>
    Nat.pos_of_lt_mul_left (Nat.lt_of_le_of_lt (Nat.zero_le _) hn)
  have hquotient : ∀ {n}, n < bound * count → n / count < bound := fun hn =>
    (Nat.div_lt_iff_lt_mul (hpos hn)).mpr hn
  have hrest : ∀ {n}, n < bound * count → n % count < count := fun hn => Nat.mod_lt _ (hpos hn)
  constructor
  · intro n hn
    rw [List.length_append, hfront.length_eq (hquotient hn), hback.length_eq (hrest hn)]
  · intro m n hlt hn
    have hm := Nat.lt_trans hlt hn
    have hle := Nat.div_le_div_right (c := count) (Nat.le_of_lt hlt)
    rcases Nat.lt_or_eq_of_le hle with hdiv | hdiv
    · apply append_lt_append (hfront.lt hdiv (hquotient hn))
      rw [hfront.length_eq (hquotient hm), hfront.length_eq (hquotient hn)]
    · rw [hdiv]
      apply List.append_left_lt
      refine hback.lt ?_ (hrest hn)
      have hmodm := Nat.div_add_mod m count
      have hmodn := Nat.div_add_mod n count
      rw [hdiv] at hmodm
      omega

theorem digit : Ascending 1 10 (fun n => [Nat.digitChar n]) where
  length_eq _ := rfl
  lt hlt hn := by
    have hm' := Nat.toNat_digitChar_of_lt_ten (Nat.lt_trans hlt hn)
    have hn' := Nat.toNat_digitChar_of_lt_ten hn
    simp only [Char.toNat] at hm' hn'
    apply List.Lex.rel
    rw [Char.lt_def, UInt32.lt_iff_toNat_lt, hm', hn']
    omega

theorem fixed (width : Nat) : Ascending width (10 ^ width) (Numeral.fixed width) := by
  induction width with
  | zero => exact ⟨fun _ => rfl, fun hlt hn => by simp at hn; omega⟩
  | succ width ih =>
      have h := ih.append digit
      rwa [← Nat.pow_succ] at h

end Ascending

end Text

end FixClient
