import FixClient.Frame.Decoder
import FixClient.Proofs.Frame.Segment

/-!
# Reading fields by their places

Fields are read in two ways: by cutting the input at its signs, and digit by digit with all parts
taken by their bounds. Both find the same fields, and no bound is ever missed. A tag is refused as
soon as its first digits are too large, which its last digits would not mend.
-/

namespace FixClient

namespace Bytes

variable {b : UInt8} {bs : Bytes}

theorem slice_eq {start stop : Nat} (front part rear : Bytes) (h : bs = front ++ (part ++ rear))
    (hstart : start = front.length) (hstop : stop = front.length + part.length) :
    slice start stop bs = .ok part := by
  subst h hstart hstop
  have hbounds : front.length + part.length ≤ (front ++ (part ++ rear)).length := by simp
  rw [slice, if_pos ⟨Nat.le_add_right _ _, hbounds⟩, List.take_length_add_append,
    List.drop_left, List.take_left]

theorem idxOf?_eq (sep : UInt8) (bs : Bytes) :
    bs.idxOf? sep = (cut? sep bs).map fun parts => parts.1.length := by
  induction bs with
  | nil => rfl
  | cons b rest ih =>
      rw [List.idxOf?_cons, cut?]
      by_cases h : b = sep
      · simp [h]
      · simp [h, ih, Function.comp_def]

theorem isDigit_eq (b : UInt8) : isDigit b = (Char.ofNat b.toNat).isDigit := by
  rw [Bool.eq_iff_iff, Char.isDigit_iff_toNat, toNat_ofNat_byte]
  simp [isDigit]

theorem digit_eq (h : isDigit b = true) : digit b = .ok ((Char.ofNat b.toNat).toNat - 48) := by
  rw [isDigit_eq] at h
  obtain ⟨hzero, -⟩ := Numeral.toNat_of_isDigit h
  rw [toNat_ofNat_byte] at hzero ⊢
  exact if_pos hzero

theorem chars_cons (b : UInt8) (bs : Bytes) :
    chars (b :: bs) = Char.ofNat b.toNat :: chars bs := rfl

end Bytes

theorem Numeral.filter_natural?_chars {bs : Bytes} (h : bs ≠ []) (bound : Nat) :
    (natural? (Bytes.chars bs)).filter (· < bound) =
      if (Bytes.chars bs).all Char.isDigit ∧ value (Bytes.chars bs) < bound then
        some (value (Bytes.chars bs)) else none := by
  have hne : Bytes.chars bs ≠ [] := fun hnil => h (List.map_eq_nil_iff.mp hnil)
  by_cases hdigits : (Bytes.chars bs).all Char.isDigit = true
  · rw [natural?, if_pos ⟨hne, hdigits⟩, Option.filter_some]
    simp only [hdigits, true_and, decide_eq_true_eq]
  · rw [natural?, if_neg fun hcs => hdigits hcs.2, if_neg fun hcs => hdigits hcs.1]
    rfl

namespace Tag

theorem extend?_eq (n d : Nat) :
    extend? n d = if n * 10 + d < 2 ^ 32 then some (n * 10 + d) else none := by
  by_cases hmul : n * 10 < 2 ^ 32
  · exact if_pos hmul
  · rw [extend?, if_neg hmul, if_neg fun h => hmul (Nat.lt_of_le_of_lt (Nat.le_add_right _ d) h)]

theorem le_ofDigitChars (cs : List Char) (n : Nat) : n ≤ Nat.ofDigitChars 10 cs n := by
  rw [Nat.ofDigitChars_eq_ofDigitChars_zero]
  exact Nat.le_trans (Nat.le_mul_of_pos_left n (Nat.pow_pos (by decide))) (Nat.le_add_right _ _)

theorem readDigits_cons (n : Nat) {b : UInt8} (rest : Bytes) (h : Bytes.isDigit b = true) :
    readDigits n (b :: rest) =
      match extend? n ((Char.ofNat b.toNat).toNat - 48) with
      | none => .ok none
      | some n => readDigits n rest := by
  rw [readDigits, h, Bytes.digit_eq h]
  rfl

/-- As if the digits were read to their end before the number is looked at. -/
theorem readDigits_eq (bs : Bytes) {n : Nat} (hn : n < 2 ^ 32) : readDigits n bs =
    .ok (if (Bytes.chars bs).all Char.isDigit ∧ Nat.ofDigitChars 10 (Bytes.chars bs) n < 2 ^ 32 then
      some (Nat.ofDigitChars 10 (Bytes.chars bs) n) else none) := by
  induction bs generalizing n with
  | nil => exact congrArg Except.ok (if_pos ⟨rfl, hn⟩).symm
  | cons b rest ih =>
      rw [Bytes.chars_cons, List.all_cons, ← Bytes.isDigit_eq]
      cases hb : Bytes.isDigit b with
      | false =>
          rw [readDigits, hb]
          rfl
      | true =>
          rw [readDigits_cons n rest hb, extend?_eq, Nat.ofDigitChars_cons, Nat.mul_comm 10 n]
          by_cases hlt : n * 10 + ((Char.ofNat b.toNat).toNat - 48) < 2 ^ 32
          · rw [if_pos hlt]
            exact ih hlt
          · rw [if_neg hlt, if_neg]
            exact fun h => hlt (Nat.lt_of_le_of_lt (le_ofDigitChars _ _) h.2)

theorem read_eq (bs : Bytes) : read bs = .ok (ofBytes? bs) := by
  rw [read, ofBytes?_eq]
  by_cases hlong : maxDigits < bs.length
  · rw [if_neg (Nat.not_le.mpr hlong), decide_eq_true hlong, Bool.or_true]
    rfl
  · rw [if_pos (Nat.le_of_not_lt hlong), decide_eq_false hlong, Bool.or_false]
    cases bs with
    | nil => rfl
    | cons b rest =>
        rw [Numeral.filter_natural?_chars (List.cons_ne_nil _ _), readDigits_eq _ (by decide)]
        rfl

end Tag

theorem CheckSum.read_eq (bs : Bytes) : read bs = .ok (ofText? bs) := by
  rw [ofText?_eq]
  match bs with
  | [] | [_] | [_, _] | _ :: _ :: _ :: _ :: _ => rfl
  | [a, b, c] =>
    have hall : (Bytes.chars [a, b, c]).all Char.isDigit =
        (Bytes.isDigit a && Bytes.isDigit b && Bytes.isDigit c) := by
      simp [Bytes.chars, Bytes.isDigit_eq, Bool.and_assoc]
    have hvalue : Numeral.value (Bytes.chars [a, b, c]) = ((Char.ofNat a.toNat).toNat - 48) * 100 +
        ((Char.ofNat b.toNat).toNat - 48) * 10 + ((Char.ofNat c.toNat).toNat - 48) := by
      simp [Bytes.chars, Numeral.value, Nat.ofDigitChars_cons]
      omega
    rw [Numeral.filter_natural?_chars (List.cons_ne_nil _ _), hall, hvalue, read]
    cases hdigits : Bytes.isDigit a && Bytes.isDigit b && Bytes.isDigit c with
    | false => rfl
    | true =>
        simp only [Bool.and_eq_true] at hdigits
        obtain ⟨⟨ha, hb⟩, hc⟩ := hdigits
        rw [Bytes.digit_eq ha, Bytes.digit_eq hb, Bytes.digit_eq hc]
        by_cases hlt : ((Char.ofNat a.toNat).toNat - 48) * 100 +
            ((Char.ofNat b.toNat).toNat - 48) * 10 + ((Char.ofNat c.toNat).toNat - 48) < 256
        · simp only [bind, Except.bind, hlt]
          rfl
        · simp only [bind, Except.bind, hlt]
          rfl

theorem WireField.read_eq (input : Bytes) : read input =
    .ok ((next? input).map fun (f, rest) => (f, input.length - rest.length)) := by
  rw [next?, read, Bytes.idxOf?_eq]
  cases hequals : Bytes.cut? Bytes.equals input with
  | none => rfl
  | some parts =>
    obtain ⟨tagText, afterEquals⟩ := parts
    obtain ⟨rfl, -⟩ := Bytes.cut?_eq_some_iff.mp hequals
    have htag : Bytes.slice 0 tagText.length (tagText ++ Bytes.equals :: afterEquals) =
        .ok tagText :=
      Bytes.slice_eq [] tagText (Bytes.equals :: afterEquals) rfl rfl (Nat.zero_add _).symm
    have hafter : Bytes.slice (tagText.length + 1) (tagText ++ Bytes.equals :: afterEquals).length
        (tagText ++ Bytes.equals :: afterEquals) = .ok afterEquals :=
      Bytes.slice_eq (tagText ++ [Bytes.equals]) afterEquals [] (by simp) (by simp) (by simp; omega)
    simp only [Option.map_some, htag, hafter, bind, Except.bind, Tag.read_eq, Bytes.idxOf?_eq]
    cases Tag.ofBytes? tagText with
    | none => rfl
    | some tag =>
      cases hsoh : Bytes.cut? Bytes.soh afterEquals with
      | none => rfl
      | some parts =>
        obtain ⟨bytes, rest⟩ := parts
        obtain ⟨rfl, -⟩ := Bytes.cut?_eq_some_iff.mp hsoh
        have hbytes : Bytes.slice (tagText.length + 1) (tagText.length + 1 + bytes.length)
            (tagText ++ Bytes.equals :: (bytes ++ Bytes.soh :: rest)) = .ok bytes :=
          Bytes.slice_eq (tagText ++ [Bytes.equals]) bytes (Bytes.soh :: rest) (by simp)
            (by simp) (by simp)
        have hsize : tagText.length + 1 + bytes.length + 1 =
            (tagText ++ Bytes.equals :: (bytes ++ Bytes.soh :: rest)).length - rest.length := by
          simp
          omega
        simp only [Option.map_some, hbytes, hsize]
        rfl

theorem WireField.read_bytes_append (s : Segment) (rest : Bytes) :
    read (s.bytes ++ rest) = .ok (some (s.wire, s.bytes.length)) := by
  rw [read_eq, Segment.next?_bytes_append]
  simp

end FixClient
