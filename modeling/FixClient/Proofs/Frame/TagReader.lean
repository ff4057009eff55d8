import FixClient.Frame.Writer
import FixClient.Proofs.Frame.FieldReader

/-!
# Reading tags in words

A tag is read digit by digit into a word of 32 bits. One more digit is taken exactly if neither
the product nor the sum wraps. So the word is the value of the digits at every place, and the
reader gives up early only where the whole text is too large as well: the texts that it reads are
the numerals of the words, in up to ten digits.
-/

namespace FixClient

theorem Bytes.toNat_sub_zero {b : UInt8} (h : isDigit b = true) :
    (b - zero).toUInt32.toNat = (Char.ofNat b.toNat).toNat - 48 := by
  rw [isDigit_eq] at h
  obtain ⟨hlow, -⟩ := Numeral.toNat_of_isDigit h
  rw [toNat_ofNat_byte] at hlow ⊢
  have hle : zero ≤ b := UInt8.le_iff_toNat_le.mpr hlow
  rw [UInt8.toNat_toUInt32, UInt8.toNat_sub_of_le _ _ hle]
  rfl

namespace Tag

variable {front : Bytes} {b : UInt8} {k : Nat}

/-- A word with one more digit. The product and the sum are taken modulo 2^32. -/
def push (w : UInt32) (b : UInt8) : UInt32 := w * 10 + (b - Bytes.zero).toUInt32

/-- The word that digits make when nothing is looked at. -/
def word (bs : Bytes) : UInt32 := bs.foldl push 0

/-- Neither the product nor the sum wraps. -/
def Fits (w : UInt32) (b : UInt8) : Prop :=
  (w * 10).toNat = w.toNat * 10 ∧
    (push w b).toNat = (w * 10).toNat + (b - Bytes.zero).toUInt32.toNat

instance (w : UInt32) (b : UInt8) : Decidable (Fits w b) :=
  inferInstanceAs (Decidable (_ ∧ _))

theorem toNat_push (h : Bytes.isDigit b = true) (w : UInt32) :
    (push w b).toNat = (w.toNat * 10 + ((Char.ofNat b.toNat).toNat - 48)) % 2 ^ 32 := by
  rw [push, UInt32.toNat_add, UInt32.toNat_mul, Bytes.toNat_sub_zero h, Nat.mod_add_mod]
  rfl

theorem fits_iff (h : Bytes.isDigit b = true) (w : UInt32) :
    Fits w b ↔ w.toNat * 10 + ((Char.ofNat b.toNat).toNat - 48) < 2 ^ 32 := by
  have hproduct : (w * 10).toNat = w.toNat * 10 % 2 ^ 32 := UInt32.toNat_mul w 10
  rw [Fits, toNat_push h, hproduct, Bytes.toNat_sub_zero h]
  omega

/-- At a digit the reader goes on with the word, or it gives up. -/
theorem readDigits_word_cons (h : Bytes.isDigit b = true) (w : UInt32) (rest : Bytes) :
    readDigits w.toNat (b :: rest) =
      if Fits w b then readDigits (push w b).toNat rest else .ok none := by
  rw [readDigits_cons _ _ h, extend?_eq]
  by_cases hfits : Fits w b
  · have hlt := (fits_iff h w).mp hfits
    rw [if_pos hlt, if_pos hfits, toNat_push h, Nat.mod_eq_of_lt hlt]
  · rw [if_neg (mt (fits_iff h w).mpr hfits), if_neg hfits]

theorem readDigits_of_not_isDigit (h : Bytes.isDigit b = false) (n : Nat) (rest : Bytes) :
    readDigits n (b :: rest) = .ok none := by
  rw [readDigits, h]
  rfl

/-- What the reader holds after any digits is their word, and it reads on from there. -/
theorem readDigits_word_append {w : UInt32} (h : readDigits w.toNat front = .ok (some k))
    (rest : Bytes) : (front.foldl push w).toNat = k ∧
      readDigits w.toNat (front ++ rest) = readDigits k rest := by
  induction front generalizing w with
  | nil =>
      cases h
      exact ⟨rfl, rfl⟩
  | cons b front ih =>
      cases hb : Bytes.isDigit b with
      | false =>
          rw [readDigits_of_not_isDigit hb] at h
          cases h
      | true =>
          rw [readDigits_word_cons hb] at h
          split at h
          · next hfits =>
            rw [List.cons_append, readDigits_word_cons hb, if_pos hfits]
            exact ih h
          · cases h

/-- What the reader holds is the value of what it has read. -/
theorem value_of_readDigits (h : readDigits 0 front = .ok (some k)) :
    Numeral.value (Bytes.chars front) = k := by
  rw [readDigits_eq front (by decide)] at h
  split at h
  · cases h
    rfl
  · cases h

theorem exists_read_iff (bs : Bytes) (n : Nat) :
    (∃ t, read bs = .ok (some t) ∧ t.number.toNat = n) ↔
      ∃ cs, bs = Bytes.ascii cs ∧ Numeral.IsNumeral cs ∧ cs.length ≤ 10 ∧
        Numeral.value cs = n ∧ n < 2 ^ 32 := by
  simp only [read_eq, Except.ok.injEq, ofBytes?_eq_some_iff, maxDigits]
  constructor
  · rintro ⟨t, ⟨cs, hbytes, hcs, hlen, hvalue⟩, rfl⟩
    exact ⟨cs, hbytes, hcs, hlen, hvalue, t.toNat_lt⟩
  · rintro ⟨cs, hbytes, hcs, hlen, rfl, hlt⟩
    have hword : (Nat.toUInt32 (Numeral.value cs)).toNat = Numeral.value cs := Nat.mod_eq_of_lt hlt
    exact ⟨⟨(Numeral.value cs).toUInt32⟩, ⟨cs, hbytes, hcs, hlen, hword.symm⟩, hword⟩

theorem read_text (t : Tag) : read (Bytes.ascii t.text) = .ok (some t) := by
  rw [read_eq, ofBytes?_eq_some_iff.mpr
    ⟨t.text, rfl, t.isNumeral_text, t.length_text_le, t.value_text⟩]

/-- Tags are read digit by digit as they are read as a whole, and nothing out of range is asked for.
A number is read from exactly the texts of one to ten digits that have its value, if it is below
2^32. At every place that the reader comes to, it holds the value of the digits so far, which is
the word that they make unchecked; and it goes on behind the next digit exactly if neither the
product nor the sum wraps. The text that is written for a tag in front of a value is read as this
tag. -/
theorem reads_words :
    (∀ bs, read bs = .ok (ofBytes? bs)) ∧
    (∀ bs n, (∃ t, read bs = .ok (some t) ∧ t.number.toNat = n) ↔
      ∃ cs, bs = Bytes.ascii cs ∧ Numeral.IsNumeral cs ∧ cs.length ≤ 10 ∧
        Numeral.value cs = n ∧ n < 2 ^ 32) ∧
    (∀ front b rest k, readDigits 0 front = .ok (some k) → Bytes.isDigit b = true →
      Numeral.value (Bytes.chars front) = k ∧ (word front).toNat = k ∧
        readDigits 0 (front ++ b :: rest) =
          if Fits (word front) b then readDigits (push (word front) b).toNat rest
          else .ok none) ∧
    ∀ (t : Tag) (body : FrameBody) (bytes : Bytes),
      (body.put t bytes).bytes =
          body.bytes ++ (Bytes.ascii t.text ++ Bytes.equals :: bytes ++ [Bytes.soh]) ∧
        read (Bytes.ascii t.text) = .ok (some t) := by
  refine ⟨read_eq, exists_read_iff, ?_, ?_⟩
  · intro front b rest k hread hb
    have hread' : readDigits (0 : UInt32).toNat front = .ok (some k) := hread
    obtain ⟨hword, happend⟩ := readDigits_word_append hread' (b :: rest)
    refine ⟨value_of_readDigits hread, hword, ?_⟩
    calc
      readDigits 0 (front ++ b :: rest) = readDigits k (b :: rest) := happend
      _ = readDigits (word front).toNat (b :: rest) := by rw [← hword, word]
      _ = _ := readDigits_word_cons hb (word front) rest
  · intro t body bytes
    exact ⟨rfl, read_text t⟩

/-- The largest number, the one behind it, and ten digits with leading zeros. -/
theorem reads_words_largest :
    (∃ t, read (Utf8.encode "4294967295") = .ok (some t) ∧ t.number.toNat = 4294967295) ∧
      readDigits 0 (Utf8.encode "4294967296") = .ok none ∧
        read (Utf8.encode "0000000008") = .ok (some 8) := by
  obtain ⟨-, hiff, hplaces, -⟩ := reads_words
  have hlargest := (hiff (Utf8.encode "4294967295") 4294967295).mpr
    ⟨Numeral.digits 4294967295, by decide +kernel, Numeral.isNumeral_digits _, by decide +kernel,
      Numeral.value_digits _, by decide⟩
  obtain ⟨-, -, hstep⟩ :=
    hplaces (Utf8.encode "429496729") 0x36 [] 429496729 (by decide +kernel) rfl
  exact ⟨hlargest, hstep.trans (if_neg (by decide +kernel)), by decide +kernel⟩

end Tag

end FixClient
