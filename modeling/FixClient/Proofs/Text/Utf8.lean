import FixClient.Text.Utf8

/-!
# Reading UTF-8 back

Where the bytes of a character stand, the reader emits this character and goes on
behind them; and where it emits a character, the bytes of this character stood.
So strict decoding is the inverse of encoding, and it refuses all other bytes.
-/

namespace FixClient.Utf8

/-- A byte string that is the UTF-8 of a text. -/
def Valid (bs : Bytes) : Prop := ∃ s, encode s = bs

/-- A byte string as a text. Only ill-formed bytes are replaced. -/
def text (bs : Bytes) : String := String.ofList (decodeLossy bs)

section Reader

theorem scan_none_cons (b : UInt8) (rest : Bytes) :
    scan none (b :: rest) = (start b).1 ++ scan (start b).2 rest := rfl

theorem scan_some_cons (p : Pending) (b : UInt8) (rest : Bytes) :
    scan (some p) (b :: rest) = (p.step b).1 ++ scan (p.step b).2 rest := rfl

/-- What is pending after one more byte that is not the last. -/
def Pending.next (p : Pending) (b : UInt8) (more : Nat) : Pending :=
  ⟨p.value * 64 + (b.toNat - 0x80), p.seen + 1, 0x80, 0xbf, more⟩

theorem step_last {p : Pending} {b : UInt8} (hmore : p.more = 0) (hlow : p.low ≤ b)
    (hhigh : b ≤ p.high) :
    p.step b = ([.char (Char.ofNat (p.value * 64 + (b.toNat - 0x80)))], none) := by
  obtain ⟨value, seen, low, high, more⟩ := p
  simp only at hmore hlow hhigh
  subst hmore
  exact if_pos ⟨hlow, hhigh⟩

theorem step_inner {p : Pending} {b : UInt8} {more : Nat} (hmore : p.more = more + 1)
    (hlow : p.low ≤ b) (hhigh : b ≤ p.high) : p.step b = ([], some (p.next b more)) := by
  obtain ⟨value, seen, low, high, more'⟩ := p
  simp only at hmore hlow hhigh
  subst hmore
  exact if_pos ⟨hlow, hhigh⟩

/-- Inside a character only a byte in range leads to an emitted character. -/
theorem exists_cons_of_scan_some {p : Pending} {bs : Bytes} {c : Char} {tail : List Symbol}
    (h : scan (some p) bs = .char c :: tail) :
    ∃ b rest, bs = b :: rest ∧ p.low ≤ b ∧ b ≤ p.high := by
  cases bs with
  | nil => simp [scan] at h
  | cons b rest =>
      by_cases hb : p.low ≤ b ∧ b ≤ p.high
      · exact ⟨b, rest, rfl, hb⟩
      · simp [scan_some_cons, Pending.step, hb] at h

theorem start_one {b : UInt8} (h : b.toNat < 0x80) :
    start b = ([.char (Char.ofNat b.toNat)], none) := by
  have hb : b < 0x80 := UInt8.lt_iff_toNat_lt.mpr h
  simp [start, hb]

theorem start_two {b : UInt8} (hlow : 0xc2 ≤ b.toNat) (hhigh : b.toNat < 0xe0) :
    start b = ([], some ⟨b.toNat - 0xc0, 1, 0x80, 0xbf, 0⟩) := by
  have h₁ : ¬ b < 0x80 := by simp [UInt8.lt_iff_toNat_lt]; omega
  have h₂ : ¬ b < 0xc2 := by simp [UInt8.lt_iff_toNat_lt]; omega
  have h₃ : b < 0xe0 := UInt8.lt_iff_toNat_lt.mpr hhigh
  simp [start, h₁, h₂, h₃]

theorem start_three {b : UInt8} (hlow : 0xe0 ≤ b.toNat) (hhigh : b.toNat < 0xf0) :
    start b = ([], some ⟨b.toNat - 0xe0, 1, if b = 0xe0 then 0xa0 else 0x80,
      if b = 0xed then 0x9f else 0xbf, 1⟩) := by
  have h₁ : ¬ b < 0x80 := by simp [UInt8.lt_iff_toNat_lt]; omega
  have h₂ : ¬ b < 0xc2 := by simp [UInt8.lt_iff_toNat_lt]; omega
  have h₃ : ¬ b < 0xe0 := by simp [UInt8.lt_iff_toNat_lt]; omega
  have h₄ : b < 0xf0 := UInt8.lt_iff_toNat_lt.mpr hhigh
  simp [start, h₁, h₂, h₃, h₄]

theorem start_four {b : UInt8} (hlow : 0xf0 ≤ b.toNat) (hhigh : b.toNat < 0xf5) :
    start b = ([], some ⟨b.toNat - 0xf0, 1, if b = 0xf0 then 0x90 else 0x80,
      if b = 0xf4 then 0x8f else 0xbf, 2⟩) := by
  have h₁ : ¬ b < 0x80 := by simp [UInt8.lt_iff_toNat_lt]; omega
  have h₂ : ¬ b < 0xc2 := by simp [UInt8.lt_iff_toNat_lt]; omega
  have h₃ : ¬ b < 0xe0 := by simp [UInt8.lt_iff_toNat_lt]; omega
  have h₄ : ¬ b < 0xf0 := by simp [UInt8.lt_iff_toNat_lt]; omega
  have h₅ : b < 0xf5 := UInt8.lt_iff_toNat_lt.mpr hhigh
  simp [start, h₁, h₂, h₃, h₄, h₅]

theorem start_malformed {b : UInt8} (h : 0x80 ≤ b.toNat ∧ b.toNat < 0xc2 ∨ 0xf5 ≤ b.toNat) :
    start b = ([.malformed 1], none) := by
  have h₁ : ¬ b < 0x80 := by simp [UInt8.lt_iff_toNat_lt]; omega
  rcases h with h | h
  · have h₂ : b < 0xc2 := UInt8.lt_iff_toNat_lt.mpr h.2
    simp [start, h₁, h₂]
  · have h₂ : ¬ b < 0xc2 := by simp [UInt8.lt_iff_toNat_lt]; omega
    have h₃ : ¬ b < 0xe0 := by simp [UInt8.lt_iff_toNat_lt]; omega
    have h₄ : ¬ b < 0xf0 := by simp [UInt8.lt_iff_toNat_lt]; omega
    have h₅ : ¬ b < 0xf5 := by simp [UInt8.lt_iff_toNat_lt]; omega
    simp [start, h₁, h₂, h₃, h₄, h₅]

end Reader

section Characters

/-- The bytes of a character, its number being read in base 64. -/
theorem encodeChar_eq (c : Char) : String.utf8EncodeChar c =
    if c.toNat ≤ 0x7f then [UInt8.ofNat c.toNat]
    else if c.toNat ≤ 0x7ff then
      [UInt8.ofNat (c.toNat / 64 % 0x20 + 0xc0), UInt8.ofNat (c.toNat % 0x40 + 0x80)]
    else if c.toNat ≤ 0xffff then
      [UInt8.ofNat (c.toNat / 4096 % 0x10 + 0xe0), UInt8.ofNat (c.toNat / 64 % 0x40 + 0x80),
        UInt8.ofNat (c.toNat % 0x40 + 0x80)]
    else
      [UInt8.ofNat (c.toNat / 262144 % 0x08 + 0xf0), UInt8.ofNat (c.toNat / 4096 % 0x40 + 0x80),
        UInt8.ofNat (c.toNat / 64 % 0x40 + 0x80), UInt8.ofNat (c.toNat % 0x40 + 0x80)] := rfl

theorem toNat_lt (c : Char) : c.toNat < 0x110000 := by
  rcases c.valid with h | h
  · exact Nat.lt_trans h (by decide)
  · exact h.2

theorem not_surrogate (c : Char) : c.toNat < 0xd800 ∨ 0xdfff < c.toNat := by
  rcases c.valid with h | h
  · exact .inl h
  · exact .inr h.1

theorem toNat_ofNat {n : Nat} (h : n.isValidChar) : (Char.ofNat n).toNat = n := by
  rw [Char.ofNat, dif_pos h]
  rfl

/-- A byte that may continue a character. -/
def IsTail (b : UInt8) : Prop := 0x80 ≤ b.toNat ∧ b.toNat ≤ 0xbf

/-- Between the bounds that the lead byte `a` sets for the byte after it. -/
def IsSecond (a b : UInt8) : Prop :=
  IsTail b ∧ (a.toNat = 0xe0 → 0xa0 ≤ b.toNat) ∧ (a.toNat = 0xed → b.toNat ≤ 0x9f) ∧
    (a.toNat = 0xf0 → 0x90 ≤ b.toNat) ∧ (a.toNat = 0xf4 → b.toNat ≤ 0x8f)

theorem isTail_iff {b : UInt8} : IsTail b ↔ 0x80 ≤ b ∧ b ≤ 0xbf := by
  simp [IsTail, UInt8.le_iff_toNat_le]

theorem scan_tail {p : Pending} {b : UInt8} (hmore : p.more = 0) (hlow : p.low = 0x80)
    (hhigh : p.high = 0xbf) (hb : IsTail b) (rest : Bytes) :
    scan (some p) (b :: rest) =
      .char (Char.ofNat (p.value * 64 + (b.toNat - 0x80))) :: scan none rest := by
  have hb' := isTail_iff.mp hb
  rw [scan_some_cons, step_last hmore (hlow ▸ hb'.1) (hhigh ▸ hb'.2)]
  rfl

theorem scan_inner {p : Pending} {b : UInt8} {more : Nat} (hmore : p.more = more + 1)
    (hlow : p.low ≤ b) (hhigh : b ≤ p.high) (rest : Bytes) :
    scan (some p) (b :: rest) = scan (some (p.next b more)) rest := by
  rw [scan_some_cons, step_inner hmore hlow hhigh]
  rfl

theorem scan_two {a b : UInt8} (hlow : 0xc2 ≤ a.toNat) (hhigh : a.toNat < 0xe0) (hb : IsTail b)
    (rest : Bytes) : scan none (a :: b :: rest) =
      .char (Char.ofNat ((a.toNat - 0xc0) * 64 + (b.toNat - 0x80))) :: scan none rest := by
  rw [scan_none_cons, start_two hlow hhigh]
  exact scan_tail rfl rfl rfl hb rest

theorem second_of_three {a b : UInt8} (hlow : 0xe0 ≤ a.toNat) (hhigh : a.toNat < 0xf0) :
    IsSecond a b ↔ (if a = 0xe0 then 0xa0 else 0x80) ≤ b ∧ b ≤ (if a = 0xed then 0x9f else 0xbf) := by
  simp only [IsSecond, IsTail, UInt8.le_iff_toNat_le, ← UInt8.toNat_inj, apply_ite UInt8.toNat]
  split <;> split <;> simp_all <;> omega

theorem second_of_four {a b : UInt8} (hlow : 0xf0 ≤ a.toNat) :
    IsSecond a b ↔ (if a = 0xf0 then 0x90 else 0x80) ≤ b ∧ b ≤ (if a = 0xf4 then 0x8f else 0xbf) := by
  simp only [IsSecond, IsTail, UInt8.le_iff_toNat_le, ← UInt8.toNat_inj, apply_ite UInt8.toNat]
  split <;> split <;> simp_all <;> omega

theorem scan_three {a b c : UInt8} (hlow : 0xe0 ≤ a.toNat) (hhigh : a.toNat < 0xf0)
    (hb : IsSecond a b) (hc : IsTail c) (rest : Bytes) : scan none (a :: b :: c :: rest) =
      .char (Char.ofNat (((a.toNat - 0xe0) * 64 + (b.toNat - 0x80)) * 64 + (c.toNat - 0x80))) ::
        scan none rest := by
  have hb' := (second_of_three hlow hhigh).mp hb
  rw [scan_none_cons, start_three hlow hhigh, List.nil_append, scan_inner rfl hb'.1 hb'.2]
  exact scan_tail rfl rfl rfl hc rest

theorem scan_four {a b c d : UInt8} (hlow : 0xf0 ≤ a.toNat) (hhigh : a.toNat < 0xf5)
    (hb : IsSecond a b) (hc : IsTail c) (hd : IsTail d) (rest : Bytes) :
    scan none (a :: b :: c :: d :: rest) =
      .char (Char.ofNat ((((a.toNat - 0xf0) * 64 + (b.toNat - 0x80)) * 64 + (c.toNat - 0x80)) * 64 +
        (d.toNat - 0x80))) :: scan none rest := by
  have hb' := (second_of_four hlow).mp hb
  have hc' := isTail_iff.mp hc
  rw [scan_none_cons, start_four hlow hhigh, List.nil_append, scan_inner rfl hb'.1 hb'.2]
  refine Eq.trans (scan_inner rfl hc'.1 hc'.2 _) ?_
  exact scan_tail rfl rfl rfl hd rest

/-- The reader emits a character where its bytes stand. -/
theorem scan_encodeChar (c : Char) (rest : Bytes) :
    scan none (String.utf8EncodeChar c ++ rest) = .char c :: scan none rest := by
  have hmax := toNat_lt c
  have hgap := not_surrogate c
  have hbyte : ∀ n, n < 256 → (UInt8.ofNat n).toNat = n := fun n hn => by simpa using hn
  have hchar : ∀ n, n = c.toNat → Char.ofNat n = c := fun n hn => hn ▸ Char.ofNat_toNat c
  rw [encodeChar_eq]
  by_cases h₁ : c.toNat ≤ 0x7f
  · rw [if_pos h₁, List.singleton_append, scan_none_cons,
      start_one (by rw [hbyte _ (by omega)]; omega), hchar _ (hbyte _ (by omega))]
    rfl
  by_cases h₂ : c.toNat ≤ 0x7ff
  · have ha := hbyte (c.toNat / 64 % 0x20 + 0xc0) (by omega)
    have hb := hbyte (c.toNat % 0x40 + 0x80) (by omega)
    rw [if_neg h₁, if_pos h₂]
    refine (scan_two (by omega) (by omega) ⟨by omega, by omega⟩ rest).trans ?_
    rw [hchar _ (by omega)]
  by_cases h₃ : c.toNat ≤ 0xffff
  · have ha := hbyte (c.toNat / 4096 % 0x10 + 0xe0) (by omega)
    have hb := hbyte (c.toNat / 64 % 0x40 + 0x80) (by omega)
    have hc := hbyte (c.toNat % 0x40 + 0x80) (by omega)
    rw [if_neg h₁, if_neg h₂, if_pos h₃]
    refine (scan_three (by omega) (by omega) ⟨⟨by omega, by omega⟩, ?_⟩
      ⟨by omega, by omega⟩ rest).trans ?_
    · refine ⟨?_, ?_, ?_, ?_⟩ <;> intro <;> omega
    · rw [hchar _ (by omega)]
  · have ha := hbyte (c.toNat / 262144 % 0x08 + 0xf0) (by omega)
    have hb := hbyte (c.toNat / 4096 % 0x40 + 0x80) (by omega)
    have hc := hbyte (c.toNat / 64 % 0x40 + 0x80) (by omega)
    have hd := hbyte (c.toNat % 0x40 + 0x80) (by omega)
    rw [if_neg h₁, if_neg h₂, if_neg h₃]
    refine (scan_four (by omega) (by omega) ⟨⟨by omega, by omega⟩, ?_⟩
      ⟨by omega, by omega⟩ ⟨by omega, by omega⟩ rest).trans ?_
    · refine ⟨?_, ?_, ?_, ?_⟩ <;> intro <;> omega
    · rw [hchar _ (by omega)]

/-- Inside a character only a byte in range leads to an emitted character. -/
theorem exists_tail_of_scan {p : Pending} {bs : Bytes} {c : Char} {tail : List Symbol}
    (hlow : p.low = 0x80) (hhigh : p.high = 0xbf) (h : scan (some p) bs = .char c :: tail) :
    ∃ b rest, bs = b :: rest ∧ IsTail b := by
  obtain ⟨b, rest, rfl, hb⟩ := exists_cons_of_scan_some h
  rw [hlow, hhigh] at hb
  exact ⟨b, rest, rfl, isTail_iff.mpr hb⟩

theorem ofNat_eq {a : UInt8} {n : Nat} (h : n = a.toNat) : UInt8.ofNat n = a := by simp [h]

theorem encodeChar_of_two {a b : UInt8} (hlow : 0xc2 ≤ a.toNat) (hhigh : a.toNat < 0xe0)
    (hb : IsTail b) :
    String.utf8EncodeChar (Char.ofNat ((a.toNat - 0xc0) * 64 + (b.toNat - 0x80))) = [a, b] := by
  obtain ⟨hb₁, hb₂⟩ := hb
  have hn := toNat_ofNat (n := (a.toNat - 0xc0) * 64 + (b.toNat - 0x80)) (.inl (by omega))
  rw [encodeChar_eq, if_neg (by omega), if_pos (by omega), ofNat_eq (a := a) (by omega),
    ofNat_eq (a := b) (by omega)]

theorem encodeChar_of_three {a b c : UInt8} (hlow : 0xe0 ≤ a.toNat) (hhigh : a.toNat < 0xf0)
    (hb : IsSecond a b) (hc : IsTail c) : String.utf8EncodeChar
      (Char.ofNat (((a.toNat - 0xe0) * 64 + (b.toNat - 0x80)) * 64 + (c.toNat - 0x80))) =
        [a, b, c] := by
  obtain ⟨⟨hb₁, hb₂⟩, hb₃, hb₄, -, -⟩ := hb
  obtain ⟨hc₁, hc₂⟩ := hc
  have hn := toNat_ofNat
    (n := ((a.toNat - 0xe0) * 64 + (b.toNat - 0x80)) * 64 + (c.toNat - 0x80)) (by
      simp only [Nat.isValidChar]
      omega)
  rw [encodeChar_eq, if_neg (by omega), if_neg (by omega), if_pos (by omega),
    ofNat_eq (a := a) (by omega), ofNat_eq (a := b) (by omega), ofNat_eq (a := c) (by omega)]

theorem encodeChar_of_four {a b c d : UInt8} (hlow : 0xf0 ≤ a.toNat) (hhigh : a.toNat < 0xf5)
    (hb : IsSecond a b) (hc : IsTail c) (hd : IsTail d) : String.utf8EncodeChar
      (Char.ofNat ((((a.toNat - 0xf0) * 64 + (b.toNat - 0x80)) * 64 + (c.toNat - 0x80)) * 64 +
        (d.toNat - 0x80))) = [a, b, c, d] := by
  obtain ⟨⟨hb₁, hb₂⟩, -, -, hb₃, hb₄⟩ := hb
  obtain ⟨hc₁, hc₂⟩ := hc
  obtain ⟨hd₁, hd₂⟩ := hd
  have hn := toNat_ofNat
    (n := (((a.toNat - 0xf0) * 64 + (b.toNat - 0x80)) * 64 + (c.toNat - 0x80)) * 64 +
      (d.toNat - 0x80)) (by
        simp only [Nat.isValidChar]
        omega)
  rw [encodeChar_eq, if_neg (by omega), if_neg (by omega), if_neg (by omega),
    ofNat_eq (a := a) (by omega), ofNat_eq (a := b) (by omega), ofNat_eq (a := c) (by omega),
    ofNat_eq (a := d) (by omega)]

/-- Where the reader emits a character, its bytes stood. The lead byte tells how many
bytes follow; were one of them out of range, the first symbol would be an ill-formed run. -/
theorem eq_encodeChar_of_scan {bs : Bytes} {c : Char} {tail : List Symbol}
    (h : scan none bs = .char c :: tail) :
    ∃ rest, bs = String.utf8EncodeChar c ++ rest ∧ scan none rest = tail := by
  obtain ⟨a, bs, rfl⟩ : ∃ a rest, bs = a :: rest := by
    cases bs with
    | nil => simp [scan] at h
    | cons a rest => exact ⟨a, rest, rfl⟩
  have hread := h
  by_cases h₁ : a.toNat < 0x80
  · rw [scan_none_cons, start_one h₁] at h
    obtain ⟨hc, rfl⟩ := List.cons.inj h
    have hn := toNat_ofNat (n := a.toNat) (.inl (by omega))
    rw [← Symbol.char.inj hc, encodeChar_eq, if_pos (by omega), ofNat_eq hn]
    exact ⟨bs, rfl, rfl⟩
  by_cases h₂ : a.toNat < 0xc2 ∨ 0xf5 ≤ a.toNat
  · rw [scan_none_cons, start_malformed (by omega)] at h
    simp at h
  by_cases h₃ : a.toNat < 0xe0
  · rw [scan_none_cons, start_two (by omega) h₃] at hread
    obtain ⟨b, rest, rfl, hb⟩ := exists_tail_of_scan rfl rfl hread
    rw [scan_two (by omega) h₃ hb] at h
    obtain ⟨hc, rfl⟩ := List.cons.inj h
    rw [← Symbol.char.inj hc, encodeChar_of_two (by omega) h₃ hb]
    exact ⟨rest, rfl, rfl⟩
  by_cases h₄ : a.toNat < 0xf0
  · rw [scan_none_cons, start_three (by omega) h₄, List.nil_append] at hread
    obtain ⟨b, bs, rfl, hb⟩ := exists_cons_of_scan_some hread
    rw [scan_inner rfl hb.1 hb.2] at hread
    obtain ⟨d, rest, rfl, hd⟩ := exists_tail_of_scan rfl rfl hread
    have hb := (second_of_three (by omega) h₄).mpr hb
    rw [scan_three (by omega) h₄ hb hd] at h
    obtain ⟨hc, rfl⟩ := List.cons.inj h
    rw [← Symbol.char.inj hc, encodeChar_of_three (by omega) h₄ hb hd]
    exact ⟨rest, rfl, rfl⟩
  · rw [scan_none_cons, start_four (by omega) (by omega), List.nil_append] at hread
    obtain ⟨b, bs, rfl, hb⟩ := exists_cons_of_scan_some hread
    rw [scan_inner rfl hb.1 hb.2] at hread
    obtain ⟨d, bs, rfl, hd⟩ := exists_cons_of_scan_some hread
    rw [scan_inner rfl hd.1 hd.2] at hread
    obtain ⟨e, rest, rfl, he⟩ := exists_tail_of_scan rfl rfl hread
    have hb := (second_of_four (by omega)).mpr hb
    have hd := isTail_iff.mpr hd
    rw [scan_four (by omega) (by omega) hb hd he] at h
    obtain ⟨hc, rfl⟩ := List.cons.inj h
    rw [← Symbol.char.inj hc, encodeChar_of_four (by omega) (by omega) hb hd he]
    exact ⟨rest, rfl, rfl⟩

/-- No byte of a character that is not ASCII is the byte of one that is. -/
theorem le_of_mem_encodeChar {c : Char} (hc : 0x7f < c.toNat) :
    ∀ b ∈ String.utf8EncodeChar c, 0x80 ≤ b.toNat := by
  have hlt := toNat_lt c
  have hhigh : ∀ n, 0x80 ≤ n → n < 0x100 → 0x80 ≤ (UInt8.ofNat n).toNat := by
    intro n hlow hn
    rwa [UInt8.toNat_ofNat_of_lt' hn]
  rw [encodeChar_eq, if_neg (by omega)]
  split
  · simp only [List.forall_mem_cons]
    exact ⟨hhigh _ (by omega) (by omega), hhigh _ (by omega) (by omega), nofun⟩
  · split
    · simp only [List.forall_mem_cons]
      exact ⟨hhigh _ (by omega) (by omega), hhigh _ (by omega) (by omega),
        hhigh _ (by omega) (by omega), nofun⟩
    · simp only [List.forall_mem_cons]
      exact ⟨hhigh _ (by omega) (by omega), hhigh _ (by omega) (by omega),
        hhigh _ (by omega) (by omega), hhigh _ (by omega) (by omega), nofun⟩

theorem ascii_mem_encodeChar_iff {c d : Char} (hc : c.toNat ≤ 0x7f) :
    UInt8.ofNat c.toNat ∈ String.utf8EncodeChar d ↔ d = c := by
  have hbyte : (UInt8.ofNat c.toNat).toNat = c.toNat := by
    rw [UInt8.toNat_ofNat_of_lt' (show c.toNat < 0x100 by omega)]
  constructor
  · intro h
    by_cases hd : d.toNat ≤ 0x7f
    · rw [encodeChar_eq, if_pos hd, List.mem_singleton] at h
      have hsame := congrArg UInt8.toNat h
      rw [hbyte, UInt8.toNat_ofNat_of_lt' (show d.toNat < 0x100 by omega)] at hsame
      exact Char.toNat_inj.mp hsame.symm
    · have hhigh := le_of_mem_encodeChar (by omega) _ h
      omega
  · rintro rfl
    rw [encodeChar_eq, if_pos hc]
    exact List.mem_singleton_self _

end Characters

section Texts

theorem scan_some_ne_nil (p : Pending) (bs : Bytes) : scan (some p) bs ≠ [] := by
  induction bs generalizing p with
  | nil => simp [scan]
  | cons b rest ih =>
      by_cases hb : p.low ≤ b ∧ b ≤ p.high
      · cases hmore : p.more with
        | zero => simp [scan_some_cons, step_last hmore hb.1 hb.2]
        | succ more =>
            rw [scan_inner hmore hb.1 hb.2]
            exact ih _
      · simp [scan_some_cons, Pending.step, hb]

theorem scan_none_cons_ne_nil (b : UInt8) (rest : Bytes) : scan none (b :: rest) ≠ [] := by
  rw [scan_none_cons, start]
  repeat' split
  all_goals simp [scan_some_ne_nil]

theorem symbols_encode_append (s : String) (bs : Bytes) :
    symbols (encode s ++ bs) = s.toList.map .char ++ symbols bs := by
  simp only [symbols, encode]
  induction s.toList with
  | nil => rfl
  | cons c cs ih =>
      rw [List.flatMap_cons, List.append_assoc, scan_encodeChar, ih]
      rfl

theorem symbols_encode (s : String) : symbols (encode s) = s.toList.map .char := by
  simpa [symbols, scan] using symbols_encode_append s []

theorem eq_encode_of_symbols {bs : Bytes} {cs : List Char} (h : symbols bs = cs.map .char) :
    bs = encode (String.ofList cs) := by
  simp only [symbols, encode, String.toList_ofList] at h ⊢
  induction cs generalizing bs with
  | nil =>
      cases bs with
      | nil => rfl
      | cons b rest => exact absurd h (scan_none_cons_ne_nil b rest)
  | cons c cs ih =>
      obtain ⟨rest, rfl, hrest⟩ := eq_encodeChar_of_scan h
      rw [List.flatMap_cons, ih hrest]

theorem collect_map_char (index : Nat) (cs : List Char) :
    collect index (cs.map .char) = .ok cs := by
  induction cs generalizing index with
  | nil => rfl
  | cons c cs ih => simp [collect, ih]

theorem eq_map_char_of_collect {index : Nat} {all : List Symbol} {cs : List Char}
    (h : collect index all = .ok cs) : all = cs.map .char := by
  induction all generalizing index cs with
  | nil =>
      cases h
      rfl
  | cons first rest ih =>
      cases first with
      | char c =>
          simp only [collect] at h
          split at h
          · next cs' hcs =>
            cases h
            rw [List.map_cons, ih hcs]
          · cases h
      | malformed n => cases h
      | unfinished n => cases h

/-- Strict decoding accepts exactly the UTF-8 of texts. -/
theorem decode_eq_ok_iff {bs : Bytes} {s : String} : decode bs = .ok s ↔ encode s = bs := by
  constructor
  · intro h
    simp only [decode] at h
    split at h
    · next cs hcs =>
      cases h
      exact (eq_encode_of_symbols (eq_map_char_of_collect hcs)).symm
    · cases h
  · rintro rfl
    simp only [decode, symbols_encode, collect_map_char, String.ofList_toList]

theorem decodeLossy_encode_append (s : String) (bs : Bytes) :
    decodeLossy (encode s ++ bs) = s.toList ++ decodeLossy bs := by
  have hshown : Symbol.shown ∘ Symbol.char = id := rfl
  simp [decodeLossy, symbols_encode_append, hshown]

@[simp] theorem decodeLossy_encode (s : String) : decodeLossy (encode s) = s.toList := by
  simpa [decodeLossy, symbols, scan] using decodeLossy_encode_append s []

@[simp] theorem text_encode (s : String) : text (encode s) = s := by
  rw [text, decodeLossy_encode, String.ofList_toList]

/-- Nothing was replaced where no replacement character shows. -/
theorem encode_of_decodeLossy {bs : Bytes} {s : String} (h : decodeLossy bs = s.toList)
    (hs : '\ufffd' ∉ s.toList) : encode s = bs := by
  have hchars : symbols bs = s.toList.map .char := by
    rw [← h, decodeLossy, List.map_map]
    refine (List.map_id (symbols bs)).symm.trans (List.map_congr_left fun symbol hsymbol => ?_)
    have hshown : symbol.shown ≠ '\ufffd' := fun e =>
      hs (h ▸ List.mem_map.mpr ⟨symbol, hsymbol, e⟩)
    cases symbol with
    | char c => rfl
    | malformed n => exact absurd rfl hshown
    | unfinished n => exact absurd rfl hshown
  rw [eq_encode_of_symbols hchars, String.ofList_toList]

theorem encode_text {bs : Bytes} (h : Valid bs) : encode (text bs) = bs := by
  obtain ⟨s, rfl⟩ := h
  rw [text_encode]

theorem encode_injective : Function.Injective encode := fun s t h => by
  rw [← text_encode s, h, text_encode]

/-- The UTF-8 of an ASCII text is one byte for each character. -/
theorem encode_ofList_ascii {cs : List Char} (h : ∀ c ∈ cs, c.toNat ≤ 0x7f) :
    encode (String.ofList cs) = Bytes.ascii cs := by
  simp only [encode, String.toList_ofList, Bytes.ascii]
  induction cs with
  | nil => rfl
  | cons c cs ih =>
      have hc : String.utf8EncodeChar c = [c.toNat.toUInt8] := by
        rw [encodeChar_eq, if_pos (h c List.mem_cons_self)]
      rw [List.flatMap_cons, hc, ih fun d hd => h d (List.mem_cons_of_mem c hd)]
      rfl

theorem ascii_mem_encode_iff {c : Char} {s : String} (hc : c.toNat ≤ 0x7f) :
    UInt8.ofNat c.toNat ∈ encode s ↔ c ∈ s.toList := by
  simp only [encode, List.mem_flatMap, ascii_mem_encodeChar_iff hc, exists_eq_right]

/-- The UTF-8 of a text starts with that of its start. -/
theorem encode_isPrefix {s t : String} (h : s.toList <+: t.toList) : encode s <+: encode t := by
  obtain ⟨cs, hcs⟩ := h
  rw [encode, encode, ← hcs, List.flatMap_append]
  exact List.prefix_append _ _

end Texts

end FixClient.Utf8
