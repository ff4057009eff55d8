import FixClient.Frame.Field
import FixClient.Proofs.Text.Numeral
import Mathlib.Algebra.Ring.Nat

/-!
# Segments

A segment is a field as it stands in a frame: the digits of a tag, an equals sign, a
value and a separator. The reader of fields accepts exactly the segments, and a row of
segments can be read in one way only. Tags, lengths and checksums are read from exactly
the numerals of their kind.
-/

namespace FixClient

/-- The first separator splits in one way. -/
theorem Bytes.append_sep_inj {sep : UInt8} {l l' r r' : Bytes} (hl : sep ∉ l) (hl' : sep ∉ l')
    (h : l ++ sep :: r = l' ++ sep :: r') : l = l' ∧ r = r' := by
  have hcut := Bytes.cut?_append hl r
  rw [h, Bytes.cut?_append hl', Option.some.injEq, Prod.mk.injEq] at hcut
  exact ⟨hcut.1.symm, hcut.2.symm⟩

namespace Tag

theorem toNat_lt (t : Tag) : t.number.toNat < 2 ^ 32 := t.number.toNat_lt

theorem eq_of_toNat_eq {s t : Tag} (h : s.number.toNat = t.number.toNat) : s = t := by
  cases s
  cases t
  exact congrArg Tag.mk (UInt32.toNat_inj.mp h)

theorem ofBytes?_eq (bs : Bytes) : ofBytes? bs =
    if bs.length ≤ maxDigits then
      ((Numeral.natural? (Bytes.chars bs)).filter (· < 2 ^ 32)).map fun n => ⟨n.toUInt32⟩
    else none := rfl

/-- A tag is read from one to ten digits with a value below 2^32. -/
theorem ofBytes?_eq_some_iff {bs : Bytes} {t : Tag} :
    ofBytes? bs = some t ↔ ∃ cs, bs = Bytes.ascii cs ∧ Numeral.IsNumeral cs ∧
      cs.length ≤ maxDigits ∧ Numeral.value cs = t.number.toNat := by
  rw [ofBytes?_eq]
  constructor
  · intro h
    split at h
    · next hlen =>
      obtain ⟨n, hn, rfl⟩ := Option.map_eq_some_iff.mp h
      obtain ⟨hn, hlt⟩ := Option.filter_eq_some_iff.mp hn
      obtain ⟨cs, rfl, hcs, rfl⟩ := Numeral.natural?_chars_eq_some_iff.mp hn
      refine ⟨cs, rfl, hcs, by simpa using hlen, ?_⟩
      exact (Nat.mod_eq_of_lt (by simpa using hlt)).symm
    · cases h
  · rintro ⟨cs, rfl, hcs, hlen, hvalue⟩
    have hread := Numeral.natural?_chars_eq_some_iff.mpr ⟨cs, rfl, hcs, hvalue⟩
    have hlt : decide (t.number.toNat < 2 ^ 32) = true := decide_eq_true t.toNat_lt
    rw [if_pos (by simpa using hlen), hread, Option.filter_some, if_pos hlt, Option.map_some]
    exact congrArg some (eq_of_toNat_eq (by simp))

theorem isNumeral_text (t : Tag) : Numeral.IsNumeral t.text := Numeral.isNumeral_digits _

theorem length_text_le (t : Tag) : t.text.length ≤ maxDigits :=
  Numeral.length_digits_le (by decide) (Nat.lt_trans t.toNat_lt (by decide))

theorem value_text (t : Tag) : Numeral.value t.text = t.number.toNat := Numeral.value_digits _

theorem head?_text {t : Tag} (h : t ≠ 0) : t.text.head? ≠ some '0' :=
  Numeral.head?_digits (Nat.pos_of_ne_zero fun hzero => h (eq_of_toNat_eq hzero))

end Tag

namespace CheckSum

theorem ofText?_eq (bs : Bytes) : ofText? bs =
    if bs.length = 3 then
      ((Numeral.natural? (Bytes.chars bs)).filter (· < 256)).map fun n => n.toUInt8
    else none := rfl

theorem isNumeral_fixed (n : Nat) : Numeral.IsNumeral (Numeral.fixed 3 n) :=
  ⟨by simp [Numeral.fixed], fun _ hc => Numeral.isDigit_of_mem_fixed hc⟩

theorem value_fixed (sum : UInt8) : Numeral.value (Numeral.fixed 3 sum.toNat) = sum.toNat := by
  rw [Numeral.value_fixed, Nat.mod_eq_of_lt (Nat.lt_trans sum.toNat_lt (by decide))]

/-- Three digits are the only text of a checksum. -/
theorem text_eq_iff {cs : List Char} {sum : UInt8} (h : ∀ c ∈ cs, c.isDigit = true) :
    Bytes.ascii cs = text sum ↔ cs.length = 3 ∧ Numeral.value cs = sum.toNat := by
  have hfixed := (isNumeral_fixed sum.toNat).2
  constructor
  · intro hcs
    rw [Numeral.ascii_inj h hfixed hcs]
    exact ⟨Numeral.length_fixed 3 _, value_fixed sum⟩
  · rintro ⟨hlen, hvalue⟩
    have hlen' : cs.length = (Numeral.fixed 3 sum.toNat).length := by rw [hlen, Numeral.length_fixed]
    rw [text, Numeral.eq_of_value_eq h hfixed hlen' (hvalue.trans (value_fixed sum).symm)]

theorem ofText?_eq_some_iff {bs : Bytes} {sum : UInt8} : ofText? bs = some sum ↔ bs = text sum := by
  rw [ofText?_eq]
  constructor
  · intro h
    split at h
    · next hlen =>
      obtain ⟨n, hn, rfl⟩ := Option.map_eq_some_iff.mp h
      obtain ⟨hn, hlt⟩ := Option.filter_eq_some_iff.mp hn
      obtain ⟨cs, rfl, hcs, rfl⟩ := Numeral.natural?_chars_eq_some_iff.mp hn
      refine (text_eq_iff hcs.2).mpr ⟨by simpa using hlen, ?_⟩
      exact (Nat.mod_eq_of_lt (by simpa using hlt)).symm
    · cases h
  · rintro rfl
    have hread := Numeral.natural?_chars_eq_some_iff.mpr
      ⟨_, rfl, isNumeral_fixed sum.toNat, value_fixed sum⟩
    have hlt : decide (sum.toNat < 256) = true := decide_eq_true sum.toNat_lt
    rw [if_pos (length_text sum), text, hread, Option.filter_some, if_pos hlt, Option.map_some]
    simp

theorem text_injective : Function.Injective text := fun s t h => by
  have hs := ofText?_eq_some_iff.mpr (rfl : text s = text s)
  rw [h, ofText?_eq_some_iff.mpr rfl, Option.some.injEq] at hs
  exact hs.symm

theorem foldl_add (bs : Bytes) (start : UInt8) :
    bs.foldl (· + ·) start = start + bs.foldl (· + ·) 0 := by
  induction bs generalizing start with
  | nil => simp
  | cons b bs ih =>
      simp only [List.foldl_cons]
      rw [ih (start + b), ih (0 + b), UInt8.zero_add, UInt8.add_assoc]

theorem ofBytes_cons (b : UInt8) (bs : Bytes) : ofBytes (b :: bs) = b + ofBytes bs := by
  rw [ofBytes, List.foldl_cons, foldl_add, UInt8.zero_add, ofBytes]

theorem toNat_ofBytes (bs : Bytes) : (ofBytes bs).toNat = (bs.map UInt8.toNat).sum % 256 := by
  induction bs with
  | nil => rfl
  | cons b bs ih => simp [ofBytes_cons, ih]

end CheckSum

namespace WireField

/-- A number of bytes as written: a numeral of value `n`, perhaps behind a plus sign. -/
def IsSize (bs : Bytes) (n : Nat) : Prop :=
  ∃ cs, bs = Bytes.ascii cs ∧ Numeral.IsSigned cs n ∧ n < 2 ^ 64

theorem IsSize.equals_notMem {bs : Bytes} {n : Nat} (h : IsSize bs n) : Bytes.equals ∉ bs := by
  obtain ⟨cs, rfl, hcs, -⟩ := h
  refine Bytes.notMem_ascii fun c hc => ⟨Nat.lt_of_le_of_lt (hcs.toNat_le c hc) (by decide), ?_⟩
  exact Nat.ne_of_lt (Nat.lt_of_le_of_lt (hcs.toNat_le c hc) (by decide))

theorem IsSize.soh_notMem {bs : Bytes} {n : Nat} (h : IsSize bs n) : Bytes.soh ∉ bs := by
  obtain ⟨cs, rfl, hcs, -⟩ := h
  refine Bytes.notMem_ascii fun c hc => ⟨Nat.lt_of_le_of_lt (hcs.toNat_le c hc) (by decide), ?_⟩
  exact Nat.ne_of_gt (Nat.lt_of_lt_of_le (by decide) (hcs.le_toNat c hc))

theorem IsSize.unique {bs : Bytes} {n k : Nat} (hn : IsSize bs n) (hk : IsSize bs k) : n = k := by
  obtain ⟨cs, rfl, hcs, hlt⟩ := hn
  obtain ⟨ds, hds, hds', hlt'⟩ := hk
  have hchars := hcs.ascii_inj hds' hds
  have hread := Numeral.unsigned?_eq_some_iff.mpr ⟨hcs, hlt⟩
  rw [hchars, Numeral.unsigned?_eq_some_iff.mpr ⟨hds', hlt'⟩] at hread
  exact (Option.some.inj hread).symm

theorem isSize_digits {n : Nat} (h : n < 2 ^ 64) : IsSize (Bytes.ascii (Numeral.digits n)) n :=
  ⟨_, rfl, ⟨_, .inl rfl, Numeral.isNumeral_digits n, Numeral.value_digits n⟩, h⟩

theorem IsSize.eq_digits {ds : List Char} {n : Nat} (h : IsSize (Bytes.ascii ds) n)
    (hnum : Numeral.IsNumeral ds) (hhead : ds.head? ≠ some '0') : ds = Numeral.digits n := by
  obtain ⟨cs, hcs, hsigned, -⟩ := h
  have hds : Numeral.IsSigned ds (Numeral.value ds) := ⟨ds, .inl rfl, hnum, rfl⟩
  obtain rfl := hds.ascii_inj hsigned hcs
  obtain ⟨es, rfl | rfl, -, rfl⟩ := hsigned
  · exact (Numeral.digits_value hnum hhead).symm
  · exact absurd (hnum.2 '+' List.mem_cons_self) (by decide)

theorem text_eq_ok_iff {f : WireField} {s : String} : f.text = .ok s ↔ Utf8.encode s = f.bytes := by
  rw [← Utf8.decode_eq_ok_iff, text]
  cases Utf8.decode f.bytes <;> simp

/-- A size is what is read from a text as a size. -/
theorem isSize_iff {bs : Bytes} {n : Nat} :
    IsSize bs n ↔ ∃ s, Utf8.decode bs = .ok s ∧ Numeral.size? s = some n := by
  constructor
  · rintro ⟨cs, rfl, hsigned, hlt⟩
    have hascii := Utf8.encode_ofList_ascii fun c hc =>
      Nat.le_trans (hsigned.toNat_le c hc) (by decide)
    refine ⟨String.ofList cs, Utf8.decode_eq_ok_iff.mpr hascii, ?_⟩
    rw [Numeral.size?, String.toList_ofList]
    exact Numeral.unsigned?_eq_some_iff.mpr ⟨hsigned, hlt⟩
  · rintro ⟨s, hs, hsize⟩
    obtain ⟨hsigned, hlt⟩ := Numeral.unsigned?_eq_some_iff.mp hsize
    have hascii := Utf8.encode_ofList_ascii fun c hc =>
      Nat.le_trans (hsigned.toNat_le c hc) (by decide)
    rw [String.ofList_toList] at hascii
    exact ⟨s.toList, (Utf8.decode_eq_ok_iff.mp hs).symm.trans hascii, hsigned, hlt⟩

theorem size_eq_ok_iff {f : WireField} {n : Nat} : f.size = .ok n ↔ IsSize f.bytes n := by
  rw [isSize_iff, size, text]
  cases Utf8.decode f.bytes with
  | error fault => simp
  | ok s => cases hsize : Numeral.size? s <;> simp [hsize]

end WireField

/-- A field as it stands in a frame. -/
@[ext] structure Segment where
  digits : List Char
  value : Bytes
  isNumeral : Numeral.IsNumeral digits
  length_le : digits.length ≤ Tag.maxDigits
  value_lt : Numeral.value digits < 2 ^ 32
  soh_notMem : Bytes.soh ∉ value

namespace Segment

def bytes (s : Segment) : Bytes := Bytes.ascii s.digits ++ Bytes.equals :: s.value ++ [Bytes.soh]

def tag (s : Segment) : Tag := ⟨(Numeral.value s.digits).toUInt32⟩

def wire (s : Segment) : WireField := ⟨s.tag, s.value⟩

@[simp] theorem toNat_tag (s : Segment) : s.tag.number.toNat = Numeral.value s.digits :=
  Nat.mod_eq_of_lt s.value_lt

theorem bytes_append (s : Segment) (rest : Bytes) :
    s.bytes ++ rest = Bytes.ascii s.digits ++ Bytes.equals :: (s.value ++ Bytes.soh :: rest) := by
  simp [bytes]

theorem equals_notMem (s : Segment) : Bytes.equals ∉ Bytes.ascii s.digits :=
  Numeral.notMem_ascii s.isNumeral.2 (by decide)

theorem soh_notMem_digits (s : Segment) : Bytes.soh ∉ Bytes.ascii s.digits :=
  Numeral.notMem_ascii s.isNumeral.2 (by decide)

/-- No separator stands in a segment but the one that ends it. -/
theorem soh_notMem_front (s : Segment) :
    Bytes.soh ∉ Bytes.ascii s.digits ++ Bytes.equals :: s.value := by
  rw [List.mem_append, List.mem_cons]
  rintro (hmem | hmem | hmem)
  · exact s.soh_notMem_digits hmem
  · exact absurd hmem (by decide)
  · exact s.soh_notMem hmem

theorem bytes_append_soh (s : Segment) (rest : Bytes) :
    s.bytes ++ rest = (Bytes.ascii s.digits ++ Bytes.equals :: s.value) ++ Bytes.soh :: rest := by
  simp [bytes]

@[simp] theorem next?_bytes_append (s : Segment) (rest : Bytes) :
    WireField.next? (s.bytes ++ rest) = some (s.wire, rest) := by
  have htag : Tag.ofBytes? (Bytes.ascii s.digits) = some s.tag :=
    Tag.ofBytes?_eq_some_iff.mpr ⟨s.digits, rfl, s.isNumeral, s.length_le, s.toNat_tag.symm⟩
  rw [bytes_append, WireField.next?, Bytes.cut?_append s.equals_notMem]
  simp only [htag, Bytes.cut?_append s.soh_notMem]
  rfl

theorem exists_of_next? {input rest : Bytes} {f : WireField}
    (h : WireField.next? input = some (f, rest)) :
    ∃ s : Segment, s.wire = f ∧ input = s.bytes ++ rest := by
  unfold WireField.next? at h
  split at h
  · cases h
  · next tagText afterEquals hcut =>
    split at h
    · cases h
    · next tag htag =>
      split at h
      · cases h
      · next value rest' hcut' =>
        cases h
        obtain ⟨rfl, -⟩ := Bytes.cut?_eq_some_iff.mp hcut
        obtain ⟨rfl, hsoh⟩ := Bytes.cut?_eq_some_iff.mp hcut'
        obtain ⟨cs, rfl, hcs, hlen, hvalue⟩ := Tag.ofBytes?_eq_some_iff.mp htag
        have hlt : Numeral.value cs < 2 ^ 32 := hvalue ▸ tag.toNat_lt
        let s : Segment := ⟨cs, value, hcs, hlen, hlt, hsoh⟩
        have hs : s.tag = tag := Tag.eq_of_toNat_eq (s.toNat_tag.trans hvalue)
        exact ⟨s, by rw [wire, hs], (s.bytes_append rest).symm⟩

/-- What is read first does not depend on where it is thought to end. -/
theorem bytes_append_inj {s t : Segment} {r u : Bytes} (h : s.bytes ++ r = t.bytes ++ u) :
    s = t ∧ r = u := by
  have hs := s.next?_bytes_append r
  rw [h, next?_bytes_append, Option.some.injEq, Prod.mk.injEq] at hs
  obtain ⟨hwire, rfl⟩ := hs
  have hvalue : t.value = s.value := congrArg WireField.bytes hwire
  have hdigits : Bytes.ascii s.digits = Bytes.ascii t.digits := by
    have hbytes := List.append_cancel_right h
    simp only [bytes, hvalue] at hbytes
    exact List.append_cancel_right (List.append_cancel_right hbytes)
  exact ⟨Segment.ext (Numeral.ascii_inj s.isNumeral.2 t.isNumeral.2 hdigits) hvalue.symm, rfl⟩

theorem bytes_ne_nil (s : Segment) : s.bytes ≠ [] := by simp [bytes]

theorem flatMap_bytes_inj {l r : List Segment} (h : l.flatMap bytes = r.flatMap bytes) : l = r := by
  induction l generalizing r with
  | nil =>
      cases r with
      | nil => rfl
      | cons t r => simp [bytes_ne_nil] at h
  | cons s l ih =>
      cases r with
      | nil => simp [bytes_ne_nil] at h
      | cons t r =>
          rw [List.flatMap_cons, List.flatMap_cons] at h
          obtain ⟨rfl, hrest⟩ := bytes_append_inj h
          rw [ih hrest]

/-- The segment that is written for a tag and a value. -/
def ofWire (tag : Tag) (value : Bytes) (h : Bytes.soh ∉ value) : Segment :=
  ⟨tag.text, value, tag.isNumeral_text, tag.length_text_le, tag.value_text ▸ tag.toNat_lt, h⟩

@[simp] theorem tag_ofWire (tag : Tag) (value : Bytes) (h : Bytes.soh ∉ value) :
    (ofWire tag value h).tag = tag :=
  Tag.eq_of_toNat_eq ((toNat_tag _).trans tag.value_text)

theorem digits_ofWire (tag : Tag) (value : Bytes) (h : Bytes.soh ∉ value) :
    (ofWire tag value h).digits = (ofWire tag value h).tag.text :=
  congrArg Tag.text (tag_ofWire tag value h).symm

theorem bytes_ofWire (tag : Tag) (value : Bytes) (h : Bytes.soh ∉ value) :
    (ofWire tag value h).bytes = WireField.write tag value := rfl

/-- Without a leading zero the digits are those that are written for the tag. -/
theorem digits_eq_text {s : Segment} (h : s.digits.head? ≠ some '0') : s.digits = s.tag.text := by
  rw [Tag.text, toNat_tag, Numeral.digits_value s.isNumeral h]

theorem bytes_eq_write {s : Segment} (h : s.digits = s.tag.text) :
    s.bytes = WireField.write s.tag s.value := by
  rw [bytes, h, WireField.write]

end Segment

end FixClient
