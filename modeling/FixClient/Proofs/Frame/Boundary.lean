import FixClient.Frame.Reader
import FixClient.Proofs.Frame.Canonical
import FixClient.Proofs.Frame.Layout

/-!
# Where a frame ends

The length of a frame can be found in two ways: from the length that it declares and the fixed
size of a trailer, or by reading fields up to the first checksum. The first way takes the three
tags of the frame by their letters. Where they are spelled as the writer spells them, the two ways
end at the same byte, since the reader accepts no other declared length; where one of them is
padded, they do not.
-/

namespace FixClient

namespace Frame

theorem afterLiteral?_eq_some_iff {literal : List Char} {input rest : Bytes} :
    afterLiteral? literal input = some rest ↔ input = Bytes.ascii literal ++ rest := by
  unfold afterLiteral?
  constructor
  · intro h
    split at h
    · next hstart =>
      obtain ⟨left, rfl⟩ := List.isPrefixOf_iff_prefix.mp hstart
      rw [← Bytes.length_ascii literal, List.drop_left] at h
      rw [Option.some.inj h]
    · cases h
  · rintro rfl
    have hstart : (Bytes.ascii literal).isPrefixOf (Bytes.ascii literal ++ rest) = true :=
      List.isPrefixOf_iff_prefix.mpr (List.prefix_append _ _)
    rw [if_pos hstart, ← Bytes.length_ascii literal, List.drop_left]

/-- BeginString and BodyLength as the writer spells their tags. -/
def heading (beginString bodyLength : Bytes) : Bytes :=
  WireField.write .beginString beginString ++ WireField.write .bodyLength bodyLength

theorem heading_append (v ds rest : Bytes) : heading v ds ++ rest =
    Bytes.ascii ['8', '='] ++ (v ++ Bytes.soh :: (Bytes.ascii ['9', '='] ++
      (ds ++ Bytes.soh :: rest))) := by
  rw [heading, write_beginString, write_bodyLength]
  simp only [List.append_assoc, List.cons_append, List.nil_append]

variable {b v ds rest : Bytes} {n k : Nat}

theorem length?_heading_append (hv : Bytes.soh ∉ v) (hsize : WireField.IsSize ds k)
    (rest : Bytes) : length? (heading v ds ++ rest) =
      if k + trailerSize ≤ rest.length then some ((heading v ds).length + (k + trailerSize))
      else none := by
  have hlen : (heading v ds ++ rest).length = (heading v ds).length + rest.length :=
    List.length_append
  obtain ⟨text, hdecode, hk⟩ := WireField.isSize_iff.mp hsize
  rw [length?, heading_append, afterLiteral?_eq_some_iff.mpr rfl, ← heading_append]
  simp only [Option.bind_eq_bind, Option.bind_some, Bytes.cut?_append hv,
    afterLiteral?_eq_some_iff.mpr rfl, Bytes.cut?_append hsize.soh_notMem, hdecode,
    Except.toOption, hk, hlen, Nat.add_sub_cancel, Nat.add_assoc, Nat.add_le_add_iff_left]

theorem exists_of_length? (h : length? b = some n) :
    ∃ v ds rest k, b = heading v ds ++ rest ∧ Bytes.soh ∉ v ∧ WireField.IsSize ds k := by
  simp only [length?, Option.bind_eq_bind, Option.bind_eq_some_iff, Prod.exists] at h
  obtain ⟨_, hafter, v, _, hcut, _, hafter', ds, rest, hcut', text, htext, k, hk, -⟩ := h
  rw [afterLiteral?_eq_some_iff] at hafter hafter'
  obtain ⟨rfl, hv⟩ := Bytes.cut?_eq_some_iff.mp hcut
  subst hafter'
  obtain ⟨rfl, -⟩ := Bytes.cut?_eq_some_iff.mp hcut'
  rw [← heading_append] at hafter
  refine ⟨v, ds, rest, k, hafter, hv, WireField.isSize_iff.mpr ⟨text, ?_, hk⟩⟩
  cases hdecode : Utf8.decode ds with
  | error fault => simp [hdecode, Except.toOption] at htext
  | ok s => simpa [hdecode, Except.toOption] using htext

/-- A frame is located by a heading in front of the bytes that it declares and a trailer. -/
theorem length?_eq_some_iff : length? b = some n ↔
    ∃ v ds rest k, b = heading v ds ++ rest ∧ Bytes.soh ∉ v ∧ WireField.IsSize ds k ∧
      k + trailerSize ≤ rest.length ∧ n = (heading v ds).length + (k + trailerSize) := by
  constructor
  · intro h
    obtain ⟨v, ds, rest, k, rfl, hv, hsize⟩ := exists_of_length? h
    rw [length?_heading_append hv hsize] at h
    split at h
    · next hroom => exact ⟨v, ds, rest, k, rfl, hv, hsize, hroom, (Option.some.inj h).symm⟩
    · cases h
  · rintro ⟨v, ds, rest, k, rfl, hv, hsize, hroom, rfl⟩
    rw [length?_heading_append hv hsize, if_pos hroom]

end Frame

namespace Segment

variable {s : Segment}

theorem head?_digits_iff (h : s.tag ≠ 0) :
    s.digits.head? ≠ some '0' ↔ s.digits = s.tag.text := by
  constructor
  · exact digits_eq_text
  · intro hdigits
    rw [hdigits]
    exact Tag.head?_text h

/-- A tag is as long as the writer makes it only if it is spelled so. -/
theorem digits_eq_text_iff : s.digits = s.tag.text ↔ s.digits.length = s.tag.text.length := by
  constructor
  · exact congrArg List.length
  · intro hlen
    refine Numeral.eq_of_value_eq s.isNumeral.2 s.tag.isNumeral_text.2 hlen ?_
    rw [Tag.value_text, toNat_tag]

end Segment

namespace WireFrame

variable {p : WireFrame} {v ds rest left : Bytes} {n : Nat}

theorem Sealed.length_checkSum_iff (h : p.Sealed) :
    p.checkSum.bytes.length = Frame.trailerSize ↔ p.checkSum.digits.head? ≠ some '0' := by
  obtain ⟨cs, hcs, hlen, -⟩ := h.checkSum_value
  have htext : p.checkSum.tag.text.length = 2 := by
    rw [h.checkSum_tag]
    decide
  rw [Segment.head?_digits_iff (h.checkSum_tag ▸ by decide), Segment.digits_eq_text_iff, htext,
    Segment.bytes, hcs]
  simp only [List.length_append, List.length_cons, List.length_nil, Bytes.length_ascii, hlen,
    Frame.trailerSize]
  omega

/-- What the checksum covers begins with a heading if the writer spells its first two tags so. -/
theorem Declares.coveredBytes_eq (h : p.Declares n)
    (hbegin : p.beginString.digits.head? ≠ some '0')
    (hlength : p.bodyLength.digits.head? ≠ some '0') : p.coveredBytes =
      Frame.heading p.beginString.value p.bodyLength.value ++ p.countedBytes := by
  have hsplit := p.coveredBytes_append []
  rw [List.append_nil, List.append_nil] at hsplit
  rw [hsplit, Segment.bytes_eq_write (Segment.digits_eq_text hbegin),
    Segment.bytes_eq_write (Segment.digits_eq_text hlength), h.beginString_tag, h.bodyLength_tag,
    Frame.heading, List.append_assoc]

theorem head?_digits_of_heading (hv : Bytes.soh ∉ v) (hds : Bytes.soh ∉ ds)
    (h : p.bytes ++ rest = Frame.heading v ds ++ left) :
    p.beginString.digits.head? ≠ some '0' ∧ p.bodyLength.digits.head? ≠ some '0' := by
  have hsplit : Frame.heading v ds ++ left = (Segment.ofWire .beginString v hv).bytes ++
      ((Segment.ofWire .bodyLength ds hds).bytes ++ left) := List.append_assoc _ _ _
  rw [bytes_append, hsplit] at h
  obtain ⟨hbegin, h⟩ := Segment.bytes_append_inj h
  obtain ⟨hlength, -⟩ := Segment.bytes_append_inj h
  rw [hbegin, hlength]
  exact ⟨Tag.head?_text (t := .beginString) (by decide),
    Tag.head?_text (t := .bodyLength) (by decide)⟩

/-- The declared length leads from the heading to the checksum. -/
theorem Sealed.length?_bytes_append (h : p.Sealed)
    (hbegin : p.beginString.digits.head? ≠ some '0')
    (hlength : p.bodyLength.digits.head? ≠ some '0') (rest : Bytes) :
    Frame.length? (p.bytes ++ rest) = some (p.coveredBytes.length + Frame.trailerSize) := by
  have hroom : p.countedBytes.length + Frame.trailerSize ≤
      (p.countedBytes ++ (p.checkSum.bytes ++ rest)).length := by
    have htrailer := h.trailerSize_le
    simp only [List.length_append]
    omega
  rw [bytes_eq, h.toDeclares.coveredBytes_eq hbegin hlength, List.append_assoc, List.append_assoc,
    Frame.length?_heading_append p.beginString.soh_notMem h.bodyLength_value, if_pos hroom,
    List.length_append, Nat.add_assoc]

end WireFrame

namespace Frame

open WireFrame

/-- Of an accepted frame the two ways find the same end exactly if no tag of BeginString,
BodyLength and CheckSum is padded with zeros. -/
theorem length?_eq_iff_of_decode {b rest : Bytes} {m : Message}
    (h : decode true b = (.ok m, rest)) :
    ∃ p : WireFrame, (p.Sealed ∧ b = p.bytes ++ rest ∧
      ∀ q : WireFrame, b = q.bytes ++ rest → q = p) ∧
        (length? b = some (b.length - rest.length) ↔
          p.beginString.digits.head? ≠ some '0' ∧ p.bodyLength.digits.head? ≠ some '0' ∧
            p.checkSum.digits.head? ≠ some '0') := by
  obtain ⟨p, -, hp, rfl, -⟩ := exists_of_decode h
  have hp := hp rfl
  refine ⟨p, ⟨hp, rfl, ?_⟩, ?_⟩
  · intro q hq
    exact eq_of_bytes_eq (List.append_cancel_right hq).symm
  rw [List.length_append, Nat.add_sub_cancel, ← hp.length_checkSum_iff]
  constructor
  · intro hlength
    obtain ⟨v, ds, left, k, hsame, hv, hsize, -⟩ := length?_eq_some_iff.mp hlength
    obtain ⟨hbegin, hdigits⟩ := head?_digits_of_heading hv hsize.soh_notMem hsame
    rw [hp.length?_bytes_append hbegin hdigits, p.bytes_eq, List.length_append,
      Option.some.injEq, Nat.add_left_cancel_iff] at hlength
    exact ⟨hbegin, hdigits, hlength.symm⟩
  · rintro ⟨hbegin, hdigits, htrailer⟩
    rw [hp.length?_bytes_append hbegin hdigits, p.bytes_eq, List.length_append, htrailer]

/-- A signed length and padded tags elsewhere do not move the end. A padded checksum does. -/
theorem length?_eq_iff_of_decode_spelling :
    length? (Utf8.encode "8=FIX.4.4\x019=+20\x01035=0\x0109=+1\x0158==10=\x0110=180\x018=F") =
        some 43 ∧
      length? (Utf8.encode "8=FIXT\x019=6\x01035=A\x01010=117\x01") ≠ some 25 := by
  have hspelled : decode true (Utf8.encode
      "8=FIX.4.4\x019=+20\x01035=0\x0109=+1\x0158==10=\x0110=180\x018=F") =
      (.ok ⟨[⟨.beginString, .text "FIX.4.4"⟩, ⟨.msgType, .text "0"⟩, ⟨.bodyLength, .text "+1"⟩,
        ⟨58, .text "=10="⟩]⟩, Utf8.encode "8=F") := by
    with_unfolding_all rfl
  have hpadded : decode true (Utf8.encode "8=FIXT\x019=6\x01035=A\x01010=117\x01") =
      (.ok ⟨[⟨.beginString, .text "FIXT"⟩, ⟨.msgType, .text "A"⟩]⟩, []) := by
    with_unfolding_all rfl
  obtain ⟨p, ⟨-, -, hp⟩, hiff⟩ := length?_eq_iff_of_decode hspelled
  obtain ⟨q, ⟨-, -, hq⟩, hiff'⟩ := length?_eq_iff_of_decode hpadded
  obtain rfl := hp ⟨.ofWire .beginString (Utf8.encode "FIX.4.4") (by decide +kernel),
    .ofWire .bodyLength (Utf8.encode "+20") (by decide +kernel),
    ⟨['0', '3', '5'], Utf8.encode "0", ⟨by decide, List.all_eq_true.mp rfl⟩, by decide, by decide,
      by decide +kernel⟩,
    [⟨['0', '9'], Utf8.encode "+1", ⟨by decide, List.all_eq_true.mp rfl⟩, by decide, by decide,
      by decide +kernel⟩, .ofWire 58 (Utf8.encode "=10=") (by decide +kernel)],
    .ofWire .checkSum (Utf8.encode "180") (by decide +kernel)⟩ (by decide +kernel)
  obtain rfl := hq ⟨.ofWire .beginString (Utf8.encode "FIXT") (by decide +kernel),
    .ofWire .bodyLength (Utf8.encode "6") (by decide +kernel),
    ⟨['0', '3', '5'], Utf8.encode "A", ⟨by decide, List.all_eq_true.mp rfl⟩, by decide, by decide,
      by decide +kernel⟩, [],
    ⟨['0', '1', '0'], Utf8.encode "117", ⟨by decide, List.all_eq_true.mp rfl⟩, by decide, by decide,
      by decide +kernel⟩⟩ (by decide +kernel)
  refine ⟨hiff.mpr (by decide +kernel), ?_⟩
  exact fun hsame => absurd (hiff'.mp hsame) (by decide +kernel)

end Frame

end FixClient
