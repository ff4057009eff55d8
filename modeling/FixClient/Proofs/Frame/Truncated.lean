import FixClient.Proofs.Frame.Header
import FixClient.Proofs.Frame.Stream

/-!
# Truncated frames

A frame that has not arrived as a whole can end in three places: inside BeginString, inside
BodyLength, or behind both. The reader asks for more data in the first case, where no field can be
read, and in the last one, where the declared length is not there yet. In between it takes the
field that has not ended for a field that is missing. The peek waits there.
-/

namespace FixClient

namespace WireField

theorem next?_of_notMem {input : Bytes} (h : Bytes.soh ∉ input) : next? input = none := by
  cases hread : next? input with
  | none => rfl
  | some parts =>
      have hcount := count_soh_of_next? hread
      rw [List.count_eq_zero_of_not_mem h] at hcount
      omega

end WireField

namespace Segment

variable {s : Segment} {front rest : Bytes}

theorem count_soh_bytes_append (s : Segment) (rest : Bytes) :
    (s.bytes ++ rest).count Bytes.soh = rest.count Bytes.soh + 1 :=
  WireField.count_soh_of_next? (s.next?_bytes_append rest)

/-- What begins like a segment ends inside it or goes on behind it. -/
theorem prefix_bytes_append (h : front <+: s.bytes ++ rest) :
    Bytes.soh ∉ front ∨ ∃ more, more <+: rest ∧ front = s.bytes ++ more := by
  rcases List.prefix_or_prefix_of_prefix h (List.prefix_append s.bytes rest) with hin | ⟨more, rfl⟩
  · rw [bytes, List.prefix_concat_iff] at hin
    rcases hin with rfl | hin
    · exact .inr ⟨[], List.nil_prefix, (List.append_nil _).symm⟩
    · exact .inl fun hsoh => s.soh_notMem_front (hin.mem hsoh)
  · exact .inr ⟨more, (List.prefix_append_right_inj s.bytes).mp h, rfl⟩

end Segment

namespace Frame

variable {front body more rest : Bytes} {s t : Segment} {n : Nat}

theorem decode_of_notMem (validate : Bool) (h : Bytes.soh ∉ front) :
    decode validate front = (.error .incomplete, front) := by
  simp only [decode, readHeader, WireField.next?_of_notMem h]

namespace Opens

theorem not_refused (h : Opens s t) :
    (s.wire.tag != .beginString || !s.wire.namesProtocol) = false := by
  have hname : s.wire.namesProtocol = true := List.isPrefixOf_iff_prefix.mpr h.beginString_value
  rw [hname, Segment.wire, h.beginString_tag]
  rfl

/-- A BodyLength that has not ended is taken for a missing one. -/
theorem decode_of_notMem (h : Opens s t) (validate : Bool) (hmore : Bytes.soh ∉ more) :
    decode validate (s.bytes ++ more) = (.error .missingBodyLength, more) := by
  simp only [decode, readHeader, s.next?_bytes_append, h.not_refused,
    WireField.next?_of_notMem hmore]
  rfl

theorem peek_notMem (h : Opens s t) (hmore : Bytes.soh ∉ more) :
    peekMsgType (s.bytes ++ more) = .ok none := by
  have hbegin := s.headerField_bytes_append .invalidBeginString more
  rw [h.beginString_tag] at hbegin
  have hname : s.wire.namesProtocol = true := List.isPrefixOf_iff_prefix.mpr h.beginString_value
  simp only [peekMsgType, hbegin, hname, headerField_eq_none_iff.mpr hmore]
  rfl

theorem decode_of_short (h : Opens s t) (hsize : WireField.IsSize t.value n) (validate : Bool)
    (hshort : body.length < n + trailerSize) :
    decode validate (s.bytes ++ (t.bytes ++ body)) = (.error .incomplete, body) := by
  have hlength : (t.wire.tag != .bodyLength) = false := by
    rw [Segment.wire, h.bodyLength_tag]
    rfl
  have hdeclared : t.wire.size = .ok n := WireField.size_eq_ok_iff.mpr hsize
  simp only [decode, readHeader, Segment.next?_bytes_append, h.not_refused, hlength, hdeclared,
    if_pos hshort]
  rfl

/-- The reader on the start of a frame, by the number of fields that have ended in it. -/
theorem decode_of_prefix (h : Opens s t) (hsize : WireField.IsSize t.value n)
    (hrest : rest.length = n + trailerSize) (hfront : front <+: s.bytes ++ (t.bytes ++ rest))
    (hlt : front.length < (s.bytes ++ (t.bytes ++ rest)).length) (validate : Bool) :
    (front.count Bytes.soh ≠ 1 → (decode validate front).1 = .error .incomplete) ∧
      (front.count Bytes.soh = 1 → (decode validate front).1 = .error .missingBodyLength ∧
        peekMsgType front = .ok none) := by
  rcases Segment.prefix_bytes_append hfront with hsoh | ⟨more, hmore, rfl⟩
  · rw [List.count_eq_zero_of_not_mem hsoh, Frame.decode_of_notMem validate hsoh]
    exact ⟨fun _ => rfl, fun hone => absurd hone (by decide)⟩
  rw [s.count_soh_bytes_append]
  rcases Segment.prefix_bytes_append hmore with hsoh | ⟨body, -, rfl⟩
  · rw [List.count_eq_zero_of_not_mem hsoh, h.decode_of_notMem validate hsoh]
    exact ⟨fun hone => absurd rfl hone, fun _ => ⟨rfl, h.peek_notMem hsoh⟩⟩
  · have hshort : body.length < n + trailerSize := by
      simp only [List.length_append] at hlt
      omega
    rw [t.count_soh_bytes_append, h.decode_of_short hsize validate hshort]
    exact ⟨fun _ => rfl, fun hone => absurd hone (by omega)⟩

end Opens

/-- A written frame that is cut off asks for more data, unless it is cut off between the separator
of BeginString and that of BodyLength. There BodyLength is reported as missing, while the peek
waits. -/
theorem decode_truncated {m : Message} {f : Field} {frame front : Bytes}
    (hframe : m.encode = .ok frame) (hf : m.find? .beginString = some f)
    (hname : WireField.protocolName <+: f.value.wire) (hbegin : Bytes.soh ∉ f.value.wire)
    (hlen : frame.length < 2 ^ 64) (hfront : front <+: frame)
    (hlt : front.length < frame.length) (validate : Bool) :
    (front.count Bytes.soh ≠ 1 → (decode validate front).1 = .error .incomplete) ∧
      (front.count Bytes.soh = 1 → (decode validate front).1 = .error .missingBodyLength ∧
        peekMsgType front = .ok none) := by
  obtain ⟨s, t, rest, hopens, hsize, rfl, hrest⟩ :=
    Message.exists_opens_of_encode hframe hf hname hbegin hlen
  apply hopens.decode_of_prefix hsize ?_ hfront hlt validate
  rw [List.length_append, hrest]

/-- A heartbeat that ends inside BodyLength. -/
theorem decode_truncated_length :
    (decode true (Utf8.encode "8=FIX.4.4\x019=")).1 = .error .missingBodyLength ∧
      peekMsgType (Utf8.encode "8=FIX.4.4\x019=") = .ok none ∧
      (decode true (Utf8.encode "8=FIX.4.4\x019=5\x0135=0\x0110=1")).1 = .error .incomplete := by
  have hencode : Message.encode ⟨[⟨.beginString, .text "FIX.4.4"⟩, ⟨.msgType, .text "0"⟩]⟩ =
      .ok (Utf8.encode "8=FIX.4.4\x019=5\x0135=0\x0110=163\x01") := by
    with_unfolding_all rfl
  obtain ⟨-, hmissing⟩ := decode_truncated (f := ⟨.beginString, .text "FIX.4.4"⟩) hencode rfl
    (by decide +kernel) (by decide +kernel) (by decide +kernel)
    (show Utf8.encode "8=FIX.4.4\x019=" <+: _ by decide +kernel) (by decide +kernel) true
  obtain ⟨hincomplete, -⟩ := decode_truncated (f := ⟨.beginString, .text "FIX.4.4"⟩) hencode rfl
    (by decide +kernel) (by decide +kernel) (by decide +kernel)
    (show Utf8.encode "8=FIX.4.4\x019=5\x0135=0\x0110=1" <+: _ by decide +kernel)
    (by decide +kernel) true
  obtain ⟨hdecode, hpeek⟩ := hmissing (by decide +kernel)
  exact ⟨hdecode, hpeek, hincomplete (by decide +kernel)⟩

/-- Not every truncated frame is reported as incomplete, be the checksum looked at or not. -/
theorem exists_truncated_not_incomplete : ∃ (m : Message) (frame front : Bytes),
    m.Transmissible ∧ m.encode = .ok frame ∧ front <+: frame ∧ front.length < frame.length ∧
      ∀ validate, (decode validate front).1 = .error .missingBodyLength := by
  refine ⟨⟨[⟨.beginString, .text "FIX.4.4"⟩, ⟨.msgType, .text "0"⟩]⟩,
    Utf8.encode "8=FIX.4.4\x019=5\x0135=0\x0110=163\x01", Utf8.encode "8=FIX.4.4\x01",
    ?_, ?_, by decide +kernel, by decide +kernel, ?_⟩
  · refine ⟨⟨_, rfl, by decide⟩, ⟨_, List.mem_cons_of_mem _ List.mem_cons_self, rfl⟩,
      by decide, ?_, by decide⟩
    simp [Utf8.Valid, Value.wire]
  · with_unfolding_all rfl
  · intro validate
    cases validate <;> with_unfolding_all rfl

end Frame

end FixClient
