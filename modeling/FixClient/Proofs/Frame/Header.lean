import FixClient.Proofs.Frame.Canonical
import FixClient.Proofs.Frame.Peek

/-!
# Headers

A frame shows its type with the separator behind MsgType and not a byte earlier, to the peek
as to the reader of whole frames. What the peek finds in a frame that was written is the type
of the message, whatever the body holds behind it.
-/

namespace FixClient

namespace Segment

theorem headerField_bytes_append (s : Segment) (otherwise : DecodeError) (rest : Bytes) :
    Frame.headerField s.tag otherwise (s.bytes ++ rest) = .ok (some (s.wire, rest)) := by
  rw [Frame.headerField, next?_bytes_append]
  exact if_pos rfl

end Segment

namespace Frame

/-- Two segments that a frame can begin with. -/
structure Opens (s t : Segment) : Prop where
  beginString_tag : s.tag = .beginString
  beginString_value : WireField.protocolName <+: s.value
  bodyLength_tag : t.tag = .bodyLength
  bodyLength_value : ∃ n, WireField.IsSize t.value n

namespace Opens

variable {s t u : Segment} {rest : Bytes}

theorem peek_eq (h : Opens s t) (rest : Bytes) : peekMsgType (s.bytes ++ (t.bytes ++ rest)) =
    match headerField .msgType .missingMsgType rest with
    | .error e => .error e
    | .ok none => .ok none
    | .ok (some (type, _)) => type.text.map fun code => some (.ofCode code) := by
  have hbegin := s.headerField_bytes_append .invalidBeginString (t.bytes ++ rest)
  rw [h.beginString_tag] at hbegin
  have hlength := t.headerField_bytes_append .missingBodyLength rest
  rw [h.bodyLength_tag] at hlength
  have hname : s.wire.namesProtocol = true := List.isPrefixOf_iff_prefix.mpr h.beginString_value
  obtain ⟨n, hn⟩ := h.bodyLength_value
  have hsize : t.wire.size = .ok n := WireField.size_eq_ok_iff.mpr hn
  simp only [peekMsgType, hbegin, hname, Bool.not_true, Bool.false_eq_true, if_false, hlength, hsize]
  rcases headerField .msgType .missingMsgType rest with e | _ | ⟨type, left⟩
  · rfl
  · rfl
  · dsimp only
    cases type.text <;> rfl

theorem peek_append (h : Opens s t) (hu : u.tag = .msgType) (rest : Bytes) :
    peekMsgType (s.bytes ++ (t.bytes ++ (u.bytes ++ rest))) =
      u.wire.text.map fun code => some (.ofCode code) := by
  have htype := u.headerField_bytes_append .missingMsgType rest
  rw [hu] at htype
  rw [h.peek_eq, htype]

theorem peek_of_notMem (h : Opens s t) (hrest : Bytes.soh ∉ rest) :
    peekMsgType (s.bytes ++ (t.bytes ++ rest)) = .ok none := by
  rw [h.peek_eq, headerField_eq_none_iff.mpr hrest]

end Opens

end Frame

namespace WireFrame

variable {p : WireFrame} {n : Nat}

/-- BeginString, BodyLength and MsgType. -/
def headerBytes (p : WireFrame) : Bytes :=
  p.beginString.bytes ++ p.bodyLength.bytes ++ p.msgType.bytes

theorem bytes_append_eq_headerBytes (p : WireFrame) (rest : Bytes) : p.bytes ++ rest =
    p.headerBytes ++ (p.body.flatMap Segment.bytes ++ (p.checkSum.bytes ++ rest)) := by
  rw [bytes_append, countedBytes_append, headerBytes]
  simp only [List.append_assoc]

namespace Declares

theorem opens (h : p.Declares n) : Frame.Opens p.beginString p.bodyLength :=
  ⟨h.beginString_tag, h.beginString_value, h.bodyLength_tag, n, h.bodyLength_value⟩

theorem msgType?_message (h : p.Declares n) :
    p.message.msgType? = some (.ofCode (Utf8.text p.msgType.value)) := by
  rw [Message.msgType?, Message.get?, h.find?_msgType]
  simp [Segment.field, Value.display, Value.shown]

theorem peek_headerBytes_append (h : p.Declares n) (rest : Bytes) :
    Frame.peekMsgType (p.headerBytes ++ rest) = .ok p.message.msgType? := by
  have hvalid : Utf8.Valid p.msgType.value := h.valid_value _ (by simp [counted])
  have htext : p.msgType.wire.text = .ok (Utf8.text p.msgType.value) :=
    WireField.text_eq_ok_iff.mpr (Utf8.encode_text hvalid)
  rw [headerBytes, List.append_assoc, List.append_assoc, h.opens.peek_append h.msgType_tag, htext,
    h.msgType?_message]
  rfl

theorem decidedAt (h : p.Declares n) (rest : Bytes) :
    Frame.DecidedAt (p.headerBytes ++ rest) p.headerBytes.length := by
  -- The peek is open on the header without its last byte, hence on everything shorter.
  obtain ⟨front, hfront, hopen⟩ : ∃ front, p.headerBytes = front ++ [Bytes.soh] ∧
      Frame.peekMsgType front = .ok none := by
    refine ⟨_, ?_, h.opens.peek_of_notMem p.msgType.soh_notMem_front⟩
    simp [headerBytes, Segment.bytes]
  have hlen : p.headerBytes.length = front.length + 1 := by
    rw [hfront, List.length_append, List.length_singleton]
  rw [hlen]
  apply Frame.DecidedAt.of_succ
  · rw [← hlen, List.length_append]
    exact Nat.le_add_right _ _
  · have hpeek := h.peek_headerBytes_append []
    rw [List.append_nil, h.msgType?_message] at hpeek
    rw [← hlen, List.take_left, hpeek]
    simp
  · rwa [hfront, List.append_assoc, List.take_left]

end Declares

end WireFrame

namespace Message

variable {m : Message} {f g : Field} {frame : Bytes}

/-- A written frame opens with a length that leads from the body to the end of the frame. -/
theorem exists_opens_of_encode (hframe : m.encode = .ok frame)
    (hf : m.find? .beginString = some f) (hname : WireField.protocolName <+: f.value.wire)
    (hbegin : Bytes.soh ∉ f.value.wire) (hlen : frame.length < 2 ^ 64) :
    ∃ s t rest, Frame.Opens s t ∧ WireField.IsSize t.value m.body.length ∧
      frame = s.bytes ++ (t.bytes ++ (m.body ++ rest)) ∧ rest.length = Frame.trailerSize := by
  obtain ⟨f', g, hf', -, -, rfl⟩ := encode_eq_ok_iff.mp hframe
  obtain rfl := Option.some.inj (hf.symm.trans hf')
  have hshort : m.body.length < 2 ^ 64 := by
    simp only [Frame.ofBody, Frame.unsealed, List.length_append] at hlen
    omega
  have hsize := WireField.isSize_digits hshort
  refine ⟨.ofWire .beginString f.value.wire hbegin,
    .ofWire .bodyLength (Bytes.ascii (Numeral.digits m.body.length)) hsize.soh_notMem,
    WireField.write .checkSum (CheckSum.text
      (CheckSum.ofBytes (Frame.unsealed f.value.wire m.body))), ?_, hsize, ?_, ?_⟩
  · exact ⟨Segment.tag_ofWire _ _ _, hname, Segment.tag_ofWire _ _ _, _, hsize⟩
  · rw [Segment.bytes_ofWire, Segment.bytes_ofWire, Frame.ofBody]
    generalize WireField.write .checkSum _ = trailer
    simp only [Frame.unsealed, List.append_assoc]
  · have htext : Tag.checkSum.text = ['1', '0'] := by decide
    simp [WireField.write, htext, CheckSum.length_text, Frame.trailerSize]

/-- The peek into a written frame reads the first MsgType of the message. -/
theorem peekMsgType_of_encode (hframe : m.encode = .ok frame) (hf : m.find? .beginString = some f)
    (hname : WireField.protocolName <+: f.value.wire) (hbegin : Bytes.soh ∉ f.value.wire)
    (hg : m.find? .msgType = some g) (htype : Bytes.soh ∉ g.value.wire)
    (hlen : frame.length < 2 ^ 64) (t : Bytes) : Frame.peekMsgType (frame ++ t) =
      (⟨.msgType, g.value.wire⟩ : WireField).text.map fun code => some (.ofCode code) := by
  obtain ⟨s, u, rest, hopens, -, rfl, -⟩ := exists_opens_of_encode hframe hf hname hbegin hlen
  have hbody : m.body =
      WireField.write .msgType g.value.wire ++ m.bodyFields.flatMap writeField := by
    rw [body_eq hg, List.flatMap_cons, writeField, tag_of_find? hg]
  have hpeek := hopens.peek_append (Segment.tag_ofWire .msgType g.value.wire htype)
    (m.bodyFields.flatMap writeField ++ (rest ++ t))
  rw [Segment.wire, Segment.tag_ofWire, Segment.bytes_ofWire] at hpeek
  simp only [hbody, List.append_assoc]
  exact hpeek

end Message

namespace Frame

/-- The peek finds the type of the message that the reader of whole frames returns, be the checksum
looked at or not. It finds it as soon as the field of the type has ended, and until then it
waits. -/
theorem peekMsgType_of_decode {validate : Bool} {b rest : Bytes} {m : Message}
    (h : decode validate b = (.ok m, rest)) :
    ∃ type, m.msgType? = some type ∧ peekMsgType b = .ok (some type) ∧
      ∃ p : WireFrame, p.Declares p.countedBytes.length ∧ b = p.bytes ++ rest ∧
        p.headerBytes <+: b ∧ peekMsgType p.headerBytes = .ok (some type) ∧
          ∀ front, front <+: b → front.length < p.headerBytes.length →
            peekMsgType front = .ok none := by
  obtain ⟨p, hp, -, rfl, rfl⟩ := exists_of_decode h
  have hpeek := hp.peek_headerBytes_append []
  rw [List.append_nil, hp.msgType?_message] at hpeek
  have hsplit := p.bytes_append_eq_headerBytes rest
  have hheader : p.headerBytes <+: p.bytes ++ rest := hsplit ▸ List.prefix_append _ _
  refine ⟨_, hp.msgType?_message, ?_, p, hp, rfl, hheader, hpeek, ?_⟩
  · rw [hsplit, hp.peek_headerBytes_append, hp.msgType?_message]
  · intro front hfront hlt
    rw [hsplit] at hfront
    exact (hp.decidedAt _).peek_of_lt hfront hlt

/-- Padded tags, a signed length, a type without a name and a checksum that is none. -/
theorem peekMsgType_of_decode_padded : ∃ p : WireFrame,
    p.bytes ++ [0x38] = Utf8.encode "008=FIXT\x0109=+7\x01035=AZ\x01010=xx\x018" ∧
    peekMsgType (p.bytes ++ [0x38]) = .ok (some (.custom "AZ")) ∧
    peekMsgType p.headerBytes = .ok (some (.custom "AZ")) := by
  have h : decode false (Utf8.encode "008=FIXT\x0109=+7\x01035=AZ\x01010=xx\x018") =
      (.ok ⟨[⟨.beginString, .text "FIXT"⟩, ⟨.msgType, .text "AZ"⟩]⟩, [0x38]) := by
    with_unfolding_all rfl
  obtain ⟨type, htype, hpeek, p, -, hbytes, -, hheader, -⟩ := peekMsgType_of_decode h
  have hcustom : Message.msgType? ⟨[⟨.beginString, .text "FIXT"⟩, ⟨.msgType, .text "AZ"⟩]⟩ =
      some (.custom "AZ") := by
    decide +kernel
  obtain rfl := Option.some.inj (hcustom.symm.trans htype)
  exact ⟨p, hbytes.symm, hbytes ▸ hpeek, hheader⟩

end Frame

end FixClient
