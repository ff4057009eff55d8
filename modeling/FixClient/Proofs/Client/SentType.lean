import FixClient.Proofs.Client.Rules
import FixClient.Proofs.Frame.Header
import FixClient.Proofs.MsgType

/-!
# The type of what was sent

A client awaits an answer when what it has sent is a Logon by its own account, that is by the text
that the first MsgType of the message shows. The counterparty goes by the bytes of the frame. The
two agree for every kind of value: bytes that are no text show with a replacement character, and
no type with a name has such a code.
-/

namespace FixClient

theorem MsgType.ofCode_eq_logon_iff {code : String} : ofCode code = .logon ↔ code = "A" :=
  ofCode_eq_iff_of_mem_named (by decide)

namespace Value

variable {v : Value} {s : String}

theorem display_of_wire_eq (h : v.wire = Utf8.encode s) : v.display = s := by
  cases v with
  | data bytes =>
      have hbytes : bytes = Utf8.encode s := h
      rw [display, shown, hbytes, Utf8.decodeLossy_encode, String.ofList_toList]
  | _ => exact Utf8.encode_injective h

theorem wire_of_display_eq (h : v.display = s) (hs : '\ufffd' ∉ s.toList) :
    v.wire = Utf8.encode s := by
  subst h
  cases v with
  | data bytes =>
      refine (Utf8.encode_of_decodeLossy ?_ hs).symm
      rw [display, String.toList_ofList]
      rfl
  | _ => rfl

end Value

namespace WireField

variable {f : WireField}

theorem exists_fault_of_not_valid (h : ¬ Utf8.Valid f.bytes) :
    ∃ fault, f.text = .error (.invalidUtf8 fault) := by
  cases hdecode : Utf8.decode f.bytes with
  | ok s => exact absurd ⟨s, Utf8.decode_eq_ok_iff.mp hdecode⟩ h
  | error fault => exact ⟨fault, by rw [text, hdecode]⟩

theorem type_eq_logon_iff :
    (f.text.map fun code => some (MsgType.ofCode code)) = .ok (some .logon) ↔
      f.bytes = Utf8.encode "A" := by
  constructor
  · intro h
    cases htext : f.text with
    | error e =>
        rw [htext] at h
        cases h
    | ok code =>
        rw [htext] at h
        obtain rfl : code = "A" :=
          MsgType.ofCode_eq_logon_iff.mp (Option.some.inj (Except.ok.inj h))
        exact (text_eq_ok_iff.mp htext).symm
  · intro h
    rw [text_eq_ok_iff.mpr h.symm]
    rfl

end WireField

namespace Message

variable {m : Message} {g : Field}

theorem msgType?_of_find? (hg : m.find? .msgType = some g) :
    m.msgType? = some (.ofCode g.value.display) := by
  rw [msgType?, get?, hg]
  rfl

theorem msgType?_eq_logon_iff (hg : m.find? .msgType = some g) :
    m.msgType? = some .logon ↔ g.value.wire = Utf8.encode "A" := by
  rw [msgType?_of_find? hg, Option.some.injEq, MsgType.ofCode_eq_logon_iff]
  constructor
  · intro h
    exact Value.wire_of_display_eq h (by decide)
  · exact Value.display_of_wire_eq

end Message

/-- The peek into a frame that was written, with anything behind it, finds the type that the message
has by its own account, or it reports that the type is no text. So a client that has sent a frame
awaits the answer to a Logon exactly if it awaited one before, or is connected and the peek into
what it has written finds a Logon. It collects that answer from the start, and for no other frame
it changes anything but the stream. Only BeginString and MsgType must be free of separators; the
length of a frame fits a 64-bit word. -/
theorem Client.send_peekMsgType {m : Message} {f g : Field} {frame : Bytes}
    (hframe : m.encode = .ok frame) (hf : m.find? .beginString = some f)
    (hname : WireField.protocolName <+: f.value.wire) (hbegin : Bytes.soh ∉ f.value.wire)
    (hg : m.find? .msgType = some g) (htype : Bytes.soh ∉ g.value.wire)
    (hlen : frame.length < 2 ^ 64) (t : Bytes) :
    (Utf8.Valid g.value.wire → ∃ type, m.msgType? = some type ∧
      Frame.peekMsgType (frame ++ t) = .ok (some type)) ∧
    (¬ Utf8.Valid g.value.wire → ∃ fault,
      Frame.peekMsgType (frame ++ t) = .error (.invalidUtf8 fault)) ∧
    ∀ c after : Client, c.send m = (.ok frame, after) →
      after.connection.written = c.connection.written ++ frame ∧
        (after.session.logonPending = true ↔ c.session.logonPending = true ∨
          c.session.state = .connected ∧
            Frame.peekMsgType (frame ++ t) = .ok (some .logon)) ∧
        (Frame.peekMsgType (frame ++ t) = .ok (some .logon) → after.answer = []) ∧
        (Frame.peekMsgType (frame ++ t) ≠ .ok (some .logon) →
          after.session = c.session ∧ after.answer = c.answer) := by
  have hpeek := Message.peekMsgType_of_encode hframe hf hname hbegin hg htype hlen t
  refine ⟨?_, ?_, ?_⟩
  · rintro ⟨code, hcode⟩
    refine ⟨.ofCode code, ?_, ?_⟩
    · rw [Message.msgType?_of_find? hg, Value.display_of_wire_eq hcode.symm]
    · rw [hpeek, WireField.text_eq_ok_iff.mpr hcode]
      rfl
  · intro hinvalid
    obtain ⟨fault, hfault⟩ :=
      WireField.exists_fault_of_not_valid (f := ⟨.msgType, g.value.wire⟩) hinvalid
    refine ⟨fault, ?_⟩
    rw [hpeek, hfault]
    rfl
  · intro c after hsend
    have hsends := c.sends m
    rw [hsend] at hsends
    have hlogon : Frame.peekMsgType (frame ++ t) = .ok (some .logon) ↔ m.msgType? = some .logon := by
      rw [hpeek, WireField.type_eq_logon_iff, Message.msgType?_eq_logon_iff hg]
    simp only [hlogon, ne_eq]
    exact ⟨hsends.written_eq, hsends.logonPending_iff, hsends.answer_of_logon,
      hsends.eq_of_not_logon⟩

/-- A Logon in raw bytes behind a field that holds a separator and a whole CheckSum, and a type
that is no text. -/
theorem Client.send_peekMsgType_data :
    (∃ (c after : Client) (frame : Bytes), c.session = ⟨.connected, false⟩ ∧
      c.send ⟨[⟨58, .text "a\x0110=000\x01"⟩, ⟨.msgType, .data [0x41]⟩,
        ⟨.beginString, .text "FIX.4.4"⟩]⟩ = (.ok frame, after) ∧
      Frame.peekMsgType (frame ++ [0x38]) = .ok (some .logon) ∧
      after.session.logonPending = true) ∧
    ∃ frame fault, Message.encode ⟨[⟨.beginString, .text "FIX.4.4"⟩,
        ⟨.msgType, .data [0x41, 0xff]⟩]⟩ = .ok frame ∧
      Frame.peekMsgType (frame ++ [0x38]) = .error (.invalidUtf8 fault) := by
  constructor
  · let c : Client :=
      { settings := .standard "unix:/s"
        settings_valid := by decide +kernel
        session := ⟨.connected, false⟩
        answer := []
        connection := {} }
    let m : Message := ⟨[⟨58, .text "a\x0110=000\x01"⟩, ⟨.msgType, .data [0x41]⟩,
      ⟨.beginString, .text "FIX.4.4"⟩]⟩
    have hframe : m.encode = .ok (Utf8.encode
        "8=FIX.4.4\x019=18\x0135=A\x0158=a\x0110=000\x01\x0110=036\x01") := by
      decide +kernel
    have hsend := (Sends.logon (c := c) rfl hframe rfl (by decide +kernel)).eq
    obtain ⟨hread, -, hawaits⟩ := send_peekMsgType hframe rfl (by decide +kernel)
      (by decide +kernel) rfl (by decide +kernel) (by decide +kernel) [0x38]
    obtain ⟨type, htype, hpeek⟩ := hread ⟨"A", rfl⟩
    obtain rfl : .logon = type := Option.some.inj htype
    obtain ⟨-, hpending, -⟩ := hawaits c _ hsend
    exact ⟨c, _, _, rfl, hsend, hpeek, hpending.mpr (.inr ⟨rfl, hpeek⟩)⟩
  · have hframe : Message.encode ⟨[⟨.beginString, .text "FIX.4.4"⟩,
        ⟨.msgType, .data [0x41, 0xff]⟩]⟩ = .ok (Utf8.encode "8=FIX.4.4\x019=6\x0135=A" ++
          [0xff, 0x01] ++ Utf8.encode "10=180\x01") := by
      decide +kernel
    obtain ⟨-, hrefused, -⟩ := send_peekMsgType hframe rfl (by decide +kernel)
      (by decide +kernel) rfl (by decide +kernel) (by decide +kernel) [0x38]
    have hinvalid : ¬ Utf8.Valid [0x41, 0xff] := by
      rintro ⟨s, hs⟩
      have hdecode := Utf8.decode_eq_ok_iff.mpr hs
      have hfault : Utf8.decode [0x41, 0xff] = .error ⟨1, some 1⟩ := by decide +kernel
      rw [hfault] at hdecode
      cases hdecode
    obtain ⟨fault, hfault⟩ := hrefused hinvalid
    exact ⟨_, fault, hframe, hfault⟩

end FixClient
