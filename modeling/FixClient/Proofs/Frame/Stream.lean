import FixClient.Proofs.Frame.Canonical

/-!
# Streams of frames

A message that can be sent comes back as the row of texts that its frame holds. The frame
is sealed and canonical, so this holds wherever it stands in the input, the next call finds
the frame behind it, and writing what was read gives the frame again. Frames that follow
one another are read by induction on their number.
-/

namespace FixClient

/-- A field as it comes back: the text that stands on the wire. -/
def Field.received (f : Field) : Field := ⟨f.tag, .text (Utf8.text f.value.wire)⟩

namespace Message

/-- A message as it comes back: the first 8, 35, 49 and 56, then all other fields but 9 and 10. -/
def received (m : Message) : Message := ⟨m.wireFields.map Field.received⟩

/-- The messages that can be sent. Nothing is asked of the values of the computed fields. -/
structure Transmissible (m : Message) : Prop where
  beginString : ∃ f, m.find? .beginString = some f ∧ WireField.protocolName <+: f.value.wire
  msgType : ∃ f ∈ m.fields, f.tag = .msgType
  tag_ne_zero : ∀ f ∈ m.fields, f.tag ≠ 0
  valid_wire : ∀ f ∈ m.fields, f.tag ≠ .bodyLength → f.tag ≠ .checkSum → Utf8.Valid f.value.wire
  soh_notMem : ∀ f ∈ m.fields, f.tag ≠ .bodyLength → f.tag ≠ .checkSum →
    Bytes.soh ∉ f.value.wire

namespace Transmissible

variable {m : Message} {f : Field} {frame rest : Bytes}

theorem of_mem_wireFields (h : m.Transmissible) (hf : f ∈ m.wireFields) :
    Utf8.Valid f.value.wire ∧ Bytes.soh ∉ f.value.wire := by
  have hmem := mem_of_mem_wireFields hf
  have hcomputed := isComputed_of_mem_wireFields hf
  rw [Tag.isComputed, Bool.or_eq_false_iff, beq_eq_false_iff_ne, beq_eq_false_iff_ne] at hcomputed
  exact ⟨h.valid_wire f hmem hcomputed.1 hcomputed.2, h.soh_notMem f hmem hcomputed.1 hcomputed.2⟩

theorem exists_encode (h : m.Transmissible) : ∃ frame, m.encode = .ok frame := by
  obtain ⟨f, hf, -⟩ := h.beginString
  obtain ⟨g, hmem, hg⟩ := h.msgType
  cases htype : m.find? .msgType with
  | none => exact absurd hg (tag_ne_of_find? htype g hmem)
  | some g' => exact ⟨_, encode_eq_ok_iff.mpr ⟨f, g', hf, htype, h.tag_ne_zero, rfl⟩⟩

end Transmissible

end Message

namespace WireFrame

section OfFields

variable {f g : Field} {fs : List Field} (h : ∀ x ∈ f :: g :: fs, Bytes.soh ∉ x.value.wire)

theorem map_ofFields {α : Type} (k : Tag → Bytes → α) :
    ((ofFields f g fs h).beginString :: (ofFields f g fs h).counted).map (fun s => k s.tag s.value) =
      k .beginString f.value.wire :: (g :: fs).map fun x => k x.tag x.value.wire := by
  rw [List.map_cons, counted, List.map_cons, List.map_cons, ofFields, Segment.map_pmap_ofField,
    Segment.ofField, Segment.tag_ofWire, Segment.tag_ofWire]
  rfl

theorem sealed_ofFields (hname : WireField.protocolName <+: f.value.wire) (hg : g.tag = .msgType)
    (hcomputed : ∀ x ∈ fs, x.tag.isComputed = false)
    (hvalid : ∀ x ∈ f :: g :: fs, Utf8.Valid x.value.wire)
    (hlen : (ofFields f g fs h).countedBytes.length < 2 ^ 64) : (ofFields f g fs h).Sealed := by
  have hwritten := written_ofFields h
  refine ⟨⟨hwritten.beginString_tag, hname, hwritten.bodyLength_tag, ?_, ?_, ?_,
    hwritten.checkSum_tag, ?_⟩, (checkSum_value_iff _).mpr hwritten.checkSum_value⟩
  · rw [hwritten.bodyLength_value]
    exact WireField.isSize_digits hlen
  · exact (Segment.tag_ofWire _ _ _).trans hg
  · intro s hs hlast
    obtain ⟨x, hx, rfl⟩ := List.mem_pmap.mp hs
    rw [Segment.ofField, Segment.tag_ofWire] at hlast
    have hx' := hcomputed x hx
    rw [hlast] at hx'
    exact absurd hx' (by decide)
  · intro s hs
    have hvalue := map_ofFields h (fun _ v => v) ▸ List.mem_map_of_mem (f := Segment.value) hs
    rw [← List.map_cons (f := fun x : Field => x.value.wire)] at hvalue
    obtain ⟨x, hx, hxs⟩ := List.mem_map.mp hvalue
    exact hxs ▸ hvalid x hx

theorem message_ofFields (hf : f.tag = .beginString) :
    (ofFields f g fs h).message = ⟨(f :: g :: fs).map Field.received⟩ := by
  have hfields := map_ofFields h fun t v => (⟨t, .text (Utf8.text v)⟩ : Field)
  rw [← hf] at hfields
  exact congrArg Message.mk hfields

end OfFields

end WireFrame

namespace Message

namespace Transmissible

variable {m : Message} {frame rest : Bytes}

theorem exists_sealed_of_encode (h : m.Transmissible) (hframe : m.encode = .ok frame)
    (hlen : frame.length < 2 ^ 64) :
    ∃ p : WireFrame, p.Sealed ∧ p.Canonical ∧ p.bytes = frame ∧ p.message = m.received := by
  obtain ⟨f, g, hsoh, hf, hg, hcanonical, rfl⟩ := WireFrame.exists_canonical_of_encode hframe
    fun x hx => (h.of_mem_wireFields hx).2
  have hfields := wireFields_eq hf hg
  refine ⟨_, ?_, hcanonical, rfl, ?_⟩
  · refine WireFrame.sealed_ofFields hsoh ?_ (tag_of_find? hg) ?_ ?_ ?_
    · obtain ⟨f', hf', hname⟩ := h.beginString
      rw [hf] at hf'
      exact Option.some.inj hf' ▸ hname
    · exact fun x hx => isComputed_of_mem_wireFields (m := m) (by simp [hfields, hx])
    · exact fun x hx => (h.of_mem_wireFields (hfields ▸ hx)).1
    · rw [← List.append_nil (WireFrame.bytes _), WireFrame.bytes_append] at hlen
      simp only [List.length_append] at hlen
      omega
  · rw [WireFrame.message_ofFields hsoh (tag_of_find? hf), received, hfields]

theorem decode_encode (h : m.Transmissible) (hframe : m.encode = .ok frame)
    (hlen : frame.length < 2 ^ 64) (rest : Bytes) :
    Frame.decode true (frame ++ rest) = (.ok m.received, rest) := by
  obtain ⟨p, hp, -, rfl, hmessage⟩ := h.exists_sealed_of_encode hframe hlen
  rw [Frame.decode_bytes hp, hmessage]

theorem encode_received (h : m.Transmissible) (hframe : m.encode = .ok frame)
    (hlen : frame.length < 2 ^ 64) : m.received.encode = .ok frame := by
  obtain ⟨p, hp, hcanonical, rfl, hmessage⟩ := h.exists_sealed_of_encode hframe hlen
  rw [← hmessage, WireFrame.encode_message_of_canonical hp hcanonical]

theorem wire_received (h : m.Transmissible) :
    m.received.fields.map (fun f => (f.tag, f.value.wire)) =
      m.wireFields.map fun f => (f.tag, f.value.wire) := by
  rw [received, List.map_map]
  refine List.map_congr_left fun f hf => ?_
  have hvalid := (h.of_mem_wireFields hf).1
  exact congrArg (Prod.mk f.tag) ((Value.wire_text _).trans (Utf8.encode_text hvalid))

end Transmissible

end Message

namespace Frame

/-- Reads some frames one after another, each from what the call before it has left. -/
def decodeRun (validate : Bool) : Nat → Bytes → List (Except DecodeError Message × Bytes)
  | 0, _ => []
  | n + 1, input => decode validate input :: decodeRun validate n (decode validate input).2

variable {ms : List Message} {frames : List Bytes} {t : Bytes}

theorem exists_frames (h : ∀ m ∈ ms, m.Transmissible) :
    ∃ frames : List Bytes, ms.map Message.encode = frames.map .ok := by
  induction ms with
  | nil => exact ⟨[], rfl⟩
  | cons m ms ih =>
      obtain ⟨frame, hframe⟩ := (h m List.mem_cons_self).exists_encode
      obtain ⟨frames, hframes⟩ := ih fun x hx => h x (List.mem_cons_of_mem m hx)
      exact ⟨frame :: frames, by rw [List.map_cons, List.map_cons, hframe, hframes]⟩

/-- Each call reads the next frame, whatever stands behind the frames. -/
theorem decodeRun_frames (h : ∀ m ∈ ms, m.Transmissible)
    (hframes : ms.map Message.encode = frames.map .ok)
    (hlen : (frames.flatten ++ t).length < 2 ^ 64) {k : Nat} {m : Message} {frame : Bytes}
    (hm : ms[k]? = some m) (hframe : frames[k]? = some frame) :
    (decodeRun true ms.length (frames.flatten ++ t))[k]? =
      some (.ok m.received, (frames.drop (k + 1)).flatten ++ t) ∧
        m.received.encode = .ok frame := by
  induction ms generalizing frames k with
  | nil => simp at hm
  | cons m' ms ih =>
      cases frames with
      | nil => simp at hframe
      | cons frame' frames =>
          obtain ⟨hfirst, hrest⟩ := List.cons.inj hframes
          have hm' := h m' List.mem_cons_self
          rw [List.flatten_cons, List.append_assoc, List.length_append] at hlen
          have hread := hm'.decode_encode hfirst (by omega) (frames.flatten ++ t)
          rw [List.flatten_cons, List.append_assoc, List.length_cons, decodeRun, hread]
          cases k with
          | zero =>
              cases hm
              cases hframe
              exact ⟨rfl, hm'.encode_received hfirst (by omega)⟩
          | succ k =>
              rw [List.getElem?_cons_succ] at hm hframe ⊢
              exact ih (fun x hx => h x (List.mem_cons_of_mem m' hx)) hrest (by omega) hm hframe

/-- Frames of messages that can be sent are read back one by one, in any number and in front of
any bytes: the call for a message gives the texts of its fields in the order of the frame, leaves
the frames of the later messages and what follows them, and writing what it gives makes the same
frame again. -/
theorem decodeRun_encode {ms : List Message} (h : ∀ m ∈ ms, m.Transmissible) (t : Bytes) :
    ∃ frames : List Bytes, ms.map Message.encode = frames.map .ok ∧
      ((frames.flatten ++ t).length < 2 ^ 64 → ∀ (k : Nat) (m : Message), ms[k]? = some m →
        (decodeRun true ms.length (frames.flatten ++ t))[k]? =
          some (.ok m.received, (frames.drop (k + 1)).flatten ++ t) ∧
            m.received.fields.map (fun f => (f.tag, f.value.wire)) =
              m.wireFields.map (fun f => (f.tag, f.value.wire)) ∧
                ∃ frame, frames[k]? = some frame ∧ m.received.encode = .ok frame) := by
  obtain ⟨frames, hframes⟩ := exists_frames h
  refine ⟨frames, hframes, ?_⟩
  intro hlen k m hm
  have hlength : k < frames.length := by
    have hsame := congrArg List.length hframes
    rw [List.length_map, List.length_map] at hsame
    exact hsame ▸ (List.getElem?_eq_some_iff.mp hm).1
  have hframe := List.getElem?_eq_getElem hlength
  obtain ⟨hrun, hencode⟩ := decodeRun_frames h hframes hlen hm hframe
  exact ⟨hrun, (h m (List.mem_of_getElem? hm)).wire_received, _, hframe, hencode⟩

/-- A message in another order, with a BodyLength that could not be sent, sent twice. -/
theorem decodeRun_encode_twice : ∃ frames : List Bytes,
    (List.replicate 2 ⟨[⟨.msgType, .text "0"⟩, ⟨.bodyLength, .text "\x01"⟩,
      ⟨.beginString, .text "FIX.4.4"⟩]⟩).map Message.encode = frames.map .ok ∧
    (decodeRun true 2 (frames.flatten ++ [0x38]))[1]? =
      some (.ok ⟨[⟨.beginString, .text "FIX.4.4"⟩, ⟨.msgType, .text "0"⟩]⟩, [0x38]) := by
  have hencode : Message.encode ⟨[⟨.msgType, .text "0"⟩, ⟨.bodyLength, .text "\x01"⟩,
      ⟨.beginString, .text "FIX.4.4"⟩]⟩ =
      .ok (Utf8.encode "8=FIX.4.4\x019=5\x0135=0\x0110=163\x01") := by
    with_unfolding_all rfl
  generalize hm : (⟨[⟨.msgType, .text "0"⟩, ⟨.bodyLength, .text "\x01"⟩,
    ⟨.beginString, .text "FIX.4.4"⟩]⟩ : Message) = m at hencode ⊢
  have hsent : m.Transmissible := by
    subst hm
    refine ⟨⟨_, rfl, by decide⟩, ⟨_, List.mem_cons_self, rfl⟩, by decide, ?_, by decide⟩
    simp [Utf8.Valid, Value.wire]
  obtain ⟨frames, hframes, hread⟩ := decodeRun_encode
    (fun x (hx : x ∈ List.replicate 2 m) => List.eq_of_mem_replicate hx ▸ hsent) [0x38]
  have hsame : frames = List.replicate 2 (Utf8.encode "8=FIX.4.4\x019=5\x0135=0\x0110=163\x01") := by
    refine (List.map_inj_right fun _ _ => Except.ok.inj).mp (hframes.symm.trans ?_)
    rw [List.map_replicate, List.map_replicate, hencode]
  subst hsame hm
  exact ⟨_, hframes, (hread (by decide +kernel) 1 _ rfl).1⟩

end Frame

end FixClient
