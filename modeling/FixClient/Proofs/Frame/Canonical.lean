import FixClient.Proofs.Frame.Grammar
import FixClient.Proofs.Frame.WireOrder

/-!
# Canonical frames

The writer chooses one spelling for tags and lengths and one order of the fields, so
writing what was read gives the same frame only for frames of this form. For all others
it gives a different one, or none if a tag is zero: a row of segments can be read in one
way only, so no two of the changes that the writer makes can cancel out.
-/

namespace FixClient

namespace Segment

/-- The segment that is written for a field. -/
def ofField (f : Field) (h : Bytes.soh ∉ f.value.wire) : Segment := ofWire f.tag f.value.wire h

theorem flatMap_bytes_pmap_ofField {fs : List Field} (h : ∀ f ∈ fs, Bytes.soh ∉ f.value.wire) :
    (fs.pmap ofField h).flatMap bytes = fs.flatMap Message.writeField := by
  induction fs with
  | nil => rfl
  | cons f fs ih =>
      rw [List.pmap_cons, List.flatMap_cons, List.flatMap_cons, ih]
      rfl

theorem map_pmap_ofField {α : Type} {fs : List Field} (h : ∀ f ∈ fs, Bytes.soh ∉ f.value.wire)
    (k : Tag → Bytes → α) :
    (fs.pmap ofField h).map (fun s => k s.tag s.value) = fs.map fun f => k f.tag f.value.wire := by
  induction fs with
  | nil => rfl
  | cons f fs ih =>
      rw [List.pmap_cons, List.map_cons, List.map_cons, ih, ofField, tag_ofWire]
      rfl

theorem writeField_field {s : Segment} (hvalid : Utf8.Valid s.value)
    (hdigits : s.digits = s.tag.text) : Message.writeField s.field = s.bytes := by
  rw [Message.writeField, wire_field hvalid, bytes_eq_write hdigits]
  rfl

end Segment

namespace WireFrame

variable {p q : WireFrame}

theorem ext_segments (h : p.segments = q.segments) : p = q := by
  obtain ⟨hcovered, hlast⟩ := List.append_inj' h rfl
  obtain ⟨hbegin, hrest⟩ := List.cons.inj hcovered
  obtain ⟨hlength, hinner⟩ := List.cons.inj hrest
  obtain ⟨htype, hbody⟩ := List.cons.inj hinner
  exact WireFrame.ext hbegin hlength htype hbody (List.singleton_inj.mp hlast)

/-- What the writer decides in every frame. -/
structure Written (p : WireFrame) : Prop where
  beginString_tag : p.beginString.tag = .beginString
  bodyLength_tag : p.bodyLength.tag = .bodyLength
  checkSum_tag : p.checkSum.tag = .checkSum
  digits_eq : ∀ s ∈ p.segments, s.digits = s.tag.text
  bodyLength_value : p.bodyLength.value = Bytes.ascii (Numeral.digits p.countedBytes.length)
  checkSum_value : p.checkSum.value = CheckSum.text (CheckSum.ofBytes p.coveredBytes)

/-- A frame that has the form of the writer: no tag is zero, no tag and no length has a sign
or a leading zero, there is one BodyLength, and the component identifiers follow MsgType. -/
structure Canonical (p : WireFrame) : Prop where
  tag_ne_zero : ∀ s ∈ p.segments, s.tag ≠ 0
  head?_digits : ∀ s ∈ p.segments, s.digits.head? ≠ some '0'
  bodyLength_value : ∃ ds, p.bodyLength.value = Bytes.ascii ds ∧ Numeral.IsNumeral ds ∧
    ds.head? ≠ some '0'
  body_tag : ∀ s ∈ p.body, s.tag ≠ .bodyLength
  body_order : Message.LiftedInPlace (p.body.map Segment.tag)

theorem Written.bytes_eq_ofBody (h : p.Written) :
    p.bytes = Frame.ofBody p.beginString.value p.countedBytes := by
  have hwrite : ∀ s ∈ p.segments, s.bytes = WireField.write s.tag s.value :=
    fun s hs => Segment.bytes_eq_write (h.digits_eq s hs)
  have hcovered : p.coveredBytes = Frame.unsealed p.beginString.value p.countedBytes := by
    have hsplit := p.coveredBytes_append []
    rw [List.append_nil, List.append_nil] at hsplit
    rw [hsplit, hwrite p.beginString (by simp [segments, covered]),
      hwrite p.bodyLength (by simp [segments, covered]), h.beginString_tag, h.bodyLength_tag,
      h.bodyLength_value, Frame.unsealed, List.append_assoc]
  rw [p.bytes_eq, hwrite p.checkSum (by simp [segments]), h.checkSum_tag, h.checkSum_value, hcovered]
  rfl

theorem Canonical.written (hp : p.Sealed) (h : p.Canonical) : p.Written where
  beginString_tag := hp.beginString_tag
  bodyLength_tag := hp.bodyLength_tag
  checkSum_tag := hp.checkSum_tag
  digits_eq := fun s hs => Segment.digits_eq_text (h.head?_digits s hs)
  bodyLength_value := by
    obtain ⟨ds, hds, hnum, hhead⟩ := h.bodyLength_value
    have hsize := hp.bodyLength_value
    rw [hds] at hsize ⊢
    rw [hsize.eq_digits hnum hhead]
  checkSum_value := p.checkSum_value_iff.mp hp.checkSum_value

/-- The frame of a row of fields, the first two being BeginString and MsgType. -/
def ofFields (f g : Field) (fs : List Field) (h : ∀ x ∈ f :: g :: fs, Bytes.soh ∉ x.value.wire) :
    WireFrame :=
  let counted := (g :: fs).flatMap Message.writeField
  let front := Frame.unsealed f.value.wire counted
  { beginString := .ofWire .beginString f.value.wire (h f List.mem_cons_self)
    bodyLength := .ofWire .bodyLength (Bytes.ascii (Numeral.digits counted.length))
      (Numeral.notMem_ascii (Numeral.isNumeral_digits _).2 (by decide))
    msgType := .ofField g (h g (by simp))
    body := fs.pmap Segment.ofField fun x hx => h x (by simp [hx])
    checkSum := .ofWire .checkSum (CheckSum.text (CheckSum.ofBytes front))
      (Numeral.notMem_ascii (CheckSum.isNumeral_fixed _).2 (by decide)) }

section OfFields

variable {f g : Field} {fs : List Field} (h : ∀ x ∈ f :: g :: fs, Bytes.soh ∉ x.value.wire)

theorem countedBytes_ofFields :
    (ofFields f g fs h).countedBytes = (g :: fs).flatMap Message.writeField := by
  rw [countedBytes, counted, List.flatMap_cons, List.flatMap_cons, ofFields,
    Segment.flatMap_bytes_pmap_ofField]
  rfl

theorem written_ofFields : (ofFields f g fs h).Written where
  beginString_tag := Segment.tag_ofWire _ _ _
  bodyLength_tag := Segment.tag_ofWire _ _ _
  checkSum_tag := Segment.tag_ofWire _ _ _
  digits_eq := by
    refine forall_mem_segments.mpr ⟨Segment.digits_ofWire _ _ _, Segment.digits_ofWire _ _ _,
      Segment.digits_ofWire _ _ _, ?_, Segment.digits_ofWire _ _ _⟩
    intro s hs
    obtain ⟨x, hx, rfl⟩ := List.mem_pmap.mp hs
    exact Segment.digits_ofWire _ _ _
  bodyLength_value := by
    rw [countedBytes_ofFields]
    rfl
  checkSum_value := by
    have hsplit := (ofFields f g fs h).coveredBytes_append []
    rw [List.append_nil, List.append_nil, countedBytes_ofFields, ← List.append_assoc] at hsplit
    rw [hsplit]
    rfl

theorem bytes_ofFields : (ofFields f g fs h).bytes =
    Frame.ofBody f.value.wire ((g :: fs).flatMap Message.writeField) := by
  rw [(written_ofFields h).bytes_eq_ofBody, countedBytes_ofFields]
  rfl

theorem canonical_ofFields (hg : g.tag ≠ 0) (hfs : ∀ x ∈ fs, x.tag ≠ 0)
    (hcomputed : ∀ x ∈ fs, x.tag.isComputed = false)
    (horder : Message.LiftedInPlace (fs.map Field.tag)) : (ofFields f g fs h).Canonical := by
  have hwritten := written_ofFields h
  have hbody : (ofFields f g fs h).body.map Segment.tag = fs.map Field.tag :=
    Segment.map_pmap_ofField _ fun t _ => t
  have htag : ∀ s ∈ (ofFields f g fs h).body, ∃ x ∈ fs, x.tag = s.tag := fun s hs =>
    List.mem_map.mp (hbody ▸ List.mem_map_of_mem hs)
  have hzero : ∀ s ∈ (ofFields f g fs h).segments, s.tag ≠ 0 := by
    refine forall_mem_segments.mpr ⟨?_, ?_, ?_, ?_, ?_⟩
    · rw [hwritten.beginString_tag]
      decide
    · rw [hwritten.bodyLength_tag]
      decide
    · rwa [ofFields, Segment.ofField, Segment.tag_ofWire]
    · intro s hs
      obtain ⟨x, hx, hxs⟩ := htag s hs
      exact hxs ▸ hfs x hx
    · rw [hwritten.checkSum_tag]
      decide
  refine ⟨hzero, ?_, ?_, ?_, hbody.symm ▸ horder⟩
  · intro s hs
    rw [hwritten.digits_eq s hs]
    exact Tag.head?_text (hzero s hs)
  · exact ⟨_, hwritten.bodyLength_value, Numeral.isNumeral_digits _,
      Numeral.head?_digits (length_countedBytes_pos _)⟩
  · intro s hs hlength
    obtain ⟨x, hx, hxs⟩ := htag s hs
    have hx' := hcomputed x hx
    rw [hxs, hlength] at hx'
    exact absurd hx' (by decide)

end OfFields

theorem eq_of_bytes_eq (h : p.bytes = q.bytes) : p = q :=
  ext_segments (Segment.flatMap_bytes_inj h)

section Message

variable {n : Nat}

theorem Declares.find?_beginString (h : p.Declares n) :
    p.message.find? .beginString = some p.beginString.field :=
  Message.find?_cons_of_eq h.beginString_tag

theorem Declares.find?_msgType (h : p.Declares n) :
    p.message.find? .msgType = some p.msgType.field := by
  have hne : p.beginString.tag ≠ .msgType := h.beginString_tag ▸ by decide
  exact (Message.find?_cons_of_ne hne).trans (Message.find?_cons_of_eq h.msgType_tag)

theorem Declares.encode_message (h : p.Declares n) : p.message.encode =
    if ∀ s ∈ p.beginString :: p.counted, s.tag ≠ 0 then
      .ok (Frame.ofBody p.beginString.value p.message.body)
    else .error (.invalidTag 0) := by
  rw [Message.encode_of_find? h.find?_beginString h.find?_msgType,
    Segment.wire_field (h.valid_value _ List.mem_cons_self), message]
  simp only [List.forall_mem_map, Segment.field]

theorem Canonical.body_message (hp : p.Sealed) (h : p.Canonical) :
    p.message.body = p.countedBytes := by
  have hdigits := (h.written hp).digits_eq
  have hfields : p.message.bodyFields = p.body.map Segment.field := by
    rw [hp.message_eq]
    refine Message.bodyFields_eq_of_liftedInPlace rfl rfl ?_ ?_
    · intro f hf
      obtain ⟨s, hs, rfl⟩ := List.mem_map.mp hf
      simpa [Segment.field, Tag.isComputed] using ⟨h.body_tag s hs, hp.body_tag s hs⟩
    · rw [List.map_map]
      exact h.body_order
  rw [Message.body_eq hp.find?_msgType, hfields, ← List.map_cons, List.flatMap_map, countedBytes,
    counted, List.flatMap_def, List.flatMap_def]
  refine congrArg List.flatten (List.map_congr_left fun s hs => ?_)
  exact Segment.writeField_field (hp.valid_value s (List.mem_cons_of_mem _ hs))
    (hdigits s (List.mem_append_left _ (List.mem_cons_of_mem _ (List.mem_cons_of_mem _ hs))))

theorem encode_message_of_canonical (hp : p.Sealed) (h : p.Canonical) :
    p.message.encode = .ok p.bytes := by
  have htags : ∀ s ∈ p.beginString :: p.counted, s.tag ≠ 0 := by
    obtain ⟨hbegin, -, htype, hbody, -⟩ := forall_mem_segments.mp h.tag_ne_zero
    exact List.forall_mem_cons.mpr ⟨hbegin, List.forall_mem_cons.mpr ⟨htype, hbody⟩⟩
  rw [hp.encode_message, if_pos htags, h.body_message hp, ← (h.written hp).bytes_eq_ofBody]

/-- What the writer makes of a message without separators in its values is a canonical frame. -/
theorem exists_canonical_of_encode {m : Message} {frame : Bytes} (h : m.encode = .ok frame)
    (hsoh : ∀ x ∈ m.wireFields, Bytes.soh ∉ x.value.wire) :
    ∃ (f g : Field) (hsoh' : ∀ x ∈ f :: g :: m.bodyFields, Bytes.soh ∉ x.value.wire),
      m.find? .beginString = some f ∧ m.find? .msgType = some g ∧
        (ofFields f g m.bodyFields hsoh').Canonical ∧
          frame = (ofFields f g m.bodyFields hsoh').bytes := by
  obtain ⟨f, g, hf, hg, htags, rfl⟩ := Message.encode_eq_ok_iff.mp h
  have hfields := Message.wireFields_eq hf hg
  have hmem : ∀ x ∈ m.bodyFields, x ∈ m.wireFields := fun x hx => by simp [hfields, hx]
  have htype : g.tag = .msgType := Message.tag_of_find? hg
  refine ⟨f, g, hfields ▸ hsoh, hf, hg, ?_, ?_⟩
  · refine canonical_ofFields _ (htype ▸ by decide) ?_ ?_ (Message.liftedInPlace_bodyFields m)
    · exact fun x hx => htags x (Message.mem_of_mem_wireFields (hmem x hx))
    · exact fun x hx => Message.isComputed_of_mem_wireFields (hmem x hx)
  · rw [bytes_ofFields, Message.body_eq hg]

theorem canonical_of_encode_message (hp : p.Sealed) (h : p.message.encode = .ok p.bytes) :
    p.Canonical := by
  have hsoh : ∀ x ∈ p.message.wireFields, Bytes.soh ∉ x.value.wire := by
    intro x hx
    obtain ⟨s, hs, rfl⟩ := List.mem_map.mp (Message.mem_of_mem_wireFields hx)
    rw [Segment.wire_field (hp.valid_value s hs)]
    exact s.soh_notMem
  -- The frame that the writer makes has the same bytes, so it is the frame that was read.
  obtain ⟨f, g, hsoh', -, -, hcanonical, hbytes⟩ := exists_canonical_of_encode h hsoh
  rwa [eq_of_bytes_eq hbytes]

end Message

end WireFrame

namespace Frame

open WireFrame

/-- Writing what was read gives the same bytes exactly for canonical frames. For all others
it gives different bytes, or it fails at a tag that is zero. -/
theorem encode_eq_ok_iff_canonical {b rest : Bytes} {m : Message}
    (h : decode true b = (.ok m, rest)) :
    ∃ p : WireFrame, (p.Sealed ∧ b = p.bytes ++ rest ∧
      ∀ q : WireFrame, b = q.bytes ++ rest → q = p) ∧
        (m.encode = .ok p.bytes ↔ p.Canonical) ∧
          (¬ p.Canonical → (∃ other, m.encode = .ok other ∧ other ≠ p.bytes) ∨
            m.encode = .error (.invalidTag 0)) := by
  obtain ⟨p, -, hp, rfl, rfl⟩ := exists_of_decode h
  have hiff : p.message.encode = .ok p.bytes ↔ p.Canonical :=
    ⟨canonical_of_encode_message (hp rfl), encode_message_of_canonical (hp rfl)⟩
  refine ⟨p, ⟨hp rfl, rfl, ?_⟩, hiff, ?_⟩
  · intro q hq
    exact eq_of_bytes_eq (List.append_cancel_right hq).symm
  · intro hnot
    have hencode := (hp rfl).encode_message
    split at hencode
    · exact .inl ⟨_, hencode, fun hsame => hnot (hiff.mp (hencode.trans (congrArg _ hsame)))⟩
    · exact .inr hencode

/-- A frame whose sequence number comes before the identifiers is read, but not written. -/
theorem encode_eq_ok_iff_canonical_sequence : ∃ p : WireFrame, p.Sealed ∧
    p.bytes = Utf8.encode "8=FIX.4.4\x019=20\x0135=0\x0134=2\x0149=A\x0156=B\x0110=126\x01" ∧
    ¬ p.Canonical := by
  have h : decode true (Utf8.encode
      "8=FIX.4.4\x019=20\x0135=0\x0134=2\x0149=A\x0156=B\x0110=126\x01") =
      (.ok ⟨[⟨.beginString, .text "FIX.4.4"⟩, ⟨.msgType, .text "0"⟩, ⟨34, .text "2"⟩,
        ⟨.senderCompId, .text "A"⟩, ⟨.targetCompId, .text "B"⟩]⟩, []) := by
    with_unfolding_all rfl
  have hother : Message.encode ⟨[⟨.beginString, .text "FIX.4.4"⟩, ⟨.msgType, .text "0"⟩,
      ⟨34, .text "2"⟩, ⟨.senderCompId, .text "A"⟩, ⟨.targetCompId, .text "B"⟩]⟩ =
      .ok (Utf8.encode "8=FIX.4.4\x019=20\x0135=0\x0149=A\x0156=B\x0134=2\x0110=126\x01") := by
    with_unfolding_all rfl
  obtain ⟨p, ⟨hp, hbytes, -⟩, hiff, -⟩ := encode_eq_ok_iff_canonical h
  rw [List.append_nil] at hbytes
  refine ⟨p, hp, hbytes.symm, fun hcanonical => ?_⟩
  have hsame := Except.ok.inj (hother.symm.trans (hiff.mpr hcanonical))
  exact absurd (Utf8.encode_injective (hsame.trans hbytes.symm)) (by decide)

end Frame

end FixClient
