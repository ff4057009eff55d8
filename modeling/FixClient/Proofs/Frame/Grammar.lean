import FixClient.Frame.Reader
import FixClient.Proofs.Frame.Segment

/-!
# The grammar of frames

A frame is a row of segments: BeginString, BodyLength, MsgType, the rest of the body and
the first CheckSum after it. The declared length and the checksum tie these segments
together. Reading succeeds exactly where such a row stands, stops behind it and returns
its texts; no two rows start at the same place.
-/

namespace FixClient

theorem Value.wire_text (s : String) : (Value.text s).wire = Utf8.encode s :=
  congrArg Utf8.encode String.ofList_toList

/-- The field of a message that a segment becomes. -/
def Segment.field (s : Segment) : Field := ⟨s.tag, .text (Utf8.text s.value)⟩

theorem Segment.wire_field {s : Segment} (h : Utf8.Valid s.value) : s.field.value.wire = s.value :=
  (Value.wire_text _).trans (Utf8.encode_text h)

/-- The segments of a frame. -/
@[ext] structure WireFrame where
  beginString : Segment
  bodyLength : Segment
  msgType : Segment
  /-- What stands between MsgType and CheckSum. -/
  body : List Segment
  checkSum : Segment

namespace WireFrame

/-- What BodyLength counts. -/
def counted (p : WireFrame) : List Segment := p.msgType :: p.body

/-- What CheckSum covers. -/
def covered (p : WireFrame) : List Segment := p.beginString :: p.bodyLength :: p.counted

def segments (p : WireFrame) : List Segment := p.covered ++ [p.checkSum]

def countedBytes (p : WireFrame) : Bytes := p.counted.flatMap Segment.bytes

def coveredBytes (p : WireFrame) : Bytes := p.covered.flatMap Segment.bytes

def bytes (p : WireFrame) : Bytes := p.segments.flatMap Segment.bytes

/-- The segments without BodyLength and CheckSum, as fields. -/
def message (p : WireFrame) : Message := ⟨(p.beginString :: p.counted).map Segment.field⟩

/-- The rules for each segment but the value of the last one, `n` being the length that
the second one declares. -/
structure Declares (p : WireFrame) (n : Nat) : Prop where
  beginString_tag : p.beginString.tag = .beginString
  beginString_value : WireField.protocolName <+: p.beginString.value
  bodyLength_tag : p.bodyLength.tag = .bodyLength
  bodyLength_value : WireField.IsSize p.bodyLength.value n
  msgType_tag : p.msgType.tag = .msgType
  body_tag : ∀ s ∈ p.body, s.tag ≠ .checkSum
  checkSum_tag : p.checkSum.tag = .checkSum
  valid_value : ∀ s ∈ p.beginString :: p.counted, Utf8.Valid s.value

/-- The rules for frames. The declared length is that of the body, and the last value is
three digits, the sum of all bytes before its segment modulo 256. -/
structure Sealed (p : WireFrame) : Prop extends p.Declares p.countedBytes.length where
  checkSum_value : ∃ ds : List Char, p.checkSum.value = Bytes.ascii ds ∧ ds.length = 3 ∧
    (∀ c ∈ ds, c.isDigit = true) ∧
    Numeral.value ds = (p.coveredBytes.map UInt8.toNat).sum % 256

section Layout

theorem forall_mem_segments {p : WireFrame} {P : Segment → Prop} :
    (∀ s ∈ p.segments, P s) ↔
      P p.beginString ∧ P p.bodyLength ∧ P p.msgType ∧ (∀ s ∈ p.body, P s) ∧ P p.checkSum := by
  simp [segments, covered, counted, or_imp, forall_and]

theorem coveredBytes_append (p : WireFrame) (rest : Bytes) : p.coveredBytes ++ rest =
    p.beginString.bytes ++ (p.bodyLength.bytes ++ (p.countedBytes ++ rest)) := by
  simp [coveredBytes, covered, countedBytes]

theorem bytes_eq (p : WireFrame) : p.bytes = p.coveredBytes ++ p.checkSum.bytes := by
  simp [bytes, segments, coveredBytes]

theorem bytes_append (p : WireFrame) (rest : Bytes) : p.bytes ++ rest =
    p.beginString.bytes ++
      (p.bodyLength.bytes ++ (p.countedBytes ++ (p.checkSum.bytes ++ rest))) := by
  rw [bytes_eq, List.append_assoc, coveredBytes_append]

theorem countedBytes_append (p : WireFrame) (rest : Bytes) :
    p.countedBytes ++ rest = p.msgType.bytes ++ (p.body.flatMap Segment.bytes ++ rest) := by
  simp [countedBytes, counted]

theorem length_countedBytes_pos (p : WireFrame) : 0 < p.countedBytes.length := by
  rw [← List.append_nil p.countedBytes, countedBytes_append, List.length_append]
  exact Nat.add_pos_left (List.length_pos_iff.mpr p.msgType.bytes_ne_nil) _

/-- The last value is the one that is written for the sum. -/
theorem checkSum_value_iff (p : WireFrame) :
    (∃ ds : List Char, p.checkSum.value = Bytes.ascii ds ∧ ds.length = 3 ∧
      (∀ c ∈ ds, c.isDigit = true) ∧
      Numeral.value ds = (p.coveredBytes.map UInt8.toNat).sum % 256) ↔
    p.checkSum.value = CheckSum.text (CheckSum.ofBytes p.coveredBytes) := by
  rw [← CheckSum.toNat_ofBytes]
  constructor
  · rintro ⟨ds, hds, hlen, hdigits, hvalue⟩
    rw [hds]
    exact (CheckSum.text_eq_iff hdigits).mpr ⟨hlen, hvalue⟩
  · intro h
    have hfixed := (CheckSum.isNumeral_fixed (CheckSum.ofBytes p.coveredBytes).toNat).2
    exact ⟨_, h, (CheckSum.text_eq_iff hfixed).mp rfl |>.1, hfixed, CheckSum.value_fixed _⟩

theorem Declares.message_eq {p : WireFrame} {n : Nat} (h : p.Declares n) : p.message =
    ⟨⟨.beginString, .text (Utf8.text p.beginString.value)⟩ ::
      ⟨.msgType, .text (Utf8.text p.msgType.value)⟩ :: p.body.map Segment.field⟩ := by
  simp [message, counted, Segment.field, h.beginString_tag, h.msgType_tag]

/-- A tag of two digits, three digits and two signs fill the trailer. -/
theorem Sealed.trailerSize_le {p : WireFrame} (h : p.Sealed) :
    Frame.trailerSize ≤ p.checkSum.bytes.length := by
  obtain ⟨ds, hds, hlen, -⟩ := h.checkSum_value
  have hten : Numeral.value p.checkSum.digits = 10 := by
    rw [← Segment.toNat_tag, h.checkSum_tag]
    rfl
  have hlt := hten ▸ Numeral.value_lt p.checkSum.isNumeral.2
  have htwo : 1 < p.checkSum.digits.length := (Nat.pow_lt_pow_iff_right (a := 10) (by decide)).mp hlt
  simp only [Segment.bytes, hds, Frame.trailerSize, List.length_append, List.length_cons,
    Bytes.length_ascii, List.length_nil, hlen]
  omega

end Layout

end WireFrame

namespace Frame

open WireFrame

section Complete

theorem readHeader_bytes {p : WireFrame} {n : Nat} (h : p.Declares n) {rest : Bytes}
    (hroom : n + trailerSize ≤ (p.countedBytes ++ rest).length) :
    readHeader (p.coveredBytes ++ rest) = (.ok (p.beginString.wire, n), p.countedBytes ++ rest) := by
  have htag : p.beginString.wire.tag = .beginString := h.beginString_tag
  have hname : p.beginString.wire.namesProtocol = true :=
    List.isPrefixOf_iff_prefix.mpr h.beginString_value
  have htag' : p.bodyLength.wire.tag = .bodyLength := h.bodyLength_tag
  have hsize : p.bodyLength.wire.size = .ok n := WireField.size_eq_ok_iff.mpr h.bodyLength_value
  have hroom' := Nat.not_lt.mpr hroom
  rw [coveredBytes_append, readHeader]
  simp only [Segment.next?_bytes_append, htag, hname, htag', hsize, hroom']
  simp

theorem readBody_of_next? {input rest : Bytes} {f : WireField}
    (h : WireField.next? input = some (f, rest)) : readBody input =
      if f.tag = .checkSum then (.ok ⟨[], f, input⟩, rest)
      else
        match f.text with
        | .error e => (.error e, rest)
        | .ok s =>
          match readBody rest with
          | (.error e, left) => (.error e, left)
          | (.ok body, left) => (.ok { body with fields := ⟨f.tag, .text s⟩ :: body.fields }, left) := by
  rw [readBody]
  split
  · simp_all
  · next f' rest' hnext =>
    obtain ⟨rfl, rfl⟩ := Prod.mk.inj (Option.some.inj (hnext.symm.trans h))
    rfl

theorem readBody_bytes {ss : List Segment} {last : Segment} (hlast : last.tag = .checkSum)
    (htag : ∀ s ∈ ss, s.tag ≠ .checkSum) (hvalid : ∀ s ∈ ss, Utf8.Valid s.value) (rest : Bytes) :
    readBody (ss.flatMap Segment.bytes ++ (last.bytes ++ rest)) =
      (.ok ⟨ss.map Segment.field, last.wire, last.bytes ++ rest⟩, rest) := by
  induction ss with
  | nil => exact (readBody_of_next? (last.next?_bytes_append rest)).trans (if_pos hlast)
  | cons s ss ih =>
      have hs : s.wire.tag ≠ .checkSum := htag s List.mem_cons_self
      have htext : s.wire.text = .ok (Utf8.text s.value) :=
        WireField.text_eq_ok_iff.mpr (Utf8.encode_text (hvalid s List.mem_cons_self))
      have hrest := ih (fun t ht => htag t (List.mem_cons_of_mem s ht))
        (fun t ht => hvalid t (List.mem_cons_of_mem s ht))
      rw [List.flatMap_cons, List.append_assoc,
        readBody_of_next? (s.next?_bytes_append _), if_neg hs, htext, hrest]
      rfl

theorem verify_eq_ok_iff {f : WireField} {bs : Bytes} :
    verify f bs = .ok () ↔ f.bytes = CheckSum.text (CheckSum.ofBytes bs) := by
  rw [← CheckSum.ofText?_eq_some_iff, verify]
  cases CheckSum.ofText? f.bytes with
  | none => simp
  | some sum =>
      by_cases hsum : CheckSum.ofBytes bs = sum
      · simp [hsum]
      · simp [hsum, Ne.symm hsum]

/-- Once the header is read, the row of segments behind it decides what comes out. -/
theorem decode_of_readHeader {p : WireFrame} {n : Nat} (h : p.Declares n) {rest : Bytes}
    (hheader : readHeader (p.bytes ++ rest) =
      (.ok (p.beginString.wire, n), p.countedBytes ++ (p.checkSum.bytes ++ rest)))
    (validate : Bool) : decode validate (p.bytes ++ rest) =
      if p.countedBytes.length ≠ n then (.error (.bodyLengthMismatch n p.countedBytes.length), rest)
      else if validate then
        ((verify p.checkSum.wire p.coveredBytes).map fun _ => p.message, rest)
      else (.ok p.message, rest) := by
  have hnext : WireField.next? (p.countedBytes ++ (p.checkSum.bytes ++ rest)) =
      some (p.msgType.wire, p.body.flatMap Segment.bytes ++ (p.checkSum.bytes ++ rest)) := by
    rw [countedBytes_append, Segment.next?_bytes_append]
  have htag : p.msgType.wire.tag = .msgType := h.msgType_tag
  have htext : p.beginString.wire.text = .ok (Utf8.text p.beginString.value) :=
    WireField.text_eq_ok_iff.mpr (Utf8.encode_text (h.valid_value _ (by simp)))
  have htext' : p.msgType.wire.text = .ok (Utf8.text p.msgType.value) :=
    WireField.text_eq_ok_iff.mpr (Utf8.encode_text (h.valid_value _ (by simp [counted])))
  have hbody := readBody_bytes h.checkSum_tag h.body_tag
    (fun s hs => h.valid_value s (by simp [counted, hs])) rest
  have hsplit : p.bytes ++ rest = p.coveredBytes ++ (p.checkSum.bytes ++ rest) := by
    rw [bytes_eq, List.append_assoc]
  rw [decode, hheader]
  simp only [hnext, htag, htext, htext', hbody, h.message_eq, hsplit,
    List.length_append, Nat.add_sub_cancel, List.take_left, bne_self_eq_false, Bool.false_eq_true,
    if_false]
  cases verify p.checkSum.wire p.coveredBytes <;> rfl

/-- Where a frame stands, it is read and nothing behind it is. -/
theorem decode_bytes {p : WireFrame} (h : p.Sealed) (validate : Bool) (rest : Bytes) :
    decode validate (p.bytes ++ rest) = (.ok p.message, rest) := by
  have hroom : p.countedBytes.length + trailerSize ≤
      (p.countedBytes ++ (p.checkSum.bytes ++ rest)).length := by
    have hsize := h.trailerSize_le
    simp only [List.length_append]
    omega
  have hheader := readHeader_bytes h.toDeclares hroom
  rw [← List.append_assoc, ← bytes_eq] at hheader
  have hverify : verify p.checkSum.wire p.coveredBytes = .ok () :=
    verify_eq_ok_iff.mpr (p.checkSum_value_iff.mp h.checkSum_value)
  rw [decode_of_readHeader h.toDeclares hheader, hverify, if_neg (by simp)]
  cases validate <;> rfl

end Complete

section Sound

theorem exists_of_readHeader {input body : Bytes} {f : WireField} {n : Nat}
    (h : readHeader input = (.ok (f, n), body)) :
    ∃ s t : Segment, s.wire = f ∧ input = s.bytes ++ (t.bytes ++ body) ∧ s.tag = .beginString ∧
      WireField.protocolName <+: s.value ∧ t.tag = .bodyLength ∧ WireField.IsSize t.value n := by
  unfold readHeader at h
  split at h
  · cases h
  · next f rest hf =>
    split at h
    · cases h
    · next hbegin =>
      split at h
      · cases h
      · next g body hg =>
        split at h
        · cases h
        · next hlength =>
          split at h
          · cases h
          · next n hn =>
            split at h
            · cases h
            · cases h
              obtain ⟨s, rfl, rfl⟩ := Segment.exists_of_next? hf
              obtain ⟨t, rfl, rfl⟩ := Segment.exists_of_next? hg
              simp only [bne_iff_ne, ne_eq, Bool.or_eq_true, Bool.not_eq_true', not_or,
                Decidable.not_not, Bool.not_eq_false] at hbegin hlength
              exact ⟨s, t, rfl, rfl, hbegin.1, List.isPrefixOf_iff_prefix.mp hbegin.2, hlength,
                WireField.size_eq_ok_iff.mp hn⟩

theorem exists_of_readBody {input rest : Bytes} {read : Body}
    (h : readBody input = (.ok read, rest)) :
    ∃ (ss : List Segment) (last : Segment), last.tag = .checkSum ∧
      (∀ s ∈ ss, s.tag ≠ .checkSum) ∧ (∀ s ∈ ss, Utf8.Valid s.value) ∧
      input = ss.flatMap Segment.bytes ++ (last.bytes ++ rest) ∧
      read = ⟨ss.map Segment.field, last.wire, last.bytes ++ rest⟩ := by
  fun_induction readBody input generalizing read rest with
  | case1 => cases h
  | case2 input f left hnext htag =>
      cases h
      obtain ⟨last, rfl, rfl⟩ := Segment.exists_of_next? hnext
      exact ⟨[], last, htag, by simp, by simp, rfl, rfl⟩
  | case3 => cases h
  | case4 => cases h
  | case5 input f left hnext htag s hs read' left' hread ih =>
      cases h
      obtain ⟨first, rfl, rfl⟩ := Segment.exists_of_next? hnext
      obtain ⟨ss, last, hlast, htags, hvalid, rfl, rfl⟩ := ih hread
      have hencode : Utf8.encode s = first.value := WireField.text_eq_ok_iff.mp hs
      have hfield : first.field = ⟨first.tag, .text s⟩ := by
        rw [Segment.field, ← hencode, Utf8.text_encode]
      refine ⟨first :: ss, last, hlast, ?_, ?_, ?_, ?_⟩
      · exact List.forall_mem_cons.mpr ⟨htag, htags⟩
      · exact List.forall_mem_cons.mpr ⟨⟨s, hencode⟩, hvalid⟩
      · rw [List.flatMap_cons, List.append_assoc]
      · rw [List.map_cons, hfield]
        rfl

/-- A successful call has read a row of segments up to a checksum. -/
theorem exists_row_of_decode {validate : Bool} {input rest : Bytes} {m : Message}
    (h : decode validate input = (.ok m, rest)) :
    ∃ (p : WireFrame) (n : Nat) (left : Bytes), p.Declares n ∧ input = p.bytes ++ left ∧
      readHeader input =
        (.ok (p.beginString.wire, n), p.countedBytes ++ (p.checkSum.bytes ++ left)) := by
  unfold decode at h
  split at h
  · cases h
  · next f n body hheader =>
    split at h
    · cases h
    · next g afterType hnext =>
      split at h
      · cases h
      · next htype =>
        split at h
        · cases h
        · cases h
        · next beginText typeText hbegin htypeText =>
          split at h
          · cases h
          · next read left hread =>
            clear h
            obtain ⟨s, t, rfl, rfl, hs, hname, ht, hsize⟩ := exists_of_readHeader hheader
            obtain ⟨u, rfl, rfl⟩ := Segment.exists_of_next? hnext
            obtain ⟨ss, last, hlast, htags, hvalid, rfl, rfl⟩ := exists_of_readBody hread
            have hu : u.wire.tag = .msgType := by simpa using htype
            have hvalid' : ∀ v ∈ s :: u :: ss, Utf8.Valid v.value :=
              List.forall_mem_cons.mpr ⟨⟨_, WireField.text_eq_ok_iff.mp hbegin⟩,
                List.forall_mem_cons.mpr ⟨⟨_, WireField.text_eq_ok_iff.mp htypeText⟩, hvalid⟩⟩
            let p : WireFrame := ⟨s, t, u, ss, last⟩
            have hsplit := p.countedBytes_append (last.bytes ++ left)
            refine ⟨p, n, left, ⟨hs, hname, ht, hsize, hu, htags, hlast, hvalid'⟩, ?_, ?_⟩
            · rw [p.bytes_append, hsplit]
            · rw [hsplit]
              exact hheader

/-- What is read as a frame is a frame. -/
theorem exists_of_decode {validate : Bool} {input rest : Bytes} {m : Message}
    (h : decode validate input = (.ok m, rest)) :
    ∃ p : WireFrame, p.Declares p.countedBytes.length ∧ (validate = true → p.Sealed) ∧
      input = p.bytes ++ rest ∧ m = p.message := by
  obtain ⟨p, n, left, hp, rfl, hheader⟩ := exists_row_of_decode h
  rw [decode_of_readHeader hp hheader] at h
  split at h
  · cases h
  · next hlength =>
    obtain rfl : p.countedBytes.length = n := Decidable.not_not.mp hlength
    cases validate with
    | false =>
        cases h
        exact ⟨p, hp, by simp, rfl, rfl⟩
    | true =>
        cases hverify : verify p.checkSum.wire p.coveredBytes with
        | error e =>
            rw [hverify] at h
            cases h
        | ok u =>
            rw [hverify] at h
            cases h
            have hsum := p.checkSum_value_iff.mpr (verify_eq_ok_iff.mp hverify)
            exact ⟨p, hp, fun _ => ⟨hp, hsum⟩, rfl, rfl⟩

end Sound

section Unique

/-- The first CheckSum ends a row of segments, so the row is determined by its bytes. -/
theorem row_inj {l r : List Segment} {s t : Segment} {rest rest' : Bytes}
    (hs : s.tag = .checkSum) (ht : t.tag = .checkSum) (hl : ∀ u ∈ l, u.tag ≠ .checkSum)
    (hr : ∀ u ∈ r, u.tag ≠ .checkSum)
    (h : l.flatMap Segment.bytes ++ (s.bytes ++ rest) =
      r.flatMap Segment.bytes ++ (t.bytes ++ rest')) : l = r ∧ s = t ∧ rest = rest' := by
  induction l generalizing r with
  | nil =>
      cases r with
      | nil => exact ⟨rfl, Segment.bytes_append_inj h⟩
      | cons v r =>
          rw [List.flatMap_cons, List.append_assoc] at h
          obtain ⟨rfl, -⟩ := Segment.bytes_append_inj h
          exact absurd hs (hr s List.mem_cons_self)
  | cons u l ih =>
      rw [List.flatMap_cons, List.append_assoc] at h
      cases r with
      | nil =>
          obtain ⟨rfl, -⟩ := Segment.bytes_append_inj h
          exact absurd ht (hl u List.mem_cons_self)
      | cons v r =>
          rw [List.flatMap_cons, List.append_assoc] at h
          obtain ⟨rfl, hrest⟩ := Segment.bytes_append_inj h
          obtain ⟨rfl, hlast⟩ := ih (fun w hw => hl w (List.mem_cons_of_mem u hw))
            (fun w hw => hr w (List.mem_cons_of_mem u hw)) hrest
          exact ⟨rfl, hlast⟩

/-- No two frames start at the same place. -/
theorem bytes_append_inj {p q : WireFrame} {n k : Nat} (hp : p.Declares n) (hq : q.Declares k)
    {rest rest' : Bytes} (h : p.bytes ++ rest = q.bytes ++ rest') : p = q ∧ rest = rest' := by
  rw [p.bytes_append, q.bytes_append] at h
  obtain ⟨hbegin, h⟩ := Segment.bytes_append_inj h
  obtain ⟨hlength, h⟩ := Segment.bytes_append_inj h
  rw [p.countedBytes_append, q.countedBytes_append] at h
  obtain ⟨htype, h⟩ := Segment.bytes_append_inj h
  obtain ⟨hbody, hlast, hrest⟩ := row_inj hp.checkSum_tag hq.checkSum_tag hp.body_tag hq.body_tag h
  exact ⟨WireFrame.ext hbegin hlength htype hbody hlast, hrest⟩

end Unique

theorem message_wire {p : WireFrame} {n : Nat} (h : p.Declares n) :
    p.message.fields.map (fun f => (f.tag, f.value.wire)) =
      (p.beginString :: p.counted).map fun s => (s.tag, s.value) := by
  rw [message, List.map_map]
  refine List.map_congr_left fun s hs => ?_
  exact congrArg (Prod.mk s.tag) (Segment.wire_field (h.valid_value s hs))

/-- Reading succeeds exactly on the byte strings that start with a frame. This frame is
unique; reading stops behind it and returns the texts of its segments in their order.
Lengths are natural numbers here, so no declared length is too large to be added to. -/
theorem decode_ok_iff_exists_sealed (b : Bytes) :
    ((∃ m rest, decode true b = (.ok m, rest)) ↔ ∃ p : WireFrame, p.Sealed ∧ p.bytes <+: b) ∧
      (∀ p q : WireFrame, p.Sealed → q.Sealed → p.bytes <+: b → q.bytes <+: b → p = q) ∧
      ∀ (p : WireFrame) (rest : Bytes), p.Sealed → b = p.bytes ++ rest →
        decode true b = (.ok p.message, rest) ∧
          p.message.fields.map (fun f => (f.tag, f.value.wire)) =
            (p.beginString :: p.counted).map fun s => (s.tag, s.value) := by
  refine ⟨⟨?_, ?_⟩, ?_, ?_⟩
  · rintro ⟨m, rest, h⟩
    obtain ⟨p, -, hp, rfl, -⟩ := exists_of_decode h
    exact ⟨p, hp rfl, List.prefix_append p.bytes rest⟩
  · rintro ⟨p, hp, rest, rfl⟩
    exact ⟨p.message, rest, decode_bytes hp true rest⟩
  · rintro p q hp hq ⟨rest, rfl⟩ ⟨rest', h⟩
    exact (bytes_append_inj hp.toDeclares hq.toDeclares h.symm).1
  · rintro p rest hp rfl
    exact ⟨decode_bytes hp true rest, message_wire hp.toDeclares⟩

/-- A sign, leading zeros, an empty value, repeated fields and a BodyLength in the body are in the
grammar. -/
theorem decode_ok_iff_exists_sealed_loose : ∃ (p : WireFrame) (rest : Bytes), p.Sealed ∧
    p.bytes ++ rest = Utf8.encode
      "008=FIX.4.4\x019=+021\x0135=0\x01058=\x0135=a=b\x019=7\x0110=187\x018=F" ∧
    decode true (p.bytes ++ rest) = (.ok p.message, rest) := by
  obtain ⟨hiff, -, hread⟩ := decode_ok_iff_exists_sealed (Utf8.encode
    "008=FIX.4.4\x019=+021\x0135=0\x01058=\x0135=a=b\x019=7\x0110=187\x018=F")
  obtain ⟨p, hp, rest, hsplit⟩ := hiff.mp ⟨⟨[⟨.beginString, .text "FIX.4.4"⟩, ⟨.msgType, .text "0"⟩,
    ⟨58, .text ""⟩, ⟨.msgType, .text "a=b"⟩, ⟨.bodyLength, .text "7"⟩]⟩, [0x38, 0x3d, 0x46],
    by with_unfolding_all rfl⟩
  exact ⟨p, rest, hp, hsplit, hsplit ▸ (hread p rest hp hsplit.symm).1⟩

end Frame

end FixClient
