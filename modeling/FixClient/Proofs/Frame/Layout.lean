import FixClient.Proofs.Frame.Segment
import FixClient.Proofs.Frame.WireOrder

/-!
# The layout of a frame

The frame of a message, written out byte by byte: BeginString, the length of the body, the
body and the sum of all that. The body begins with the first field of each header tag; what
remains follows by place. The writer produces this layout and fails where it has no place
to begin. Computed fields of the message have no place in it, so they change nothing.
-/

namespace FixClient

namespace Frame

/-- The last three digits of a number. -/
def threeDigits (n : Nat) : Bytes :=
  Bytes.ascii [Nat.digitChar (n / 100 % 10), Nat.digitChar (n / 10 % 10), Nat.digitChar (n % 10)]

/-- Everything in front of the field of the checksum. -/
def front (beginString body : Bytes) : Bytes :=
  Bytes.ascii ['8', '='] ++ beginString ++ [Bytes.soh] ++
    Bytes.ascii ['9', '='] ++ Bytes.ascii (Numeral.digits body.length) ++ [Bytes.soh] ++ body

def layout (beginString body : Bytes) : Bytes :=
  front beginString body ++ Bytes.ascii ['1', '0', '='] ++
    threeDigits (((front beginString body).map UInt8.toNat).sum % 256) ++ [Bytes.soh]

theorem write_beginString (bs : Bytes) : WireField.write .beginString bs =
    Bytes.ascii ['8', '='] ++ bs ++ [Bytes.soh] := by
  have htext : Tag.beginString.text = ['8'] := by decide
  rw [WireField.write, htext]
  rfl

theorem write_bodyLength (bs : Bytes) : WireField.write .bodyLength bs =
    Bytes.ascii ['9', '='] ++ bs ++ [Bytes.soh] := by
  have htext : Tag.bodyLength.text = ['9'] := by decide
  rw [WireField.write, htext]
  rfl

theorem write_checkSum (bs : Bytes) : WireField.write .checkSum bs =
    Bytes.ascii ['1', '0', '='] ++ bs ++ [Bytes.soh] := by
  have htext : Tag.checkSum.text = ['1', '0'] := by decide
  rw [WireField.write, htext]
  rfl

theorem unsealed_eq_front (beginString body : Bytes) :
    unsealed beginString body = front beginString body := by
  rw [unsealed, write_beginString, write_bodyLength, front]
  simp only [List.append_assoc]

theorem text_ofBytes (bs : Bytes) :
    CheckSum.text (CheckSum.ofBytes bs) = threeDigits ((bs.map UInt8.toNat).sum % 256) := by
  rw [CheckSum.text, CheckSum.toNat_ofBytes, threeDigits]
  generalize (bs.map UInt8.toNat).sum % 256 = n
  have hdiv : n / 10 / 10 = n / 100 := Nat.div_div_eq_div_mul n 10 10
  simp only [Numeral.fixed, hdiv, List.nil_append, List.cons_append]

theorem ofBody_eq_layout (beginString body : Bytes) :
    ofBody beginString body = layout beginString body := by
  rw [ofBody, unsealed_eq_front, write_checkSum, text_ofBytes, layout]
  simp only [List.append_assoc]

end Frame

namespace Message

variable {m n : Message} {f g : Field} {fs : List Field} {t : Tag} {tags : List Tag}

def line (f : Field) : Bytes :=
  Bytes.ascii (Numeral.digits f.tag.number.toNat) ++ Bytes.ascii ['='] ++ f.value.wire ++ [Bytes.soh]

/-- The frame of a message by its layout, or what is missing. -/
def reference (m : Message) : Except EncodeError Bytes :=
  match m.find? .beginString, m.find? .msgType with
  | none, _ => .error (.missingField .beginString)
  | some _, none => .error (.missingField .msgType)
  | some beginString, some msgType =>
    if ∃ f ∈ m.fields, f.tag = 0 then .error (.invalidTag 0)
    else .ok (Frame.layout beginString.value.wire ((msgType :: m.bodyFields).flatMap line))

theorem writeField_eq_line : writeField = line := by
  funext f
  rw [writeField, WireField.write, line, Tag.text]
  simp [Bytes.ascii, Bytes.equals]

theorem encode_eq_layout (hf : m.find? .beginString = some f) (hg : m.find? .msgType = some g)
    (htags : ∀ h ∈ m.fields, h.tag ≠ 0) :
    m.encode = .ok (Frame.layout f.value.wire ((g :: m.bodyFields).flatMap line)) := by
  rw [encode_of_find? hf hg, if_pos htags, body_eq hg, writeField_eq_line, Frame.ofBody_eq_layout]

theorem encode_of_mem_zero (hf : m.find? .beginString = some f) (hg : m.find? .msgType = some g)
    (hzero : ∃ h ∈ m.fields, h.tag = 0) : m.encode = .error (.invalidTag 0) := by
  rw [encode_of_find? hf hg, if_neg]
  intro htags
  obtain ⟨h, hmem, htag⟩ := hzero
  exact htags h hmem htag

section Computed

/-- The fields that the writer does not compute itself. -/
def givenFields (m : Message) : List Field := m.fields.filter fun f => !f.tag.isComputed

theorem filter_removeFirst (p : Field → Bool) (h : ∀ f : Field, f.tag = t → p f = true) :
    (removeFirst fs t).filter p = removeFirst (fs.filter p) t := by
  induction fs with
  | nil => rfl
  | cons f fs ih =>
      by_cases ht : f.tag = t
      · rw [removeFirst_cons_of_eq ht, List.filter_cons_of_pos (h f ht), removeFirst_cons_of_eq ht]
      · rw [removeFirst_cons_of_ne ht, List.filter_cons, List.filter_cons]
        split
        · rw [ih, removeFirst_cons_of_ne ht]
        · exact ih

theorem filter_foldl_removeFirst (p : Field → Bool)
    (h : ∀ f : Field, f.tag ∈ tags → p f = true) :
    (tags.foldl removeFirst fs).filter p = tags.foldl removeFirst (fs.filter p) := by
  induction tags generalizing fs with
  | nil => rfl
  | cons t tags ih =>
      have ht : ∀ f : Field, f.tag = t → p f = true := fun f hf => h f (hf ▸ List.mem_cons_self)
      have htags : ∀ f : Field, f.tag ∈ tags → p f = true :=
        fun f hf => h f (List.mem_cons_of_mem t hf)
      rw [List.foldl_cons, List.foldl_cons, ih htags, filter_removeFirst p ht]

theorem remaining_eq (m : Message) :
    m.remaining = leadingTags.foldl removeFirst m.givenFields := by
  have hleading : ∀ t ∈ leadingTags, t.isComputed = false := by decide
  rw [remaining_eq_filter, filter_foldl_removeFirst, givenFields]
  intro f hf
  rw [hleading f.tag hf]
  rfl

theorem find?_eq_of_givenFields (ht : t.isComputed = false) :
    m.find? t = m.givenFields.find? fun f => f.tag == t := by
  rw [givenFields, List.find?_filter, find?]
  congr 1
  funext f
  by_cases htag : f.tag = t <;> simp [htag, ht]

theorem exists_mem_givenFields_iff (ht : t.isComputed = false) :
    (∃ f ∈ m.fields, f.tag = t) ↔ ∃ f ∈ m.givenFields, f.tag = t := by
  constructor
  · rintro ⟨f, hf, rfl⟩
    refine ⟨f, List.mem_filter.mpr ⟨hf, ?_⟩, rfl⟩
    rw [ht]
    rfl
  · rintro ⟨f, hf, htag⟩
    exact ⟨f, (List.mem_filter.mp hf).1, htag⟩

theorem reference_congr (h : n.givenFields = m.givenFields) : n.reference = m.reference := by
  have hfind : ∀ t : Tag, t.isComputed = false → n.find? t = m.find? t := by
    intro t ht
    rw [find?_eq_of_givenFields ht, find?_eq_of_givenFields ht, h]
  have hbody : n.bodyFields = m.bodyFields := by
    rw [bodyFields, bodyFields, hfind _ (by decide), hfind _ (by decide), remaining_eq,
      remaining_eq, h]
  have hzero : (∃ f ∈ n.fields, f.tag = 0) ↔ ∃ f ∈ m.fields, f.tag = 0 := by
    rw [exists_mem_givenFields_iff (m := n) (by decide), h]
    exact (exists_mem_givenFields_iff (by decide)).symm
  rw [reference, reference, hfind _ (by decide), hfind _ (by decide), hbody]
  simp only [hzero]

end Computed

/-- The writer makes the frame that the layout describes, and it fails exactly where there is
none, a missing BeginString coming before a missing type and that before a zero tag. Messages
that differ only in computed fields, be they inserted anywhere and with any values, have the
same frame or the same error. -/
theorem encode_eq_reference (m : Message) :
    m.encode = m.reference ∧ ∀ n : Message, n.givenFields = m.givenFields → n.encode = m.encode := by
  have href : ∀ n : Message, n.encode = n.reference := by
    intro n
    cases hf : n.find? .beginString with
    | none =>
        rw [encode_of_no_beginString hf]
        simp only [reference, hf]
    | some f =>
        cases hg : n.find? .msgType with
        | none =>
            rw [encode_of_no_msgType hf hg]
            simp only [reference, hf, hg]
        | some g =>
            simp only [reference, hf, hg]
            split
            · next hzero => exact encode_of_mem_zero hf hg hzero
            · next hzero =>
              apply encode_eq_layout hf hg
              intro h hmem htag
              exact hzero ⟨h, hmem, htag⟩
  refine ⟨href m, ?_⟩
  intro n h
  rw [href n, href m, reference_congr h]

/-- Repeated fields stay where they are, and computed ones leave no trace. -/
theorem encode_eq_reference_stale :
    givenFields ⟨[⟨.checkSum, .text "999"⟩, ⟨.msgType, .text "0"⟩, ⟨.bodyLength, .text "\x01"⟩,
      ⟨.beginString, .text "FIX.4.4"⟩, ⟨.targetCompId, .text "B"⟩, ⟨.msgType, .text "1"⟩,
      ⟨.senderCompId, .text "A"⟩, ⟨.beginString, .text "F"⟩, ⟨.checkSum, .flag true⟩]⟩ =
      givenFields ⟨[⟨.msgType, .text "0"⟩, ⟨.beginString, .text "FIX.4.4"⟩,
        ⟨.targetCompId, .text "B"⟩, ⟨.msgType, .text "1"⟩, ⟨.senderCompId, .text "A"⟩,
        ⟨.beginString, .text "F"⟩]⟩ ∧
    encode ⟨[⟨.checkSum, .text "999"⟩, ⟨.msgType, .text "0"⟩, ⟨.bodyLength, .text "\x01"⟩,
      ⟨.beginString, .text "FIX.4.4"⟩, ⟨.targetCompId, .text "B"⟩, ⟨.msgType, .text "1"⟩,
      ⟨.senderCompId, .text "A"⟩, ⟨.beginString, .text "F"⟩, ⟨.checkSum, .flag true⟩]⟩ =
      .ok (Utf8.encode "8=FIX.4.4\x019=24\x0135=0\x0149=A\x0156=B\x0135=1\x018=F\x0110=062\x01") := by
  refine ⟨rfl, ?_⟩
  obtain ⟨hreference, hsame⟩ := encode_eq_reference ⟨[⟨.msgType, .text "0"⟩,
    ⟨.beginString, .text "FIX.4.4"⟩, ⟨.targetCompId, .text "B"⟩, ⟨.msgType, .text "1"⟩,
    ⟨.senderCompId, .text "A"⟩, ⟨.beginString, .text "F"⟩]⟩
  apply (hsame _ rfl).trans
  apply hreference.trans
  with_unfolding_all rfl

end Message

end FixClient
