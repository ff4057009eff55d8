import FixClient.Proofs.Frame.Boundary

/-!
# Frames delimit themselves

The declared length says where a frame ends, whatever its body holds: a body may contain
separators, equals signs and the text of a checksum field. Only the first two separators are
looked for, and they end BeginString and BodyLength. So a stream of frames is cut into these
frames, by induction on their number.
-/

namespace FixClient

/-- A field on its way into a body. -/
inductive FrameBody.Put where
  | value (tag : Tag) (v : Value)
  | text (tag : Tag) (s : String)
  | raw (tag : Tag) (bytes : Bytes)

def FrameBody.Put.into : FrameBody.Put → FrameBody → FrameBody
  | .value tag v, b => b.putValue tag v
  | .text tag s, b => b.putText tag s
  | .raw tag bytes, b => b.put tag bytes

/-- What a frame is made of. -/
structure FrameDraft where
  puts : List FrameBody.Put
  beginString : Bytes
  soh_notMem : Bytes.soh ∉ beginString

namespace FrameDraft

def body (d : FrameDraft) : FrameBody := d.puts.foldl (fun b p => p.into b) .empty

def frame (d : FrameDraft) : Bytes := d.body.finish d.beginString

end FrameDraft

namespace Frame

/-- The first frame of the input and what follows it. -/
def cutFirst? (input : Bytes) : Option (Bytes × Bytes) :=
  (length? input).map fun n => (input.take n, input.drop n)

/-- Cuts off some frames one after another. -/
def cutRun? : Nat → Bytes → Option (List Bytes × Bytes)
  | 0, input => some ([], input)
  | n + 1, input =>
    match cutFirst? input with
    | none => none
    | some (first, rest) => (cutRun? n rest).map fun parts => (first :: parts.1, parts.2)

variable {beginString body : Bytes}

theorem layout_append (beginString body t : Bytes) : layout beginString body ++ t =
    heading beginString (Bytes.ascii (Numeral.digits body.length)) ++ (body ++
      (Bytes.ascii ['1', '0', '='] ++ threeDigits
        (((front beginString body).map UInt8.toNat).sum % 256) ++ [Bytes.soh] ++ t)) := by
  rw [layout]
  generalize threeDigits _ = sum
  rw [front, heading, write_beginString, write_bodyLength]
  simp only [List.append_assoc]

theorem length_threeDigits (n : Nat) : (threeDigits n).length = 3 := rfl

theorem length_layout (beginString body : Bytes) : (layout beginString body).length =
    (heading beginString (Bytes.ascii (Numeral.digits body.length))).length +
      (body.length + trailerSize) := by
  have hlayout := layout_append beginString body []
  rw [List.append_nil] at hlayout
  simp only [hlayout, List.length_append, List.length_cons, List.length_nil, Bytes.length_ascii,
    length_threeDigits, trailerSize]

theorem length?_layout_append (h : Bytes.soh ∉ beginString) (hlen : body.length < 2 ^ 64)
    (t : Bytes) :
    length? (layout beginString body ++ t) = some (layout beginString body).length := by
  have hroom : (layout beginString body ++ t).length =
      (layout beginString body).length + t.length := List.length_append
  rw [length_layout, layout_append, List.length_append] at hroom
  rw [layout_append, length?_heading_append h (WireField.isSize_digits hlen), length_layout,
    if_pos (by omega)]

theorem cutFirst?_frame_append (d : FrameDraft) {t : Bytes}
    (hlen : (d.frame ++ t).length < 2 ^ 64) : cutFirst? (d.frame ++ t) = some (d.frame, t) := by
  have hframe : d.frame = layout d.beginString d.body.bytes := ofBody_eq_layout _ _
  rw [hframe, List.length_append, length_layout] at hlen
  rw [cutFirst?, hframe, length?_layout_append d.soh_notMem (by omega), Option.map_some,
    List.take_left, List.drop_left]

/-- A stream of frames is cut into exactly these frames, whatever their bodies hold and whatever
follows them. -/
theorem cutRun?_frames (ds : List FrameDraft) {t : Bytes}
    (hlen : ((ds.map FrameDraft.frame).flatten ++ t).length < 2 ^ 64) :
    cutRun? ds.length ((ds.map FrameDraft.frame).flatten ++ t) =
      some (ds.map FrameDraft.frame, t) := by
  induction ds with
  | nil => rfl
  | cons d ds ih =>
      rw [List.map_cons, List.flatten_cons, List.append_assoc] at hlen ⊢
      have hrest : ((ds.map FrameDraft.frame).flatten ++ t).length < 2 ^ 64 := by
        rw [List.length_append] at hlen
        omega
      rw [List.length_cons, cutRun?, cutFirst?_frame_append d hlen]
      simp only [ih hrest, Option.map_some]

/-- A body that holds separators and the text of a checksum field, an empty frame behind it and
the start of a third one. -/
theorem cutRun?_frames_embedded : cutRun? 2 (Utf8.encode
      "8=F\x019=13\x0158=a\x0110=000\x01\x0110=211\x018=\x019=0\x0110=029\x018=") =
    some ([Utf8.encode "8=F\x019=13\x0158=a\x0110=000\x01\x0110=211\x01",
      Utf8.encode "8=\x019=0\x0110=029\x01"], Utf8.encode "8=") := by
  have hcut := cutRun?_frames [⟨[.text 58 "a\x0110=000\x01"], Utf8.encode "F", by decide +kernel⟩,
    ⟨[], [], by decide⟩] (t := Utf8.encode "8=") (by decide +kernel)
  have hstream : ([⟨[.text 58 "a\x0110=000\x01"], Utf8.encode "F", by decide +kernel⟩,
      ⟨[], [], by decide⟩].map FrameDraft.frame).flatten ++ Utf8.encode "8=" =
      Utf8.encode "8=F\x019=13\x0158=a\x0110=000\x01\x0110=211\x018=\x019=0\x0110=029\x018=" := by
    with_unfolding_all rfl
  rw [hstream] at hcut
  apply hcut.trans
  with_unfolding_all rfl

end Frame

end FixClient
