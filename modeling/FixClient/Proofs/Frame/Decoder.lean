import FixClient.Proofs.Frame.FieldReader
import FixClient.Proofs.Frame.Grammar

/-!
# The place of a decoder

Between two calls a decoder stands at the start of its input or behind a separator. Every call
takes it over whole fields, also a call that fails in the middle of a frame, and the next call
reads on from there as from the start of an input. A field takes three bytes at least, so that
few fields are asked for. No part is ever taken outside of the input.
-/

namespace FixClient.Decoder

variable {d : Decoder} {segs : List Segment} {rest : Bytes}

/-- What the decoder has not read yet. -/
def left (d : Decoder) : Bytes := d.input.drop d.offset

/-- The decoder behind fields that it has read, having asked for some more in vain. -/
def passed (d : Decoder) (segs : List Segment) (missed : Nat) : Decoder :=
  { d with offset := d.offset + (segs.flatMap Segment.bytes).length,
           asked := d.asked + segs.length + missed }

theorem passed_singleton (d : Decoder) (s : Segment) : d.passed [s] 0 =
    { d with offset := d.offset + s.bytes.length, asked := d.asked + 1 } := by
  simp [passed]

structure Placed (d : Decoder) : Prop where
  offset_le : d.offset ≤ d.input.length
  boundary : d.offset = 0 ∨ d.input[d.offset - 1]? = some Bytes.soh

theorem remaining_eq (h : d.offset ≤ d.input.length) : d.remaining = .ok d.left :=
  Bytes.slice_eq (d.input.take d.offset) d.left [] (by simp [left]) (by simp) (by simp [left, h])

theorem length_left (d : Decoder) : d.left.length = d.input.length - d.offset := List.length_drop

theorem length_left_passed_le (d : Decoder) (segs : List Segment) (missed : Nat) :
    (d.passed segs missed).left.length ≤ d.left.length := by
  rw [length_left, length_left]
  exact Nat.sub_le_sub_left (Nat.le_add_right _ _) _

theorem left_passed (h : d.left = segs.flatMap Segment.bytes ++ rest) (missed : Nat) :
    (d.passed segs missed).left = rest := by
  rw [left, passed, ← List.drop_drop, ← left, h, List.drop_left]

theorem passed_passed (segs segs' : List Segment) (missed missed' : Nat) :
    (d.passed segs missed).passed segs' missed' = d.passed (segs ++ segs') (missed + missed') := by
  have hoffset : (d.passed segs missed).offset + (segs'.flatMap Segment.bytes).length =
      d.offset + ((segs ++ segs').flatMap Segment.bytes).length := by
    simp [passed, Nat.add_assoc]
  have hasked : (d.passed segs missed).asked + segs'.length + missed' =
      d.asked + (segs ++ segs').length + (missed + missed') := by
    simp only [passed, List.length_append]
    omega
  rw [passed, hoffset, hasked]
  rfl

/-- A decoder moves from one separator behind the next. -/
theorem Placed.passed_singleton {s : Segment} (h : d.Placed) (hleft : d.left = s.bytes ++ rest) :
    (d.passed [s] 0).Placed := by
  have hlen : (d.input.take d.offset).length = d.offset := by simp [h.offset_le]
  have hinput : d.input = d.input.take d.offset ++ (s.bytes ++ rest) := by
    rw [← hleft, left, List.take_append_drop]
  have hoffset : (d.passed [s] 0).offset = d.offset + s.bytes.length := by
    rw [d.passed_singleton s]
  refine ⟨?_, .inr ?_⟩
  · rw [hoffset]
    change d.offset + s.bytes.length ≤ d.input.length
    rw [hinput, List.length_append, hlen, List.length_append]
    exact Nat.add_le_add_left (Nat.le_add_right _ _) _
  · obtain ⟨front, hfront⟩ : ∃ front, front =
        d.input.take d.offset ++ (Bytes.ascii s.digits ++ Bytes.equals :: s.value) := ⟨_, rfl⟩
    have hsplit : d.input = front ++ Bytes.soh :: rest := by
      rw [hinput, s.bytes_append_soh, ← List.append_assoc, hfront]
    have hplace : (d.passed [s] 0).offset - 1 = front.length := by
      rw [hfront, hoffset, List.length_append, hlen, Segment.bytes, List.length_append]
      exact Nat.add_sub_cancel (d.offset + _) 1
    change d.input[(d.passed [s] 0).offset - 1]? = some Bytes.soh
    rw [hplace, hsplit, List.getElem?_append_right (Nat.le_refl _), Nat.sub_self]
    rfl

theorem Placed.passed (h : d.Placed) (hleft : d.left = segs.flatMap Segment.bytes ++ rest)
    (missed : Nat) : (d.passed segs missed).Placed := by
  induction segs generalizing d with
  | nil => exact ⟨h.offset_le, h.boundary⟩
  | cons s segs ih =>
      rw [List.flatMap_cons, List.append_assoc] at hleft
      have hnext := ih (h.passed_singleton hleft) (left_passed (by simpa using hleft) 0)
      rwa [passed_passed, Nat.zero_add] at hnext

theorem nextField_of_next? (h : WireField.next? d.left = none) :
    d.nextField = .ok (none, d.passed [] 1) := by
  have hread : WireField.read (d.input.drop d.offset) = .ok none := by
    rw [← left, WireField.read_eq, h]
    rfl
  rw [nextField, hread]
  split
  · rfl
  · rfl

theorem nextField_of_left {s : Segment} (h : d.left = s.bytes ++ rest) :
    d.nextField = .ok (some s.wire, d.passed [s] 0) := by
  have hinside : ¬ d.input.length < d.offset := by
    intro hlt
    rw [left, List.drop_eq_nil_of_le (Nat.le_of_lt hlt)] at h
    simp [s.bytes_ne_nil] at h
  have hread : WireField.read (d.input.drop d.offset) = .ok (some (s.wire, s.bytes.length)) := by
    rw [← left, h, WireField.read_bytes_append]
  rw [nextField, if_neg hinside, hread, passed_singleton]
  rfl

/-- A field is read where one stands, and else the decoder stays. -/
theorem nextField_cases (d : Decoder) :
    (WireField.next? d.left = none ∧ d.nextField = .ok (none, d.passed [] 1)) ∨
      ∃ s : Segment, d.left = s.bytes ++ (d.passed [s] 0).left ∧
        WireField.next? d.left = some (s.wire, (d.passed [s] 0).left) ∧
        d.nextField = .ok (some s.wire, d.passed [s] 0) := by
  cases hnext : WireField.next? d.left with
  | none => exact .inl ⟨rfl, nextField_of_next? hnext⟩
  | some found =>
      obtain ⟨s, hs, hleft⟩ := Segment.exists_of_next? hnext
      have hrest : (d.passed [s] 0).left = found.2 := left_passed (by simpa using hleft) 0
      refine .inr ⟨s, ?_, ?_, nextField_of_left hleft⟩
      · rw [hrest, hleft]
      · rw [hs, hrest]

section Follows

variable {α : Type} {read : Except DecodeError α × Bytes}
  {run : Except OutOfRange (Except DecodeError α × Decoder)}

/-- A call with the result of a reader of bytes, which leaves the bytes that the reader leaves.
It goes over whole fields, and asks in vain for one field at most, which is an error. -/
def Follows (d : Decoder) (read : Except DecodeError α × Bytes)
    (run : Except OutOfRange (Except DecodeError α × Decoder)) : Prop :=
  ∃ (segs : List Segment) (missed : Nat), d.left = segs.flatMap Segment.bytes ++ read.2 ∧
    run = .ok (read.1, d.passed segs missed) ∧
    missed ≤ 1 ∧ (missed = 0 ∨ ∃ e, read.1 = .error e)

theorem follows_here (d : Decoder) (result : Except DecodeError α) :
    d.Follows (result, d.left) (.ok (result, d)) :=
  ⟨[], 0, rfl, rfl, Nat.zero_le 1, .inl rfl⟩

theorem follows_missed (d : Decoder) (e : DecodeError) :
    d.Follows (.error (α := α) e, d.left) (.ok (.error e, d.passed [] 1)) :=
  ⟨[], 1, rfl, rfl, Nat.le_refl 1, .inr ⟨e, rfl⟩⟩

theorem Follows.of_passed (h : (d.passed segs 0).Follows read run)
    (hleft : d.left = segs.flatMap Segment.bytes ++ (d.passed segs 0).left) : d.Follows read run := by
  obtain ⟨segs', missed, hleft', hrun, hmissed⟩ := h
  refine ⟨segs ++ segs', missed, ?_, ?_, hmissed⟩
  · rw [hleft, hleft', List.flatMap_append, List.append_assoc]
  · rw [hrun, passed_passed, Nat.zero_add]

theorem Follows.of_bytes {s : Segment} (h : (d.passed [s] 0).Follows read run)
    (hleft : d.left = s.bytes ++ (d.passed [s] 0).left) : d.Follows read run :=
  h.of_passed (by simpa using hleft)

theorem Follows.of_error {e : DecodeError} {rest : Bytes} (h : d.Follows (.error e, rest) run)
    (β : Type) : ∃ last, run = .ok (.error e, last) ∧
      d.Follows (.error (α := β) e, rest) (.ok (.error e, last)) := by
  obtain ⟨segs, missed, hleft, hrun, hle, -⟩ := h
  exact ⟨_, hrun, segs, missed, hleft, rfl, hle, .inr ⟨e, rfl⟩⟩

theorem Follows.of_ok {a : α} {rest : Bytes} (h : d.Follows (.ok a, rest) run) :
    ∃ segs, run = .ok (.ok a, d.passed segs 0) ∧ rest = (d.passed segs 0).left ∧
      d.left = segs.flatMap Segment.bytes ++ (d.passed segs 0).left := by
  obtain ⟨segs, missed, hleft, hrun, -, rfl | ⟨e, he⟩⟩ := h
  · have hrest := left_passed hleft 0
    exact ⟨segs, hrun, hrest.symm, hrest.symm ▸ hleft⟩
  · cases he

end Follows

theorem Placed.length_lt_iff (h : d.Placed) (n m : Nat) :
    d.input.length < d.offset + n + m ↔ d.left.length < n + m := by
  have hle := h.offset_le
  rw [length_left]
  omega

theorem follows_readHeader (h : d.Placed) : d.Follows (Frame.readHeader d.left) d.readHeader := by
  rw [Frame.readHeader, readHeader]
  rcases d.nextField_cases with ⟨hnone, hrun⟩ | ⟨s, hleft, hsome, hrun⟩
  · rw [hnone, hrun]
    exact follows_missed d _
  · rw [hsome, hrun]
    refine .of_bytes ?_ hleft
    have hplaced := h.passed_singleton hleft
    generalize d.passed [s] 0 = d at hplaced ⊢
    simp only [bind, Except.bind]
    split
    · exact follows_here d _
    · rcases d.nextField_cases with ⟨hnone, hrun⟩ | ⟨t, hleft, hsome, hrun⟩
      · rw [hnone, hrun]
        exact follows_missed d _
      · rw [hsome, hrun]
        refine .of_bytes ?_ hleft
        have hplaced := hplaced.passed_singleton hleft
        generalize d.passed [t] 0 = d at hplaced ⊢
        dsimp only
        split
        · exact follows_here d _
        · cases t.wire.size with
          | error e => exact follows_here d _
          | ok declared =>
              simp only [hplaced.length_lt_iff]
              split
              · exact follows_here d _
              · exact follows_here d _

/-- What is read as a body, with the place of the checksum field in the input. -/
def Body.ofRead (input : Bytes) (read : Frame.Body) : Body :=
  ⟨read.fields, read.checkSum, input.length - read.trailer.length⟩

theorem readBody_eq (d : Decoder) : d.readBody =
    match d.nextField with
    | .error fault => .error fault
    | .ok (none, after) => .ok (.error .incomplete, after)
    | .ok (some f, after) =>
      if f.tag = .checkSum then .ok (.ok ⟨[], f, d.offset⟩, after)
      else
        match f.text with
        | .error e => .ok (.error e, after)
        | .ok s =>
          match after.readBody with
          | .error fault => .error fault
          | .ok (.error e, last) => .ok (.error e, last)
          | .ok (.ok body, last) =>
            .ok (.ok { body with fields := ⟨f.tag, .text s⟩ :: body.fields }, last) := by
  rw [readBody]
  split
  · next hrun => exact hrun ▸ rfl
  · next hrun => exact hrun ▸ rfl
  · next hrun => exact hrun ▸ rfl

theorem Placed.offset_eq (h : d.Placed) : d.offset = d.input.length - d.left.length := by
  rw [length_left, Nat.sub_sub_self h.offset_le]

theorem follows_readBody (d : Decoder) (h : d.Placed) : d.Follows
    ((Frame.readBody d.left).1.map (Body.ofRead d.input), (Frame.readBody d.left).2) d.readBody := by
  rw [readBody_eq]
  rcases d.nextField_cases with ⟨hnone, hrun⟩ | ⟨s, hleft, hsome, hrun⟩
  · have hread : Frame.readBody d.left = (.error .incomplete, d.left) := by
      rw [Frame.readBody]
      split
      · rfl
      · simp_all
    rw [hrun, hread]
    exact follows_missed d _
  · rw [hrun, Frame.readBody_of_next? hsome]
    refine .of_bytes ?_ hleft
    dsimp only
    split
    · rw [h.offset_eq]
      exact follows_here _ _
    · cases s.wire.text with
      | error e => exact follows_here _ _
      | ok text =>
          -- The fields behind this one are read as a body of their own.
          have ih := follows_readBody _ (h.passed_singleton hleft)
          rcases hread : Frame.readBody (d.passed [s] 0).left with ⟨e | body, rest⟩
          · rw [hread] at ih
            obtain ⟨last, hrun, hfollows⟩ := ih.of_error Body
            rw [hrun]
            exact hfollows
          · rw [hread] at ih
            obtain ⟨segs, hrun, rfl, hleft⟩ := ih.of_ok
            rw [hrun]
            exact .of_passed (follows_here _ _) hleft
  termination_by d.left.length
  decreasing_by
    rw [hleft, List.length_append]
    exact Nat.lt_add_of_pos_left (List.length_pos_iff.mpr s.bytes_ne_nil)

theorem length_trailer_le {input rest : Bytes} {read : Frame.Body}
    (h : Frame.readBody input = (.ok read, rest)) : read.trailer.length ≤ input.length := by
  obtain ⟨ss, last, -, -, -, rfl, rfl⟩ := Frame.exists_of_readBody h
  simp

section Checks

variable {n : Nat} {last : Decoder} {read : Frame.Body}

theorem Placed.slice_eq (h : d.Placed) (hn : n ≤ d.left.length) :
    Bytes.slice d.offset (d.input.length - n) d.input =
      .ok (d.left.take (d.left.length - n)) := by
  have hle := h.offset_le
  have hlen := d.length_left
  refine Bytes.slice_eq (d.input.take d.offset) _ (d.left.drop (d.left.length - n)) ?_ ?_ ?_
  · rw [List.take_append_drop, left, List.take_append_drop]
  · rw [List.length_take, Nat.min_eq_left hle]
  · rw [List.length_take, List.length_take, Nat.min_eq_left hle, Nat.min_eq_left (Nat.sub_le _ _)]
    omega

theorem Placed.difference_eq (h : d.Placed) (hn : n ≤ d.left.length) :
    difference (d.input.length - n) d.offset = .ok (d.left.length - n) := by
  have hle := h.offset_le
  have hlen := d.length_left
  rw [difference, if_pos (by omega)]
  exact congrArg Except.ok (by omega)

theorem Placed.verify_eq (h : d.Placed) (hinput : last.input = d.input)
    (htrailer : read.trailer.length ≤ d.left.length) :
    last.verify d.offset (.ofRead d.input read) =
      .ok (Frame.verify read.checkSum (d.left.take (d.left.length - read.trailer.length))) := by
  rw [verify, hinput, Body.ofRead, h.slice_eq htrailer, CheckSum.read_eq, Frame.verify]
  cases CheckSum.ofText? read.checkSum.bytes with
  | none => rfl
  | some declared =>
      simp only [bind, Except.bind]
      split
      · rfl
      · rfl

theorem Placed.check_eq (h : d.Placed) (last : Decoder) (hinput : last.input = d.input)
    (hvalidate : last.validate = d.validate) (hbody : (d.passed segs 0).Placed)
    (htrailer : read.trailer.length ≤ (d.passed segs 0).left.length) (declared : Nat) :
    last.check d.offset (d.passed segs 0).offset declared (.ofRead d.input read) =
      .ok (if (d.passed segs 0).left.length - read.trailer.length ≠ declared then
          .error (.bodyLengthMismatch declared
            ((d.passed segs 0).left.length - read.trailer.length))
        else if d.validate then
          Frame.verify read.checkSum (d.left.take (d.left.length - read.trailer.length))
        else .ok ()) := by
  have hverify := h.verify_eq hinput (Nat.le_trans htrailer (length_left_passed_le d segs 0))
  have hactual : difference (Body.ofRead d.input read).checkSumAt (d.passed segs 0).offset = _ :=
    hbody.difference_eq htrailer
  rw [check, hactual, hverify, hvalidate]
  simp only [bind, Except.bind]
  split
  · rfl
  · split
    · rfl
    · rfl

theorem Placed.follows_checked (h : d.Placed) (last : Decoder) (hinput : last.input = d.input)
    (hvalidate : last.validate = d.validate) (hbody : (d.passed segs 0).Placed)
    (htrailer : read.trailer.length ≤ (d.passed segs 0).left.length) (declared : Nat)
    (message : Message) : last.Follows
      (let actual := (d.passed segs 0).left.length - read.trailer.length
      if actual ≠ declared then (.error (.bodyLengthMismatch declared actual), last.left)
      else if d.validate then
        match Frame.verify read.checkSum
            (d.left.take (d.left.length - read.trailer.length)) with
        | .error e => (.error e, last.left)
        | .ok () => (.ok message, last.left)
      else (.ok message, last.left))
      (do
        match ← last.check d.offset (d.passed segs 0).offset declared (.ofRead d.input read) with
        | .error e => return (.error e, last)
        | .ok () => return (.ok message, last)) := by
  rw [h.check_eq last hinput hvalidate hbody htrailer]
  by_cases hlength : (d.passed segs 0).left.length - read.trailer.length ≠ declared
  · rw [if_pos hlength, if_pos hlength]
    exact follows_here _ _
  · rw [if_neg hlength, if_neg hlength]
    by_cases hon : d.validate = true
    · rw [if_pos hon, if_pos hon]
      cases Frame.verify read.checkSum _ with
      | error e => exact follows_here _ _
      | ok => exact follows_here _ _
    · rw [if_neg hon, if_neg hon]
      exact follows_here _ _

end Checks

theorem follows_decodeMessage (h : d.Placed) :
    d.Follows (Frame.decode d.validate d.left) d.decodeMessage := by
  have hheader := follows_readHeader h
  rw [Frame.decode, decodeMessage]
  rcases hread : Frame.readHeader d.left with ⟨e | ⟨beginString, declared⟩, rest⟩
  · rw [hread] at hheader
    obtain ⟨last, hrun, hfollows⟩ := hheader.of_error Message
    rw [hrun]
    exact hfollows
  · rw [hread] at hheader
    obtain ⟨segs, hrun, rfl, hleft⟩ := hheader.of_ok
    have hplaced := h.passed hleft 0
    rw [hrun]
    refine .of_passed ?_ hleft
    simp only [bind, Except.bind]
    rcases (d.passed segs 0).nextField_cases with ⟨hnone, hrun⟩ | ⟨s, hleft, hsome, hrun⟩
    · rw [hnone, hrun]
      exact follows_missed _ _
    · rw [hsome, hrun]
      refine .of_bytes ?_ hleft
      have hbody := follows_readBody _ (hplaced.passed_singleton hleft)
      have hshorter := length_left_passed_le (d.passed segs 0) [s] 0
      dsimp only
      split
      · exact follows_here _ _
      · cases beginString.text with
        | error e => exact follows_here _ _
        | ok beginText =>
            cases s.wire.text with
            | error e => exact follows_here _ _
            | ok typeText =>
                rcases hread : Frame.readBody ((d.passed segs 0).passed [s] 0).left with
                  ⟨e | read, rest⟩
                · rw [hread] at hbody
                  obtain ⟨last, hrun, hfollows⟩ := hbody.of_error Message
                  rw [hrun]
                  exact hfollows
                · -- The trailer stands behind MsgType, so the length to compare is not below zero.
                  have htrailer := Nat.le_trans (length_trailer_le hread) hshorter
                  rw [hread] at hbody
                  obtain ⟨segs', hrun, rfl, hleft⟩ := hbody.of_ok
                  rw [hrun]
                  refine .of_passed ?_ hleft
                  exact h.follows_checked (((d.passed segs 0).passed [s] 0).passed segs' 0) rfl rfl
                    hplaced htrailer declared _

/-- Three bytes are the least for a field. -/
theorem three_mul_length_le (segs : List Segment) :
    3 * segs.length ≤ (segs.flatMap Segment.bytes).length := by
  induction segs with
  | nil => exact Nat.le_refl _
  | cons s segs ih =>
      have hdigits : 0 < s.digits.length := List.length_pos_iff.mpr s.isNumeral.1
      have hbytes : s.bytes.length = s.digits.length + 1 + s.value.length + 1 := by
        simp [Segment.bytes]
        omega
      rw [List.flatMap_cons, List.length_append, List.length_cons]
      omega

theorem exists_call (h : d.Placed) (c : Call) : ∃ answer segs missed,
    d.call c = .ok (answer, d.passed segs missed) ∧ (d.passed segs missed).Placed := by
  cases c with
  | nextField =>
      rcases d.nextField_cases with ⟨-, hrun⟩ | ⟨s, hleft, -, hrun⟩
      · exact ⟨.field none, [], 1, by rw [call, hrun]; rfl, h.passed rfl 1⟩
      · exact ⟨.field (some s.wire), [s], 0, by rw [call, hrun]; rfl, h.passed_singleton hleft⟩
  | decodeMessage =>
      obtain ⟨segs, missed, hleft, hrun, -⟩ := follows_decodeMessage h
      exact ⟨.message _, segs, missed, by rw [call, hrun]; rfl, h.passed hleft missed⟩

theorem exists_calls (h : d.Placed) (cs : List Call) : ∃ answers segs missed,
    d.calls cs = .ok (answers, d.passed segs missed) ∧ (d.passed segs missed).Placed := by
  induction cs generalizing d with
  | nil => exact ⟨[], [], 0, rfl, h⟩
  | cons c cs ih =>
      obtain ⟨answer, segs, missed, hcall, hplaced⟩ := exists_call h c
      obtain ⟨answers, segs', missed', hcalls, hplaced'⟩ := ih hplaced
      rw [passed_passed] at hcalls hplaced'
      refine ⟨answer :: answers, segs ++ segs', missed + missed', ?_, hplaced'⟩
      rw [calls, hcall]
      simp only [bind, Except.bind, hcalls]
      rfl

/-- What holds of a decoder whenever it can be called, and what the next call does. -/
structure Sound (d : Decoder) : Prop extends d.Placed where
  remaining : d.remaining = .ok (d.input.drop d.offset)
  isEmpty_iff : d.isEmpty = true ↔ d.input.drop d.offset = []
  /-- Where no field stands, the decoder stays. A field is read by moving behind its bytes. -/
  nextField :
    (∀ (s : Segment) (rest : Bytes), d.input.drop d.offset ≠ s.bytes ++ rest) ∧
      d.nextField = .ok (none, { d with asked := d.asked + 1 }) ∨
    ∃ s : Segment,
      d.input.drop d.offset = s.bytes ++ d.input.drop (d.offset + s.bytes.length) ∧
      d.nextField = .ok (some s.wire,
        { d with offset := d.offset + s.bytes.length, asked := d.asked + 1 })
  /-- A frame is read as from the start of an input. -/
  decodeMessage : ∃ after : Decoder,
    d.decodeMessage = .ok ((Frame.decode d.validate (d.input.drop d.offset)).1, after) ∧
    d.input.drop after.offset = (Frame.decode d.validate (d.input.drop d.offset)).2 ∧
    after.input = d.input ∧ after.Placed ∧ d.offset ≤ after.offset ∧
    after.asked ≤ d.asked + (d.input.length - d.offset) / 3 + 1

theorem Placed.sound (h : d.Placed) : d.Sound := by
  have hempty : d.isEmpty = true ↔ d.input.drop d.offset = [] := by
    rw [isEmpty, decide_eq_true_eq, List.drop_eq_nil_iff]
  refine ⟨h, remaining_eq h.offset_le, hempty, ?_, ?_⟩
  · rcases d.nextField_cases with ⟨hnone, hrun⟩ | ⟨s, hleft, -, hrun⟩
    · refine .inl ⟨fun s rest hleft => ?_, hrun⟩
      rw [left, hleft, Segment.next?_bytes_append] at hnone
      cases hnone
    · rw [d.passed_singleton s] at hleft hrun
      exact .inr ⟨s, hleft, hrun⟩
  · obtain ⟨segs, missed, hleft, hrun, hle, -⟩ := follows_decodeMessage h
    refine ⟨d.passed segs missed, hrun, left_passed hleft missed, rfl, h.passed hleft missed,
      Nat.le_add_right _ _, ?_⟩
    have hfields := three_mul_length_le segs
    have hlen := congrArg List.length hleft
    rw [length_left, List.length_append] at hlen
    change d.asked + segs.length + missed ≤ _
    omega

/-- Any calls on a decoder that starts at the front of its input, failed ones among them, stay in
the range of the input and leave the decoder sound. -/
theorem sound_calls (input : Bytes) (validate : Bool) (cs : List Call) :
    ∃ (answers : List Answer) (d : Decoder),
      ({ input, validate } : Decoder).calls cs = .ok (answers, d) ∧
      d.input = input ∧ d.validate = validate ∧ d.Sound := by
  obtain ⟨answers, segs, missed, hcalls, hplaced⟩ :=
    exists_calls (d := { input, validate }) ⟨Nat.zero_le _, .inl rfl⟩ cs
  exact ⟨answers, _, hcalls, rfl, rfl, hplaced.sound⟩

end FixClient.Decoder
