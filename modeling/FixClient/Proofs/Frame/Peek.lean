import FixClient.Frame.Peek
import FixClient.Proofs.Frame.Segment

/-!
# Peeking at growing input

A field that was read is read again when more bytes follow, and a field that was refused is
refused again: its separator has arrived, so what follows the separator cannot become part
of it. Hence the peek gives one answer from the moment it gives any. It waits for separators
only, one for each of its three fields.
-/

namespace FixClient

namespace WireField

variable {input rest : Bytes} {f : WireField}

theorem next?_append (h : next? input = some (f, rest)) (t : Bytes) :
    next? (input ++ t) = some (f, rest ++ t) := by
  obtain ⟨s, rfl, rfl⟩ := Segment.exists_of_next? h
  rw [List.append_assoc, Segment.next?_bytes_append]

theorem next?_append_of_none (h : next? input = none) (hsoh : Bytes.soh ∈ input) (t : Bytes) :
    next? (input ++ t) = none := by
  cases hread : next? (input ++ t) with
  | none => rfl
  | some parts =>
      -- The segment ends at the first separator, which the input has already.
      obtain ⟨s, -, hs⟩ := Segment.exists_of_next? hread
      obtain ⟨l, r, rfl, hl⟩ := List.eq_append_cons_of_mem hsoh
      rw [s.bytes_append_soh, List.append_assoc, List.cons_append] at hs
      obtain ⟨rfl, -⟩ := Bytes.append_sep_inj hl s.soh_notMem_front hs
      rw [← s.bytes_append_soh, s.next?_bytes_append] at h
      cases h

/-- A field that is read uses up one separator. -/
theorem count_soh_of_next? (h : next? input = some (f, rest)) :
    input.count Bytes.soh = rest.count Bytes.soh + 1 := by
  obtain ⟨s, -, rfl⟩ := Segment.exists_of_next? h
  rw [s.bytes_append_soh, List.count_append, List.count_eq_zero_of_not_mem s.soh_notMem_front,
    Nat.zero_add, List.count_cons_self]

end WireField

namespace Frame

variable {tag : Tag} {otherwise e : DecodeError} {input rest a b : Bytes} {f : WireField}

theorem headerField_append_of_some (h : headerField tag otherwise input = .ok (some (f, rest)))
    (t : Bytes) : headerField tag otherwise (input ++ t) = .ok (some (f, rest ++ t)) := by
  unfold headerField at h
  split at h
  · next g left hread =>
    split at h
    · next htag =>
      cases h
      simp only [headerField, WireField.next?_append hread t, if_pos htag]
    · cases h
  · split at h <;> cases h

theorem headerField_append_of_error (h : headerField tag otherwise input = .error e) (t : Bytes) :
    headerField tag otherwise (input ++ t) = .error e := by
  unfold headerField at h
  split at h
  · next g left hread =>
    split at h
    · cases h
    · next htag =>
      cases h
      simp only [headerField, WireField.next?_append hread t, if_neg htag]
  · next hread =>
    split at h
    · next hsoh =>
      cases h
      have hsoh' : Bytes.soh ∈ input ++ t := List.mem_append_left t hsoh
      simp only [headerField, WireField.next?_append_of_none hread hsoh t, if_pos hsoh']
    · cases h

/-- A field of the header is waited for exactly as long as there is no separator. -/
theorem headerField_eq_none_iff : headerField tag otherwise input = .ok none ↔ Bytes.soh ∉ input := by
  unfold headerField
  split
  · next f rest hread =>
    have hcount := WireField.count_soh_of_next? hread
    have hsoh : Bytes.soh ∈ input := List.count_pos_iff.mp (by omega)
    split <;> simp [hsoh]
  · split <;> simp_all

theorem count_soh_of_headerField (h : headerField tag otherwise input = .ok (some (f, rest))) :
    input.count Bytes.soh = rest.count Bytes.soh + 1 := by
  unfold headerField at h
  split at h
  · next g left hread =>
    split at h
    · cases h
      exact WireField.count_soh_of_next? hread
    · cases h
  · split at h <;> cases h

/-- An answer of the peek stands, whatever arrives behind the input. -/
theorem peekMsgType_of_prefix (hab : a <+: b) (h : peekMsgType a ≠ .ok none) :
    peekMsgType b = peekMsgType a := by
  obtain ⟨t, rfl⟩ := hab
  rcases hbegin : headerField .beginString .invalidBeginString a with e | _ | ⟨beginString, rest⟩
  · simp only [peekMsgType, hbegin, headerField_append_of_error hbegin]
  · simp [peekMsgType, hbegin] at h
  simp only [peekMsgType, hbegin, headerField_append_of_some hbegin] at h ⊢
  split
  · rfl
  next hname =>
  rw [if_neg hname] at h
  rcases hlength : headerField .bodyLength .missingBodyLength rest with e | _ | ⟨bodyLength, body⟩
  · simp only [headerField_append_of_error hlength]
  · simp [hlength] at h
  simp only [hlength, headerField_append_of_some hlength] at h ⊢
  cases hsize : bodyLength.size with
  | error e => rfl
  | ok n =>
      rcases htype : headerField .msgType .missingMsgType body with e | _ | ⟨type, left⟩
      · simp only [headerField_append_of_error htype]
      · simp [hsize, htype] at h
      · simp only [headerField_append_of_some htype]

theorem peekMsgType_of_notMem (h : Bytes.soh ∉ input) : peekMsgType input = .ok none := by
  rw [peekMsgType, headerField_eq_none_iff.mpr h]

/-- Three separators are enough for an answer. -/
theorem count_soh_lt_of_undecided (h : peekMsgType input = .ok none) :
    input.count Bytes.soh < 3 := by
  rcases hbegin : headerField .beginString .invalidBeginString input with e | _ | ⟨beginString, rest⟩
  · simp [peekMsgType, hbegin] at h
  · rw [List.count_eq_zero_of_not_mem (headerField_eq_none_iff.mp hbegin)]
    decide
  have hfirst := count_soh_of_headerField hbegin
  simp only [peekMsgType, hbegin] at h
  split at h
  · cases h
  rcases hlength : headerField .bodyLength .missingBodyLength rest with e | _ | ⟨bodyLength, body⟩
  · simp [hlength] at h
  · rw [hfirst, List.count_eq_zero_of_not_mem (headerField_eq_none_iff.mp hlength)]
    decide
  have hsecond := count_soh_of_headerField hlength
  simp only [hlength] at h
  split at h
  · cases h
  rcases htype : headerField .msgType .missingMsgType body with e | _ | ⟨type, left⟩
  · simp [htype] at h
  · rw [hfirst, hsecond, List.count_eq_zero_of_not_mem (headerField_eq_none_iff.mp htype)]
    decide
  · simp only [htype] at h
    split at h <;> cases h

/-- What the peek answers stands, whatever arrives behind it. It has no answer while no separator
has arrived, and it has one from the third separator on. -/
theorem peekMsgType_stable (a t : Bytes) :
    (peekMsgType a ≠ .ok none → peekMsgType (a ++ t) = peekMsgType a) ∧
      (Bytes.soh ∉ a → peekMsgType a = .ok none) ∧
        (3 ≤ a.count Bytes.soh → peekMsgType a ≠ .ok none) := by
  refine ⟨?_, peekMsgType_of_notMem, ?_⟩
  · intro h
    exact peekMsgType_of_prefix (List.prefix_append a t) h
  · intro hcount hnone
    have hlt := count_soh_lt_of_undecided hnone
    omega

/-- A BodyLength that is refused for the separator in its tag is refused still when its equals sign,
its value and a whole MsgType have followed. -/
theorem peekMsgType_stable_refused :
    peekMsgType (Utf8.encode "8=FIX.4.4\x019\x01") = .error .missingBodyLength ∧
      peekMsgType (Utf8.encode "8=FIX.4.4\x019\x01" ++ Utf8.encode "=5\x0135=A\x01") =
        .error .missingBodyLength ∧
      peekMsgType (Utf8.encode "35=A") = .ok none ∧
      peekMsgType (Utf8.encode "8=FIX\x019=0\x0135\x01") ≠ .ok none := by
  have hrefused : peekMsgType (Utf8.encode "8=FIX.4.4\x019\x01") = .error .missingBodyLength := by
    with_unfolding_all rfl
  obtain ⟨hstands, -, -⟩ :=
    peekMsgType_stable (Utf8.encode "8=FIX.4.4\x019\x01") (Utf8.encode "=5\x0135=A\x01")
  obtain ⟨-, hwaits, -⟩ := peekMsgType_stable (Utf8.encode "35=A") []
  obtain ⟨-, -, hanswers⟩ := peekMsgType_stable (Utf8.encode "8=FIX\x019=0\x0135\x01") []
  refine ⟨hrefused, ?_, hwaits (by decide +kernel), hanswers (by decide +kernel)⟩
  exact (hstands (hrefused ▸ by decide)).trans hrefused

/-- The peek is open below a length and decided at it. -/
structure DecidedAt (s : Bytes) (d : Nat) : Prop where
  le_length : d ≤ s.length
  decided : peekMsgType (s.take d) ≠ .ok none
  undecided : ∀ k < d, peekMsgType (s.take k) = .ok none

namespace DecidedAt

variable {s p : Bytes} {d : Nat}

theorem peek_of_lt (h : DecidedAt s d) (hp : p <+: s) (hlt : p.length < d) :
    peekMsgType p = .ok none := by
  rw [List.prefix_iff_eq_take.mp hp]
  exact h.undecided p.length hlt

/-- It is enough that the peek is open one byte earlier. -/
theorem of_succ (hle : d + 1 ≤ s.length) (h : peekMsgType (s.take (d + 1)) ≠ .ok none)
    (hbefore : peekMsgType (s.take d) = .ok none) : DecidedAt s (d + 1) := by
  refine ⟨hle, h, ?_⟩
  intro k hk
  by_contra hopen
  have hfront : s.take k <+: s.take d := List.take_prefix_take_left (Nat.le_of_lt_succ hk)
  rw [← peekMsgType_of_prefix hfront hopen] at hopen
  exact hopen hbefore

theorem take_prefix (hp : p <+: s) (hle : d ≤ p.length) : s.take d <+: p := by
  rw [List.prefix_iff_eq_take.mp hp]
  exact List.take_prefix_take_left hle

end DecidedAt

end Frame

end FixClient
