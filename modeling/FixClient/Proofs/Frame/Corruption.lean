import FixClient.Proofs.Frame.Grammar

/-!
# Corrupted frames

No two byte strings that start with a frame differ in a single byte of the first frame.
The relation is symmetric, so a separator that is destroyed and one that is created are
the same case: the segment in front of it grows, and the one behind it is swallowed.
-/

namespace FixClient

namespace Bytes

/-- Two byte strings that differ at one place. -/
inductive DifferAt : Nat → Bytes → Bytes → Prop
  | head {b c : UInt8} (h : b ≠ c) (rest : Bytes) : DifferAt 0 (b :: rest) (c :: rest)
  | tail {i : Nat} {l r : Bytes} (b : UInt8) (h : DifferAt i l r) :
      DifferAt (i + 1) (b :: l) (b :: r)

namespace DifferAt

variable {i : Nat} {l r : Bytes}

theorem symm (h : DifferAt i l r) : DifferAt i r l := by
  induction h with
  | head h rest => exact .head h.symm rest
  | tail b _ ih => exact .tail b ih

theorem ne (h : DifferAt i l r) : l ≠ r := by
  induction h with
  | head h rest => exact fun e => h (List.cons.inj e).1
  | tail b _ ih => exact fun e => ih (List.cons.inj e).2

theorem of_set {x : UInt8} (hi : i < l.length) (hx : l[i]? ≠ some x) :
    DifferAt i l (l.set i x) := by
  induction l generalizing i with
  | nil => exact absurd hi (Nat.not_lt_zero i)
  | cons b l ih =>
      cases i with
      | zero => exact .head (fun e => hx (by simp [e])) l
      | succ i => exact .tail b (ih (Nat.lt_of_succ_lt_succ hi) (by simpa using hx))

/-- The place lies in the front or in the back, and the other part is the same. -/
theorem append_cases {u v : Bytes} (h : DifferAt i (u ++ l) (v ++ r))
    (hlen : u.length = v.length) :
    DifferAt i u v ∧ l = r ∨ u.length ≤ i ∧ u = v ∧ DifferAt (i - u.length) l r := by
  induction u generalizing v i with
  | nil =>
      obtain rfl := List.length_eq_zero_iff.mp hlen.symm
      exact .inr ⟨Nat.zero_le i, rfl, h⟩
  | cons b u ih =>
      obtain ⟨c, v, rfl⟩ := List.exists_cons_of_length_pos (l := v) (by simp [← hlen])
      have hlen' : u.length = v.length := by simpa using hlen
      generalize hl : b :: u ++ l = left at h
      generalize hr : c :: v ++ r = right at h
      cases h with
      | head hne rest =>
          obtain ⟨rfl, hu⟩ := List.cons.inj hl
          obtain ⟨rfl, hv⟩ := List.cons.inj hr
          obtain ⟨rfl, rfl⟩ := List.append_inj (hu.trans hv.symm) hlen'
          exact .inl ⟨.head hne u, rfl⟩
      | tail d h =>
          obtain ⟨rfl, rfl⟩ := List.cons.inj hl
          obtain ⟨rfl, rfl⟩ := List.cons.inj hr
          rcases ih h hlen' with ⟨hu, hrest⟩ | ⟨hi, rfl, hrest⟩
          · exact .inl ⟨.tail _ hu, hrest⟩
          · refine .inr ⟨Nat.succ_le_succ hi, rfl, ?_⟩
            rwa [List.length_cons, Nat.succ_sub_succ]

theorem of_append_left {u : Bytes} (h : DifferAt i (u ++ l) (u ++ r)) :
    u.length ≤ i ∧ DifferAt (i - u.length) l r := by
  rcases h.append_cases rfl with ⟨hu, -⟩ | ⟨hi, -, hrest⟩
  · exact absurd rfl hu.ne
  · exact ⟨hi, hrest⟩

/-- One byte more or less in a sum shows. -/
theorem ofBytes_ne (h : DifferAt i l r) : CheckSum.ofBytes l ≠ CheckSum.ofBytes r := by
  induction h with
  | head h rest =>
      rw [CheckSum.ofBytes_cons, CheckSum.ofBytes_cons]
      exact fun e => h ((UInt8.add_left_inj _).mp e)
  | tail b _ ih =>
      rw [CheckSum.ofBytes_cons, CheckSum.ofBytes_cons]
      exact fun e => ih ((UInt8.add_right_inj _).mp e)

/-- Two texts, each ended by a separator: they have the same length, or they are the same,
or the separator of the shorter one is the byte that differs. -/
theorem separated_cases {v w : Bytes} (h : DifferAt i (v ++ soh :: l) (w ++ soh :: r))
    (hv : soh ∉ v) (hw : soh ∉ w) :
    v.length = w.length ∧ l = r ∨ v.length < i ∧ v = w ∧ DifferAt (i - (v.length + 1)) l r ∨
      (∃ x more, w = v ++ x :: more ∧ l = more ++ soh :: r) ∨
        ∃ x more, v = w ++ x :: more ∧ r = more ++ soh :: l := by
  induction v generalizing w i with
  | nil =>
      cases w with
      | nil =>
          cases h with
          | head hne rest => exact absurd rfl hne
          | tail b h => exact .inr (.inl ⟨Nat.succ_pos _, rfl, h⟩)
      | cons x w =>
          cases h with
          | head hne rest => exact .inr (.inr (.inl ⟨x, w, rfl, rfl⟩))
          | tail b h => exact absurd List.mem_cons_self hw
  | cons b v ih =>
      cases w with
      | nil =>
          cases h with
          | head hne rest => exact .inr (.inr (.inr ⟨b, v, rfl, rfl⟩))
          | tail c h => exact absurd List.mem_cons_self hv
      | cons c w =>
          have hv' : soh ∉ v := fun hmem => hv (List.mem_cons_of_mem b hmem)
          have hw' : soh ∉ w := fun hmem => hw (List.mem_cons_of_mem c hmem)
          generalize hl : b :: v ++ soh :: l = left at h
          generalize hr : c :: w ++ soh :: r = right at h
          cases h with
          | head hne rest =>
              obtain ⟨rfl, hrest⟩ := List.cons.inj hl
              obtain ⟨rfl, hrest'⟩ := List.cons.inj hr
              obtain ⟨rfl, rfl⟩ := append_sep_inj hv' hw' (hrest.trans hrest'.symm)
              exact .inl ⟨rfl, rfl⟩
          | tail d h =>
              obtain ⟨rfl, rfl⟩ := List.cons.inj hl
              obtain ⟨rfl, rfl⟩ := List.cons.inj hr
              rcases ih h hv' hw' with ⟨hlen, hrest⟩ | ⟨hi, rfl, hrest⟩ | ⟨x, more, rfl, hmore⟩ |
                ⟨x, more, rfl, hmore⟩
              · exact .inl ⟨congrArg Nat.succ hlen, hrest⟩
              · refine .inr (.inl ⟨Nat.succ_lt_succ hi, rfl, ?_⟩)
                rwa [List.length_cons, Nat.succ_sub_succ]
              · exact .inr (.inr (.inl ⟨x, more, rfl, hmore⟩))
              · exact .inr (.inr (.inr ⟨x, more, rfl, hmore⟩))

/-- The digits of a tag do not end early: then its value would be another one. -/
theorem length_digits_le {s t : Segment} (htag : s.tag = t.tag) (hpos : s.tag ≠ 0)
    (h : DifferAt i (s.bytes ++ l) (t.bytes ++ r)) : t.digits.length ≤ s.digits.length := by
  refine Nat.not_lt.mp fun hlt => ?_
  have hvalue : Numeral.value s.digits = Numeral.value t.digits := by
    rw [← s.toNat_tag, htag, t.toNat_tag]
  obtain ⟨front, back, hsplit, hlen⟩ : ∃ front back, t.digits = front ++ back ∧
      front.length = s.digits.length :=
    ⟨t.digits.take s.digits.length, t.digits.drop s.digits.length,
      (List.take_append_drop _ _).symm, by simp; omega⟩
  obtain ⟨c, back, rfl⟩ := List.exists_cons_of_length_pos (l := back) (by
    rw [hsplit, List.length_append] at hlt
    omega)
  rw [s.bytes_append, t.bytes_append, hsplit, ascii_append, List.append_assoc] at h
  rcases h.append_cases (by simp [hlen]) with ⟨-, hrest⟩ | ⟨-, hdigits, -⟩
  · refine t.equals_notMem ?_
    rw [hsplit, ascii_append, ascii_cons, (List.cons.inj hrest).1]
    simp
  · have hfront : s.digits = front := Numeral.ascii_inj s.isNumeral.2
      (fun d hd => t.isNumeral.2 d (hsplit ▸ List.mem_append_left _ hd)) hdigits
    have hzero : 0 < Numeral.value s.digits := Nat.pos_of_ne_zero fun hzero =>
      hpos (Tag.eq_of_toNat_eq ((s.toNat_tag).trans hzero))
    have hgrow := Numeral.value_lt_value_append hzero (List.cons_ne_nil c back)
    rw [hsplit, ← hfront] at hvalue
    omega

theorem digits_eq {s t : Segment} (htag : s.tag = t.tag) (hpos : s.tag ≠ 0)
    (h : DifferAt i (s.bytes ++ l) (t.bytes ++ r)) : s.digits = t.digits := by
  have hle := length_digits_le htag hpos h
  have hge := length_digits_le htag.symm (htag ▸ hpos) h.symm
  have hvalue : Numeral.value s.digits = Numeral.value t.digits := by
    rw [← s.toNat_tag, htag, t.toNat_tag]
  exact Numeral.eq_of_value_eq s.isNumeral.2 t.isNumeral.2 (Nat.le_antisymm hge hle) hvalue

/-- Two segments with one tag, each at the front. -/
theorem segment_cases {s t : Segment} (htag : s.tag = t.tag) (hpos : s.tag ≠ 0)
    (h : DifferAt i (s.bytes ++ l) (t.bytes ++ r)) :
    s.bytes.length = t.bytes.length ∧ l = r ∨
      s.bytes.length ≤ i ∧ s = t ∧ DifferAt (i - s.bytes.length) l r ∨
      (∃ x more, t.value = s.value ++ x :: more ∧ l = more ++ soh :: r) ∨
        ∃ x more, s.value = t.value ++ x :: more ∧ r = more ++ soh :: l := by
  have hdigits := digits_eq htag hpos h
  have hlength : ∀ u : Segment,
      u.bytes.length = (ascii u.digits).length + 1 + (u.value.length + 1) := by
    intro u
    simp only [Segment.bytes, List.length_append, List.length_cons, List.length_nil]
    omega
  rw [s.bytes_append, t.bytes_append, ← hdigits, List.append_cons,
    List.append_cons _ _ (t.value ++ _)] at h
  obtain ⟨hi, hvalues⟩ := h.of_append_left
  rw [List.length_append, List.length_singleton] at hi hvalues
  rcases hvalues.separated_cases s.soh_notMem t.soh_notMem with
    ⟨hlen, hrest⟩ | ⟨hlt, hvalue, hrest⟩ | hgrown | hgrown
  · exact .inl ⟨by rw [hlength, hlength, hdigits, hlen], hrest⟩
  · refine .inr (.inl ⟨by rw [hlength]; omega, Segment.ext hdigits hvalue, ?_⟩)
    rwa [hlength, Nat.sub_add_eq]
  · exact .inr (.inr (.inl hgrown))
  · exact .inr (.inr (.inr hgrown))

/-- A segment whose value has swallowed the start of the one behind it: what was swallowed
is all of that segment but its separator. -/
theorem eq_of_swallowed {s : Segment} {more : Bytes} (hmore : soh ∉ more)
    (h : s.bytes ++ l = more ++ soh :: r) :
    more = ascii s.digits ++ equals :: s.value ∧ l = r := by
  obtain ⟨rfl, rfl⟩ :=
    append_sep_inj hmore s.soh_notMem_front (h.symm.trans (s.bytes_append_soh l))
  exact ⟨rfl, rfl⟩

end DifferAt

end Bytes

namespace Frame

open Bytes WireFrame

variable {p q : WireFrame} {i : Nat} {x : UInt8} {more l r rest rest' : Bytes}

/-- BeginString cannot swallow BodyLength: MsgType would have to stand in its place. -/
theorem not_swallowed_bodyLength (hp : p.Sealed) (hq : q.Sealed)
    (hvalue : q.beginString.value = p.beginString.value ++ x :: more) :
    p.bodyLength.bytes ++ (p.countedBytes ++ l) ≠ more ++ soh :: (q.bodyLength.bytes ++ r) := by
  intro h
  have hmore : soh ∉ more := fun hmem => q.beginString.soh_notMem (by simp [hvalue, hmem])
  obtain ⟨-, hrest⟩ := DifferAt.eq_of_swallowed hmore h
  rw [countedBytes_append] at hrest
  obtain ⟨hsame, -⟩ := Segment.bytes_append_inj hrest
  have htag : Tag.msgType = Tag.bodyLength := by rw [← hp.msgType_tag, hsame, hq.bodyLength_tag]
  exact absurd htag (by decide)

/-- BodyLength cannot swallow MsgType: no number holds an equals sign. -/
theorem not_swallowed_msgType (hq : q.Sealed)
    (hvalue : q.bodyLength.value = p.bodyLength.value ++ x :: more) :
    p.countedBytes ++ l ≠ more ++ soh :: r := by
  intro h
  have hmore : soh ∉ more := fun hmem => q.bodyLength.soh_notMem (by simp [hvalue, hmem])
  rw [countedBytes_append] at h
  obtain ⟨hswallowed, -⟩ := DifferAt.eq_of_swallowed hmore h
  exact hq.bodyLength_value.equals_notMem (by simp [hvalue, hswallowed])

theorem length_countedBytes_eq (hp : p.Sealed) (hq : q.Sealed) (h : p.bodyLength = q.bodyLength) :
    p.countedBytes.length = q.countedBytes.length :=
  hp.bodyLength_value.unique (h ▸ hq.bodyLength_value)

theorem length_coveredBytes (p : WireFrame) : p.coveredBytes.length =
    p.beginString.bytes.length + (p.bodyLength.bytes.length + p.countedBytes.length) := by
  simpa only [List.append_nil, List.length_append] using
    congrArg List.length (p.coveredBytes_append [])

/-- One byte moves no boundary in front of the checksum. -/
theorem length_coveredBytes_eq (hp : p.Sealed) (hq : q.Sealed)
    (h : DifferAt i (p.bytes ++ rest) (q.bytes ++ rest')) :
    p.coveredBytes.length = q.coveredBytes.length := by
  rw [p.bytes_append, q.bytes_append] at h
  have hbegin := hp.beginString_tag.trans hq.beginString_tag.symm
  have hlength := hp.bodyLength_tag.trans hq.bodyLength_tag.symm
  rw [length_coveredBytes, length_coveredBytes]
  rcases h.segment_cases hbegin (hp.beginString_tag ▸ by decide) with
    ⟨hlen, hrest⟩ | ⟨-, hsame, hrest⟩ | ⟨x, more, hvalue, hrest⟩ | ⟨x, more, hvalue, hrest⟩
  -- The byte is in BeginString: BodyLength is the same, and so is what it counts.
  · obtain ⟨hsame, -⟩ := Segment.bytes_append_inj hrest
    rw [hlen, length_countedBytes_eq hp hq hsame, hsame]
  · rw [hsame]
    rcases hrest.segment_cases hlength (hp.bodyLength_tag ▸ by decide) with
      ⟨hlen, hrest⟩ | ⟨-, hsame, -⟩ | ⟨x, more, hvalue, hrest⟩ | ⟨x, more, hvalue, hrest⟩
    -- The byte is in BodyLength: all that follows is the same, up to the first CheckSum.
    · rw [countedBytes_append, countedBytes_append] at hrest
      obtain ⟨htype, hrest⟩ := Segment.bytes_append_inj hrest
      obtain ⟨hbody, -⟩ := row_inj hp.checkSum_tag hq.checkSum_tag hp.body_tag hq.body_tag hrest
      rw [hlen, countedBytes, countedBytes, counted, counted, htype, hbody]
    -- The byte is behind BodyLength, which says how long the rest is.
    · rw [length_countedBytes_eq hp hq hsame, hsame]
    · exact absurd hrest (not_swallowed_msgType hq hvalue)
    · exact absurd hrest (not_swallowed_msgType hp hvalue)
  · exact absurd hrest (not_swallowed_bodyLength hp hq hvalue)
  · exact absurd hrest (not_swallowed_bodyLength hq hp hvalue)

/-- The boundaries being where they were, the sum accounts for the byte: it is neither
covered nor part of the checksum. -/
theorem length_bytes_le_of_differAt (hp : p.Sealed) (hq : q.Sealed)
    (h : DifferAt i (p.bytes ++ rest) (q.bytes ++ rest')) : p.bytes.length ≤ i := by
  have hlen := length_coveredBytes_eq hp hq h
  have hsum := p.checkSum_value_iff.mp hp.checkSum_value
  have hsum' := q.checkSum_value_iff.mp hq.checkSum_value
  rw [bytes_eq, bytes_eq, List.append_assoc, List.append_assoc] at h
  rcases h.append_cases hlen with ⟨hcovered, htrailer⟩ | ⟨hi, hcovered, htrailer⟩
  · obtain ⟨hsame, -⟩ := Segment.bytes_append_inj htrailer
    rw [hsame, hsum'] at hsum
    exact absurd (CheckSum.text_injective hsum).symm hcovered.ofBytes_ne
  · have htag := hp.checkSum_tag.trans hq.checkSum_tag.symm
    have hdigits := htrailer.digits_eq htag (hp.checkSum_tag ▸ by decide)
    have hvalue : p.checkSum.value = q.checkSum.value := by rw [hsum, hsum', hcovered]
    rw [Segment.ext hdigits hvalue] at htrailer
    obtain ⟨hi', -⟩ := htrailer.of_append_left
    rw [bytes_eq, List.length_append, Segment.ext hdigits hvalue]
    omega

/-- Any other byte in any place of a frame makes its reading fail. -/
theorem decode_set_error {b rest : Bytes} {m : Message} (h : decode true b = (.ok m, rest))
    {i : Nat} (hi : i < b.length - rest.length) {x : UInt8} (hx : b[i]? ≠ some x) :
    ∃ e, (decode true (b.set i x)).1 = .error e := by
  obtain ⟨p, -, hp, rfl, -⟩ := exists_of_decode h
  rw [List.length_append, Nat.add_sub_cancel] at hi
  cases hread : decode true ((p.bytes ++ rest).set i x) with
  | mk result rest' =>
      cases result with
      | error e => exact ⟨e, rfl⟩
      | ok m' =>
          obtain ⟨q, -, hq, hbytes, -⟩ := exists_of_decode hread
          have hlt : i < (p.bytes ++ rest).length := by
            rw [List.length_append]
            omega
          have hdiffer := DifferAt.of_set hlt hx
          rw [hbytes] at hdiffer
          have hle := length_bytes_le_of_differAt (hp rfl) (hq rfl) hdiffer
          omega

theorem decode_set_error_separator : ∃ e, (decode true ((Utf8.encode
    "8=FIX.4.4\x019=5\x0135=0\x0110=163\x018=F").set 9 0x3d)).1 = .error e := by
  have h : decode true (Utf8.encode "8=FIX.4.4\x019=5\x0135=0\x0110=163\x018=F") =
      (.ok ⟨[⟨.beginString, .text "FIX.4.4"⟩, ⟨.msgType, .text "0"⟩]⟩, [0x38, 0x3d, 0x46]) := by
    with_unfolding_all rfl
  have hx : (Utf8.encode "8=FIX.4.4\x019=5\x0135=0\x0110=163\x018=F")[9]? = some Bytes.soh := by
    decide +kernel
  exact decode_set_error h (by decide +kernel) (hx ▸ by decide)

end Frame

end FixClient
