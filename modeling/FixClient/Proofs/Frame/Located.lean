import FixClient.Proofs.Frame.Delimited

/-!
# Cutting a growing stream

Whether a frame is complete is decided by its own bytes: nothing behind it moves its end, and no
start of it passes for a frame. So there is one way to cut a stream into frames and a rest that
none begins, and a buffer that is inspected after every arrival is cut in this way, wherever the
arrivals are divided. Lengths are added without a bound, so a declared length that no buffer holds
locates nothing.
-/

namespace FixClient.Frame

variable {b c front kept left left' : Bytes} {frames frames' : List Bytes} {n k : Nat}

theorem length?_le (h : length? b = some n) : n ≤ b.length := by
  obtain ⟨v, ds, rest, k, rfl, -, -, hroom, rfl⟩ := length?_eq_some_iff.mp h
  rw [List.length_append]
  omega

theorem length?_pos (h : length? b = some n) : 0 < n := by
  obtain ⟨v, ds, rest, k, -, -, -, -, rfl⟩ := length?_eq_some_iff.mp h
  rw [trailerSize]
  omega

theorem length?_of_take_isPrefix (h : length? b = some n) (hc : b.take n <+: c) :
    length? c = some n := by
  obtain ⟨v, ds, rest, k, rfl, hv, hsize, hroom, rfl⟩ := length?_eq_some_iff.mp h
  obtain ⟨t, rfl⟩ := hc
  rw [List.take_length_add_append, List.append_assoc, length?_heading_append hv hsize, if_pos]
  rw [List.length_append, List.length_take]
  omega

theorem length?_append (h : length? b = some n) (t : Bytes) : length? (b ++ t) = some n :=
  length?_of_take_isPrefix h ((List.take_prefix n b).trans (List.prefix_append b t))

/-- No start of a frame passes for a frame. -/
theorem length?_of_prefix_of_lt (h : length? b = some n) (hfront : front <+: b)
    (hlt : front.length < n) : length? front = none := by
  obtain ⟨t, rfl⟩ := hfront
  cases hlength : length? front with
  | none => rfl
  | some j =>
      have hle := length?_le hlength
      rw [length?_append hlength, Option.some.injEq] at h
      omega

/-- The first bytes of some input that are taken for a frame. -/
def IsLocated (frame : Bytes) : Prop := ∃ b n, length? b = some n ∧ b.take n = frame

theorem isLocated_iff : IsLocated b ↔ length? b = some b.length := by
  constructor
  · rintro ⟨b, n, h, rfl⟩
    rw [length?_of_take_isPrefix h List.prefix_rfl, List.length_take, Nat.min_eq_left (length?_le h)]
  · intro h
    exact ⟨b, b.length, h, List.take_length⟩

theorem IsLocated.length?_append (h : IsLocated b) (t : Bytes) :
    length? (b ++ t) = some b.length :=
  Frame.length?_append (isLocated_iff.mp h) t

theorem IsLocated.cutFirst?_append (h : IsLocated b) (t : Bytes) :
    cutFirst? (b ++ t) = some (b, t) := by
  rw [cutFirst?, h.length?_append, Option.map_some, List.take_left, List.drop_left]

theorem IsLocated.eq_of_prefix (hb : IsLocated b) (hc : IsLocated c) (h : b <+: c) : b = c := by
  obtain ⟨t, rfl⟩ := h
  have hlength := hb.length?_append t
  rw [isLocated_iff.mp hc, Option.some.injEq] at hlength
  exact (List.prefix_append b t).eq_of_length hlength.symm

/-- What the writer makes is located. -/
theorem isLocated_frame (d : FrameDraft) (hlen : d.frame.length < 2 ^ 64) : IsLocated d.frame := by
  have hcut := cutFirst?_frame_append d (t := []) (by rwa [List.append_nil])
  obtain ⟨n, hn, hparts⟩ := Option.map_eq_some_iff.mp hcut
  exact ⟨_, n, hn, (Prod.mk.inj hparts).1⟩

theorem cutFirst?_eq_some_iff : cutFirst? b = some (front, left) ↔
    IsLocated front ∧ b = front ++ left := by
  constructor
  · intro h
    obtain ⟨n, hn, hparts⟩ := Option.map_eq_some_iff.mp h
    obtain ⟨rfl, rfl⟩ := Prod.mk.inj hparts
    exact ⟨⟨b, n, hn, rfl⟩, (List.take_append_drop n b).symm⟩
  · rintro ⟨hfront, rfl⟩
    exact hfront.cutFirst?_append left

theorem cutFirst?_eq_none_iff : cutFirst? b = none ↔ length? b = none := Option.map_eq_none_iff

theorem length_lt_of_cutFirst? (h : cutFirst? b = some (front, left)) :
    left.length < b.length := by
  obtain ⟨hfront, rfl⟩ := cutFirst?_eq_some_iff.mp h
  have hpos := length?_pos (isLocated_iff.mp hfront)
  rw [List.length_append]
  omega

/-- A stream in parts: frames, and a rest that no frame begins. -/
structure IsCut (stream : Bytes) (frames : List Bytes) (left : Bytes) : Prop where
  joined : frames.flatten ++ left = stream
  located : ∀ frame ∈ frames, IsLocated frame
  undecided : length? left = none

namespace IsCut

theorem cons (h : IsCut left frames kept) (hfront : IsLocated front) :
    IsCut (front ++ left) (front :: frames) kept where
  joined := by rw [List.flatten_cons, List.append_assoc, h.joined]
  located := List.forall_mem_cons.mpr ⟨hfront, h.located⟩
  undecided := h.undecided

/-- What is left of a stream is cut together with what arrives later. -/
theorem append (h : IsCut b frames kept) (hlater : IsCut (kept ++ c) frames' left) :
    IsCut (b ++ c) (frames ++ frames') left where
  joined := by
    rw [List.flatten_append, List.append_assoc, hlater.joined, ← List.append_assoc, h.joined]
  located := List.forall_mem_append.mpr ⟨h.located, hlater.located⟩
  undecided := hlater.undecided

/-- There is one way to cut a stream. -/
theorem unique (h : IsCut b frames left) (h' : IsCut b frames' left') :
    frames = frames' ∧ left = left' := by
  -- Both ways begin with the frame that is located in the stream, or both have none.
  induction frames generalizing b frames' with
  | nil =>
      have hb : length? b = none := h.joined ▸ h.undecided
      cases frames' with
      | nil => exact ⟨rfl, h.joined.trans h'.joined.symm⟩
      | cons frame' frames' =>
          have hframe := h'.located frame' List.mem_cons_self
          rw [← h'.joined, List.flatten_cons, List.append_assoc, hframe.length?_append] at hb
          cases hb
  | cons frame frames ih =>
      have hframe := h.located frame List.mem_cons_self
      have hb : b = frame ++ (frames.flatten ++ left) := by
        rw [← h.joined, List.flatten_cons, List.append_assoc]
      have hcut := hframe.cutFirst?_append (frames.flatten ++ left)
      rw [← hb] at hcut
      cases frames' with
      | nil =>
          have hnone : cutFirst? b = none := by
            rw [cutFirst?_eq_none_iff, ← h'.joined]
            exact h'.undecided
          rw [hnone] at hcut
          cases hcut
      | cons frame' frames' =>
          have hframe' := h'.located frame' List.mem_cons_self
          have hcut' := hframe'.cutFirst?_append (frames'.flatten ++ left')
          rw [← List.append_assoc, ← List.flatten_cons, h'.joined, hcut, Option.some.injEq,
            Prod.mk.injEq] at hcut'
          obtain ⟨rfl, hrest⟩ := hcut'
          obtain ⟨rfl, rfl⟩ := ih
            ⟨rfl, fun x hx => h.located x (List.mem_cons_of_mem _ hx), h.undecided⟩
            ⟨hrest.symm, fun x hx => h'.located x (List.mem_cons_of_mem _ hx), h'.undecided⟩
          exact ⟨rfl, rfl⟩

end IsCut

/-- Cuts off frames as long as one is complete. -/
def cutAll (stream : Bytes) : List Bytes × Bytes :=
  match _hcut : cutFirst? stream with
  | none => ([], stream)
  | some (frame, rest) => (frame :: (cutAll rest).1, (cutAll rest).2)
termination_by stream.length
decreasing_by all_goals exact length_lt_of_cutFirst? _hcut

theorem isCut_cutAll (stream : Bytes) : IsCut stream (cutAll stream).1 (cutAll stream).2 := by
  fun_induction cutAll stream with
  | case1 stream hcut => exact ⟨rfl, List.forall_mem_nil _, cutFirst?_eq_none_iff.mp hcut⟩
  | case2 stream frame rest hcut ih =>
      obtain ⟨hframe, rfl⟩ := cutFirst?_eq_some_iff.mp hcut
      exact ih.cons hframe

theorem isCut_iff {stream : Bytes} : IsCut stream frames left ↔ cutAll stream = (frames, left) := by
  constructor
  · intro h
    obtain ⟨rfl, rfl⟩ := h.unique (isCut_cutAll stream)
    rfl
  · intro h
    have hcut := isCut_cutAll stream
    rw [h] at hcut
    exact hcut

/-- The frames of a buffer that is inspected after each arrival, and what it holds in the end. -/
def cutArrivals : Bytes → List Bytes → List Bytes × Bytes
  | kept, [] => ([], kept)
  | kept, chunk :: chunks =>
    let now := cutAll (kept ++ chunk)
    let later := cutArrivals now.2 chunks
    (now.1 ++ later.1, later.2)

theorem isCut_cutArrivals (chunks : List Bytes) (h : length? kept = none) :
    IsCut (kept ++ chunks.flatten) (cutArrivals kept chunks).1 (cutArrivals kept chunks).2 := by
  induction chunks generalizing kept with
  | nil =>
      rw [List.flatten_nil, List.append_nil]
      exact ⟨rfl, List.forall_mem_nil _, h⟩
  | cons chunk chunks ih =>
      have hnow := isCut_cutAll (kept ++ chunk)
      rw [List.flatten_cons, ← List.append_assoc]
      exact hnow.append (ih hnow.undecided)

/-- A frame is located by its own bytes: it is complete in the input, it is the frame of every
input that begins with it, and none is located before its last byte. What the writer makes is
located. Hence no frame is the start of another one, and a stream is cut into the same frames at
every inspection. -/
theorem length?_decided :
    (∀ b n, length? b = some n → n ≤ b.length ∧
      (∀ c, b.take n <+: c → length? c = some n) ∧
        ∀ front, front <+: b → front.length < n → length? front = none) ∧
    (∀ d : FrameDraft, d.frame.length < 2 ^ 64 → IsLocated d.frame) ∧
    (∀ b c, IsLocated b → IsLocated c → b <+: c → b = c) ∧
    ∀ (chunks frames : List Bytes) (left : Bytes),
      cutArrivals [] chunks = (frames, left) ↔ IsCut chunks.flatten frames left := by
  refine ⟨?_, isLocated_frame, ?_, ?_⟩
  · intro b n h
    refine ⟨length?_le h, ?_, ?_⟩
    · intro c hc
      exact length?_of_take_isPrefix h hc
    · intro front hfront hlt
      exact length?_of_prefix_of_lt h hfront hlt
  · intro b c hb hc hprefix
    exact hb.eq_of_prefix hc hprefix
  · intro chunks frames left
    have hnothing : length? [] = none := by decide
    have hcut := isCut_iff.mp (isCut_cutArrivals chunks hnothing)
    rw [List.nil_append] at hcut
    rw [isCut_iff, hcut]

/-- An empty BeginString, a signed length and a body that is no field, in two arrivals divided
inside the declared length. -/
theorem length?_decided_garbage :
    length? (Utf8.encode "8=\x019=+03\x01abcdefghijXYZ") = some 19 ∧
      length? (Utf8.encode "8=\x019=+03\x01abcdefghij") = some 19 ∧
      length? (Utf8.encode "8=\x019=+03\x01abcdefghi") = none ∧
      cutArrivals [] [Utf8.encode "8=\x019=+", Utf8.encode "03\x01abcdefghijXYZ"] =
        ([Utf8.encode "8=\x019=+03\x01abcdefghij"], Utf8.encode "XYZ") := by
  obtain ⟨hlocal, -, -, hcut⟩ := length?_decided
  have hlength : length? (Utf8.encode "8=\x019=+03\x01abcdefghijXYZ") = some 19 := by
    decide +kernel
  obtain ⟨-, hlonger, hshorter⟩ := hlocal _ 19 hlength
  have hframe : length? (Utf8.encode "8=\x019=+03\x01abcdefghij") = some 19 :=
    hlonger _ (by decide +kernel)
  refine ⟨hlength, hframe, hshorter _ (by decide +kernel) (by decide +kernel), ?_⟩
  refine (hcut _ _ _).mpr ⟨by decide +kernel, ?_, by decide +kernel⟩
  intro frame hmem
  obtain rfl := List.mem_singleton.mp hmem
  exact isLocated_iff.mpr (hframe.trans (by decide +kernel))

end FixClient.Frame
