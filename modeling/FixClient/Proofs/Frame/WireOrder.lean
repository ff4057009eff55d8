import FixClient.Frame.Writer

/-!
# The order of fields in a frame

A frame holds the first BeginString of its message, the first field of each header tag
and then what remains: every other field that is not computed, in the order of the
message. This is a rule about places. The writer walks along the message and passes over
the places of the header and the first BeginString that it meets; it puts what remains.
-/

namespace FixClient

namespace Message

/-- The tags whose first field leads the frame, in the order of the frame. -/
def leadingTags : List Tag := .beginString :: headerTags

/-- Whether the field at a place is the first one with a leading tag. -/
def isLeading (m : Message) (f : Field) (i : Nat) : Bool :=
  leadingTags.contains f.tag && m.tags.idxOf f.tag == i

/-- The fields that are neither leading nor computed, in the order of the message. -/
def remaining (m : Message) : List Field :=
  (m.fields.zipIdx.filter fun p => !p.1.tag.isComputed && !m.isLeading p.1 p.2).map Prod.fst

/-- The fields of a message that stand in its frame, in the order of the frame. -/
def wireFields (m : Message) : List Field := leadingTags.filterMap m.find? ++ m.remaining

def writeField (f : Field) : Bytes := WireField.write f.tag f.value.wire

/-- What a frame holds between BodyLength and CheckSum. -/
def body (m : Message) : Bytes := (headerTags.filterMap m.find? ++ m.remaining).flatMap writeField

/-- The first field with a tag taken out. -/
def removeFirst (fields : List Field) (tag : Tag) : List Field :=
  fields.eraseP fun f => f.tag == tag

variable {m : Message} {f g : Field} {fs front rest : List Field} {t : Tag} {tags : List Tag}

section Remaining

theorem removeFirst_cons_of_eq (h : f.tag = t) : removeFirst (f :: fs) t = fs := by
  simp [removeFirst, h]

theorem removeFirst_cons_of_ne (h : f.tag ≠ t) :
    removeFirst (f :: fs) t = f :: removeFirst fs t := by
  simp [removeFirst, h]

theorem foldl_removeFirst_cons_of_notMem (h : f.tag ∉ tags) :
    tags.foldl removeFirst (f :: fs) = f :: tags.foldl removeFirst fs := by
  induction tags generalizing fs with
  | nil => rfl
  | cons t tags ih =>
      rw [List.mem_cons, not_or] at h
      rw [List.foldl_cons, removeFirst_cons_of_ne h.1, ih h.2, List.foldl_cons]

/-- A field that is taken out uses up its tag. -/
theorem foldl_removeFirst_cons_of_mem (h : f.tag ∈ tags) :
    tags.foldl removeFirst (f :: fs) = (tags.erase f.tag).foldl removeFirst fs := by
  induction tags generalizing fs with
  | nil => exact absurd h List.not_mem_nil
  | cons t tags ih =>
      by_cases ht : f.tag = t
      · rw [List.foldl_cons, removeFirst_cons_of_eq ht, ht, List.erase_cons_head]
      · have hmem : f.tag ∈ tags := (List.mem_cons.mp h).resolve_left ht
        rw [List.foldl_cons, removeFirst_cons_of_ne ht, ih hmem,
          List.erase_cons_tail (by simpa using Ne.symm ht), List.foldl_cons]

theorem erase_filter_notMem {seen : List Tag} (hnodup : tags.Nodup) (t : Tag) :
    (tags.filter (· ∉ seen)).erase t = tags.filter (· ∉ seen ++ [t]) := by
  rw [List.Nodup.erase_eq_filter (List.Pairwise.filter _ hnodup), List.filter_filter]
  refine List.filter_congr fun u _ => ?_
  rw [Bool.eq_iff_iff]
  simp [and_comm]

/-- A place is the first one of its tag if the tag has not occurred before. -/
theorem idxOf_append_cons_self_iff (t : Tag) (seen rest : List Tag) :
    (seen ++ t :: rest).idxOf t = seen.length ↔ t ∉ seen := by
  rw [List.idxOf_append]
  constructor
  · intro h hseen
    rw [if_pos hseen] at h
    exact absurd (List.idxOf_lt_length_of_mem hseen) (by omega)
  · intro h
    rw [if_neg h, List.idxOf_cons_self, Nat.zero_add]

/-- Taking out the first fields of some tags, seen from the middle of a message: the tags
that have occurred are used up, and a field goes if it stands at the first place of its tag. -/
theorem foldl_removeFirst_eq_filter (hnodup : tags.Nodup) (front fs : List Field) :
    (tags.filter (· ∉ front.map Field.tag)).foldl removeFirst fs =
      ((fs.zipIdx front.length).filter fun p => !(tags.contains p.1.tag &&
        ((front ++ fs).map Field.tag).idxOf p.1.tag == p.2)).map Prod.fst := by
  induction fs generalizing front with
  | nil =>
      generalize tags.filter _ = left
      induction left with
      | nil => rfl
      | cons t left ih => exact ih
  | cons f fs ih =>
      have hnext := ih (front ++ [f])
      have hfirst := idxOf_append_cons_self_iff f.tag (front.map Field.tag) (fs.map Field.tag)
      rw [List.length_map, ← List.map_cons, ← List.map_append] at hfirst
      rw [List.length_append, List.length_singleton, List.append_assoc, List.singleton_append,
        List.map_append, List.map_singleton, ← erase_filter_notMem hnodup] at hnext
      -- The first field goes exactly if its tag is still looked for.
      have hplace : (tags.contains f.tag &&
          ((front ++ f :: fs).map Field.tag).idxOf f.tag == front.length) =
            decide (f.tag ∈ tags.filter (· ∉ front.map Field.tag)) := by
        rw [Bool.eq_iff_iff, Bool.and_eq_true, List.contains_iff_mem, beq_iff_eq, hfirst,
          decide_eq_true_eq, List.mem_filter, decide_eq_true_eq]
      rw [List.zipIdx_cons, List.filter_cons, hplace]
      by_cases hgoes : f.tag ∈ tags.filter (· ∉ front.map Field.tag)
      · rw [foldl_removeFirst_cons_of_mem hgoes, hnext, decide_eq_true hgoes]
        rfl
      · rw [List.erase_of_not_mem hgoes] at hnext
        rw [foldl_removeFirst_cons_of_notMem hgoes, hnext, decide_eq_false hgoes]
        rfl

theorem remaining_eq_filter (m : Message) : m.remaining =
    (leadingTags.foldl removeFirst m.fields).filter fun f => !f.tag.isComputed := by
  have hnodup : leadingTags.Nodup := by decide
  have htaken := foldl_removeFirst_eq_filter hnodup [] m.fields
  rw [List.filter_eq_self.mpr (by simp), List.nil_append, List.length_nil] at htaken
  rw [remaining, htaken, List.filter_map, List.filter_filter]
  rfl

end Remaining

section Find

theorem find?_cons_of_eq (h : f.tag = t) : find? ⟨f :: fs⟩ t = some f :=
  List.find?_cons_of_pos (by simpa using h)

theorem find?_cons_of_ne (h : f.tag ≠ t) : find? ⟨f :: fs⟩ t = find? ⟨fs⟩ t :=
  List.find?_cons_of_neg (by simpa using h)

theorem tag_of_find? (h : m.find? t = some f) : f.tag = t := by
  simpa using List.find?_some h

theorem tag_ne_of_find? (h : m.find? t = none) : ∀ f ∈ m.fields, f.tag ≠ t := by
  simpa [find?] using h

end Find

section Places

variable {i : Nat}

theorem find?_zipIdx (fs : List Field) (t : Tag) (n : Nat) :
    ((fs.zipIdx n).find? fun p => p.1.tag == t) =
      (fs.find? fun f => f.tag == t).map fun f => (f, n + (fs.map Field.tag).idxOf t) := by
  induction fs generalizing n with
  | nil => rfl
  | cons f fs ih =>
      by_cases h : f.tag = t
      · rw [List.zipIdx_cons, List.find?_cons_of_pos (by simpa using h),
          List.find?_cons_of_pos (by simpa using h), List.map_cons, h, List.idxOf_cons_self]
        rfl
      · rw [List.zipIdx_cons, List.find?_cons_of_neg (by simpa using h),
          List.find?_cons_of_neg (by simpa using h), ih, List.map_cons, List.idxOf_cons,
          beq_false_of_ne h, cond_false, Nat.add_assoc, Nat.add_comm 1]

theorem place?_eq (m : Message) (t : Tag) :
    m.place? t = (m.find? t).map fun f => (f, m.tags.idxOf t) := by
  rw [place?, find?_zipIdx, Nat.zero_add]
  rfl

theorem map_fst_header (m : Message) : m.header.map Prod.fst = headerTags.filterMap m.find? := by
  have hfst : (fun t => (m.place? t).map Prod.fst) = m.find? := by
    funext t
    rw [place?_eq, Option.map_map]
    exact congrFun Option.map_id _
  rw [header, List.map_filterMap, hfst]

/-- A place is one of the header if it is the first one of a header tag. -/
theorem mem_header_iff (hm : m.fields = front ++ f :: rest) :
    front.length ∈ m.header.map Prod.snd ↔
      f.tag ∈ headerTags ∧ f.tag ∉ front.map Field.tag := by
  have htags : m.tags = front.map Field.tag ++ f.tag :: rest.map Field.tag := by
    rw [tags, hm, List.map_append, List.map_cons]
  have hfirst := idxOf_append_cons_self_iff f.tag (front.map Field.tag) (rest.map Field.tag)
  rw [List.length_map, ← htags] at hfirst
  rw [← hfirst, header, List.map_filterMap, List.mem_filterMap]
  constructor
  · rintro ⟨t, ht, hplace⟩
    rw [place?_eq, Option.map_map] at hplace
    obtain ⟨g, hg, hidx⟩ := Option.map_eq_some_iff.mp hplace
    have hmem : t ∈ m.tags := List.mem_map.mpr ⟨g, List.mem_of_find?_eq_some hg, tag_of_find? hg⟩
    -- The tag at this place is the one that was looked for.
    have hlt := List.idxOf_lt_length_of_mem hmem
    have hat : m.tags[m.tags.idxOf t]? = some t :=
      (List.getElem?_eq_getElem hlt).trans (congrArg some (List.getElem_idxOf hlt))
    have hidx' : m.tags.idxOf t = (front.map Field.tag).length := by
      rw [List.length_map]
      exact hidx
    rw [hidx', htags, List.getElem?_append_right (Nat.le_refl _), Nat.sub_self] at hat
    obtain rfl : f.tag = t := Option.some.inj hat
    exact ⟨ht, hidx⟩
  · rintro ⟨hmem, hidx⟩
    refine ⟨f.tag, hmem, ?_⟩
    rw [place?_eq, Option.map_map]
    cases hfind : m.find? f.tag with
    | none =>
        refine absurd rfl (tag_ne_of_find? hfind f ?_)
        rw [hm]
        exact List.mem_append_right _ List.mem_cons_self
    | some g => exact congrArg some hidx

theorem isLeading_iff (hm : m.fields = front ++ f :: rest) :
    m.isLeading f front.length = true ↔ f.tag ∈ leadingTags ∧ f.tag ∉ front.map Field.tag := by
  rw [isLeading, Bool.and_eq_true, List.contains_iff_mem, beq_iff_eq, tags, hm, List.map_append,
    List.map_cons, ← idxOf_append_cons_self_iff, List.length_map]

theorem ne_beginString_of_mem (h : t ∈ headerTags) : t ≠ .beginString := by
  rintro rfl
  exact absurd h (by decide)

end Places

section Loop

variable {header : List Nat} {places : List (Field × Nat)} {seen : Bool} {b : FrameBody} {i : Nat}

theorem putFields_cons (b : FrameBody) (f : Field) (fs : List Field) :
    b.putFields (f :: fs) = (b.putValue f.tag f.value).putFields fs := rfl

theorem bytes_putFields (b : FrameBody) (fs : List Field) :
    (b.putFields fs).bytes = b.bytes ++ fs.flatMap writeField := by
  induction fs generalizing b with
  | nil => exact (List.append_nil _).symm
  | cons f fs ih =>
      rw [putFields_cons, ih, List.flatMap_cons, ← List.append_assoc]
      rfl

theorem isValid_eq_false_iff : t.isValid = false ↔ t = 0 := by
  rw [Tag.isValid, bne_eq_false_iff_eq]
  exact ⟨fun h => congrArg Tag.mk h, fun h => congrArg Tag.number h⟩

theorem isValid_of_ne (h : t ≠ 0) : t.isValid = true := by
  rw [← Bool.not_eq_false, isValid_eq_false_iff]
  exact h

theorem putOthers_of_invalid (h : ∃ p ∈ places, p.1.tag = 0) :
    putOthers header places seen b = .error (.invalidTag 0) := by
  induction places generalizing seen b with
  | nil =>
      obtain ⟨p, hp, -⟩ := h
      cases hp
  | cons p places ih =>
      obtain ⟨f, i⟩ := p
      by_cases hvalid : f.tag = 0
      · rw [putOthers, isValid_eq_false_iff.mpr hvalid, hvalid]
        rfl
      · obtain ⟨q, hq, hzero⟩ := h
        have hq' : q ∈ places := by
          rcases List.mem_cons.mp hq with rfl | hq'
          · exact absurd hzero hvalid
          · exact hq'
        have hrest : ∀ {seen b}, putOthers header places seen b = .error (.invalidTag 0) :=
          ih ⟨q, hq', hzero⟩
        rw [putOthers, isValid_of_ne hvalid, hrest, hrest, hrest]
        simp

/-- The flag says whether BeginString is among the fields that were passed. -/
theorem seen_append (hseen : seen = true ↔ .beginString ∈ front.map Field.tag) :
    (seen || f.tag == .beginString) = true ↔ .beginString ∈ (front ++ [f]).map Field.tag := by
  rw [Bool.or_eq_true, beq_iff_eq, hseen, List.map_append, List.mem_append, List.map_singleton,
    List.mem_singleton, eq_comm (a := f.tag)]

/-- What leads the frame is in the header, or is the first BeginString that the walk meets. -/
theorem isLeading_eq (hm : m.fields = front ++ f :: rest)
    (hseen : seen = true ↔ .beginString ∈ front.map Field.tag) :
    m.isLeading f front.length =
      ((m.header.map Prod.snd).contains front.length || f.tag == .beginString && !seen) := by
  have hunseen : (!seen) = true ↔ .beginString ∉ front.map Field.tag := by
    rw [Bool.not_eq_true', ← Bool.not_eq_true, hseen]
  rw [Bool.eq_iff_iff, isLeading_iff hm, Bool.or_eq_true, List.contains_iff_mem, mem_header_iff hm,
    Bool.and_eq_true, beq_iff_eq, hunseen]
  constructor
  · rintro ⟨hmem, hfirst⟩
    rcases List.mem_cons.mp hmem with htag | hmem'
    · exact .inr ⟨htag, htag ▸ hfirst⟩
    · exact .inl ⟨hmem', hfirst⟩
  · rintro (⟨hmem, hfirst⟩ | ⟨htag, hfirst⟩)
    · exact ⟨List.mem_cons_of_mem _ hmem, hfirst⟩
    · exact ⟨htag ▸ List.mem_cons_self, htag ▸ hfirst⟩

/-- One step of the walk. What remains is put, and nothing else. -/
theorem putOthers_cons (hm : m.fields = front ++ f :: rest) (hvalid : f.tag ≠ 0)
    (hseen : seen = true ↔ .beginString ∈ front.map Field.tag) (b : FrameBody) :
    putOthers (m.header.map Prod.snd) ((f, front.length) :: places) seen b =
      putOthers (m.header.map Prod.snd) places (seen || f.tag == .beginString)
        (if !f.tag.isComputed && !m.isLeading f front.length then b.putValue f.tag f.value
          else b) := by
  have hplace := mem_header_iff hm
  rw [putOthers, isValid_of_ne hvalid, Bool.not_true, if_neg Bool.false_ne_true,
    isLeading_eq hm hseen]
  by_cases hheader : front.length ∈ m.header.map Prod.snd
  · have hne : (f.tag == .beginString) = false :=
      beq_false_of_ne (ne_beginString_of_mem (hplace.mp hheader).1)
    simp [hheader, hne]
  by_cases hcomputed : f.tag.isComputed = true
  · have hne : (f.tag == .beginString) = false := by
      apply beq_false_of_ne
      intro h
      rw [h] at hcomputed
      cases hcomputed
    simp [hcomputed, hne]
  -- Here it depends on BeginString and the flag alone.
  rw [Bool.not_eq_true] at hcomputed
  cases htag : f.tag == .beginString with
  | false => simp [hheader, hcomputed]
  | true => cases seen <;> simp [hheader, hcomputed]

/-- The rest of the walk, seen from the middle of a message. -/
theorem putOthers_eq (hm : m.fields = front ++ fs) (hvalid : ∀ f ∈ fs, f.tag ≠ 0)
    (hseen : seen = true ↔ .beginString ∈ front.map Field.tag) (b : FrameBody) :
    putOthers (m.header.map Prod.snd) (fs.zipIdx front.length) seen b =
      .ok (b.putFields (((fs.zipIdx front.length).filter fun p =>
        !p.1.tag.isComputed && !m.isLeading p.1 p.2).map Prod.fst)) := by
  -- What has been passed grows with each step, and `hseen` is kept as the invariant of the flag.
  induction fs generalizing front seen b with
  | nil => rfl
  | cons f fs ih =>
      have hm' : m.fields = (front ++ [f]) ++ fs := by
        rw [hm, List.append_assoc]
        rfl
      have hfs : ∀ g ∈ fs, g.tag ≠ 0 := fun g hg => hvalid g (List.mem_cons_of_mem f hg)
      have hrest := ih hm' hfs (seen_append hseen)
      rw [List.length_append, List.length_singleton] at hrest
      rw [List.zipIdx_cons, putOthers_cons hm (hvalid f List.mem_cons_self) hseen, hrest,
        List.filter_cons]
      split
      · rfl
      · rfl

end Loop

section Encode

variable {frame : Bytes}

/-- The fields behind MsgType. -/
def bodyFields (m : Message) : List Field :=
  (m.find? .senderCompId).toList ++ (m.find? .targetCompId).toList ++ m.remaining

theorem wireFields_eq (hf : m.find? .beginString = some f) (hg : m.find? .msgType = some g) :
    m.wireFields = f :: g :: m.bodyFields := by
  simp only [wireFields, bodyFields, leadingTags, headerTags, List.filterMap_cons,
    List.filterMap_nil, hf, hg]
  cases m.find? .senderCompId <;> cases m.find? .targetCompId <;> rfl

theorem body_eq (hg : m.find? .msgType = some g) :
    m.body = (g :: m.bodyFields).flatMap writeField := by
  rw [body]
  simp only [bodyFields, headerTags, List.filterMap_cons, List.filterMap_nil, hg]
  cases m.find? .senderCompId <;> cases m.find? .targetCompId <;> rfl

theorem mem_of_mem_wireFields (h : f ∈ m.wireFields) : f ∈ m.fields := by
  rcases List.mem_append.mp h with h | h
  · obtain ⟨t, -, ht⟩ := List.mem_filterMap.mp h
    exact List.mem_of_find?_eq_some ht
  · obtain ⟨p, hp, rfl⟩ := List.mem_map.mp h
    exact List.fst_mem_of_mem_zipIdx (List.mem_filter.mp hp).1

theorem isComputed_of_mem_wireFields (h : f ∈ m.wireFields) : f.tag.isComputed = false := by
  rcases List.mem_append.mp h with h | h
  · obtain ⟨t, hmem, ht⟩ := List.mem_filterMap.mp h
    rw [tag_of_find? ht]
    exact (by decide : ∀ t ∈ leadingTags, t.isComputed = false) t hmem
  · obtain ⟨p, hp, rfl⟩ := List.mem_map.mp h
    have hkept := (List.mem_filter.mp hp).2
    rw [Bool.and_eq_true, Bool.not_eq_true'] at hkept
    exact hkept.1

theorem encode_of_no_beginString (hf : m.find? .beginString = none) :
    m.encode = .error (.missingField .beginString) := by
  simp [encode, get?, hf]

theorem encode_of_no_msgType (hf : m.find? .beginString = some f)
    (hg : m.find? .msgType = none) : m.encode = .error (.missingField .msgType) := by
  simp [encode, get?, hf, place?_eq, hg]

/-- The writer begins with the header and goes on with what remains. -/
theorem encode_of_find? (hf : m.find? .beginString = some f) (hg : m.find? .msgType = some g) :
    m.encode = if ∀ h ∈ m.fields, h.tag ≠ 0 then .ok (Frame.ofBody f.value.wire m.body)
      else .error (.invalidTag 0) := by
  simp only [encode, get?, hf, place?_eq, hg, Option.map_some]
  generalize hbegun : FrameBody.empty.putFields (m.header.map Prod.fst) = begun
  by_cases htags : ∀ h ∈ m.fields, h.tag ≠ 0
  · have hall : m.fields = [] ++ m.fields := rfl
    have hothers : putOthers (m.header.map Prod.snd) m.fields.zipIdx false begun =
        .ok (begun.putFields m.remaining) := putOthers_eq hall htags (by simp) begun
    have hbody : (begun.putFields m.remaining).bytes = m.body := by
      rw [bytes_putFields, ← hbegun, bytes_putFields, map_fst_header, body, List.flatMap_append]
      rfl
    rw [hothers, if_pos htags, ← hbody]
    rfl
  · rw [if_neg htags, putOthers_of_invalid]
    obtain ⟨h, hmem, hzero⟩ : ∃ h ∈ m.fields, h.tag = 0 := by simpa using htags
    obtain ⟨i, hi⟩ := List.getElem?_of_mem hmem
    exact ⟨(h, i), List.mem_zipIdx_iff_getElem?.mpr hi, hzero⟩

theorem encode_eq_ok_iff : m.encode = .ok frame ↔
    ∃ f g, m.find? .beginString = some f ∧ m.find? .msgType = some g ∧
      (∀ h ∈ m.fields, h.tag ≠ 0) ∧ frame = Frame.ofBody f.value.wire m.body := by
  constructor
  · intro h
    cases hf : m.find? .beginString with
    | none =>
        rw [encode_of_no_beginString hf] at h
        cases h
    | some f =>
        cases hg : m.find? .msgType with
        | none =>
            rw [encode_of_no_msgType hf hg] at h
            cases h
        | some g =>
            rw [encode_of_find? hf hg] at h
            split at h
            · next htags => exact ⟨f, g, rfl, rfl, htags, (Except.ok.inj h).symm⟩
            · cases h
  · rintro ⟨f, g, hf, hg, htags, rfl⟩
    rw [encode_of_find? hf hg, if_pos htags]

end Encode

section Lifted

/-- The component identifiers stand where the writer puts them: the first SenderCompID in
front of everything else, the first TargetCompID right behind it, or else in front. -/
structure LiftedInPlace (tags : List Tag) : Prop where
  sender : .senderCompId ∈ tags → tags.idxOf .senderCompId = 0
  target : .targetCompId ∈ tags → tags.idxOf .targetCompId =
    if .senderCompId ∈ tags then tags.idxOf .senderCompId + 1 else 0

theorem liftedInPlace_bodyFields (m : Message) : LiftedInPlace (m.bodyFields.map Field.tag) := by
  have hmem : ∀ f ∈ m.remaining, f ∈ m.fields := fun f hf =>
    mem_of_mem_wireFields (List.mem_append_right _ hf)
  have hnone : ∀ t, m.find? t = none → t ∉ m.remaining.map Field.tag := by
    intro t ht h
    obtain ⟨f, hf, htag⟩ := List.mem_map.mp h
    exact tag_ne_of_find? ht f (hmem f hf) htag
  have hne : Tag.senderCompId ≠ Tag.targetCompId := by decide
  rw [bodyFields, List.map_append, List.map_append]
  cases hs : m.find? .senderCompId with
  | none =>
      have hsender := hnone _ hs
      cases ht : m.find? .targetCompId with
      | none => exact ⟨fun h => absurd h hsender, fun h => absurd h (hnone _ ht)⟩
      | some g =>
          have hg : g.tag = .targetCompId := tag_of_find? ht
          constructor <;> simp [hg, hne, hsender]
  | some f =>
      have hf : f.tag = .senderCompId := tag_of_find? hs
      cases ht : m.find? .targetCompId with
      | none => constructor <;> simp [hf, hne.symm, hnone _ ht]
      | some g =>
          have hg : g.tag = .targetCompId := tag_of_find? ht
          simp only [Option.toList_some, List.map_cons, List.map_nil, List.cons_append,
            List.nil_append, hf, hg]
          refine ⟨fun _ => List.idxOf_cons_self, fun _ => ?_⟩
          rw [if_pos List.mem_cons_self, List.idxOf_cons_self, List.idxOf_cons,
            beq_false_of_ne hne, List.idxOf_cons_self]
          rfl

theorem exists_cons_of_idxOf_eq_zero (hmem : t ∈ fs.map Field.tag)
    (h : (fs.map Field.tag).idxOf t = 0) : ∃ f rest, fs = f :: rest ∧ f.tag = t := by
  cases fs with
  | nil => exact absurd hmem List.not_mem_nil
  | cons f rest =>
      refine ⟨f, rest, rfl, ?_⟩
      rw [List.map_cons, List.idxOf_cons] at h
      by_cases htag : f.tag = t
      · exact htag
      · rw [beq_false_of_ne htag] at h
        cases h

theorem removeFirst_of_notMem (h : t ∉ fs.map Field.tag) : removeFirst fs t = fs := by
  refine List.eraseP_of_forall_not fun f hf htag => h ?_
  exact List.mem_map.mpr ⟨f, hf, by simpa using htag⟩

theorem find?_eq_none_of_notMem (h : t ∉ fs.map Field.tag) : find? ⟨fs⟩ t = none := by
  refine List.find?_eq_none.mpr fun f hf htag => h ?_
  exact List.mem_map.mpr ⟨f, hf, by simpa using htag⟩

/-- Lifting the first field with a tag changes nothing where it is in front. -/
theorem find?_append_removeFirst (h : t ∈ fs.map Field.tag → (fs.map Field.tag).idxOf t = 0) :
    (find? ⟨fs⟩ t).toList ++ removeFirst fs t = fs := by
  by_cases hmem : t ∈ fs.map Field.tag
  · obtain ⟨f, rest, rfl, hf⟩ := exists_cons_of_idxOf_eq_zero hmem (h hmem)
    rw [removeFirst_cons_of_eq hf, find?_cons_of_eq hf]
    rfl
  · rw [removeFirst_of_notMem hmem, find?_eq_none_of_notMem hmem]
    rfl

theorem lift_eq_self (h : LiftedInPlace (fs.map Field.tag)) :
    (find? ⟨fs⟩ .senderCompId).toList ++ ((find? ⟨fs⟩ .targetCompId).toList ++
      removeFirst (removeFirst fs .senderCompId) .targetCompId) = fs := by
  by_cases hmem : .senderCompId ∈ fs.map Field.tag
  · have hzero := h.sender hmem
    have htarget := h.target
    rw [if_pos hmem, hzero] at htarget
    obtain ⟨f, rest, rfl, hf⟩ := exists_cons_of_idxOf_eq_zero hmem hzero
    have hne : f.tag ≠ .targetCompId := hf ▸ by decide
    have hrest : .targetCompId ∈ rest.map Field.tag →
        (rest.map Field.tag).idxOf .targetCompId = 0 := by
      intro h
      have hone := htarget (List.mem_cons_of_mem _ h)
      rw [List.map_cons, List.idxOf_cons, beq_false_of_ne hne] at hone
      exact Nat.succ.inj hone
    rw [removeFirst_cons_of_eq hf, find?_cons_of_eq hf, find?_cons_of_ne hne,
      find?_append_removeFirst hrest]
    rfl
  · have htarget := h.target
    rw [if_neg hmem] at htarget
    rw [removeFirst_of_notMem hmem, find?_eq_none_of_notMem hmem,
      find?_append_removeFirst htarget]
    rfl

/-- The writer keeps the order of a message that has the order of a frame. -/
theorem bodyFields_eq_of_liftedInPlace {f g : Field} (hf : f.tag = .beginString)
    (hg : g.tag = .msgType) (hcomputed : ∀ h ∈ fs, h.tag.isComputed = false)
    (h : LiftedInPlace (fs.map Field.tag)) : bodyFields ⟨f :: g :: fs⟩ = fs := by
  have htaken : leadingTags.foldl removeFirst (f :: g :: fs) =
      removeFirst (removeFirst fs .senderCompId) .targetCompId := by
    rw [foldl_removeFirst_cons_of_mem (hf ▸ by decide), hf,
      foldl_removeFirst_cons_of_mem (hg ▸ by decide), hg]
    rfl
  have hkept : ∀ h ∈ removeFirst (removeFirst fs .senderCompId) .targetCompId,
      (!h.tag.isComputed) = true := by
    intro h hmem
    rw [hcomputed h (List.mem_of_mem_eraseP (List.mem_of_mem_eraseP hmem))]
    rfl
  have hfind : ∀ t, f.tag ≠ t → g.tag ≠ t → find? ⟨f :: g :: fs⟩ t = find? ⟨fs⟩ t :=
    fun t hft hgt => (find?_cons_of_ne hft).trans (find?_cons_of_ne hgt)
  rw [bodyFields, remaining_eq_filter, htaken,
    List.filter_eq_self.mpr hkept, hfind _ (hf ▸ by decide) (hg ▸ by decide),
    hfind _ (hf ▸ by decide) (hg ▸ by decide), List.append_assoc, lift_eq_self h]

end Lifted

end Message

end FixClient
