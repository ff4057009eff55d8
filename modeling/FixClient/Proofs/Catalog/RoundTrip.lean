import FixClient.Catalog.Build
import FixClient.Proofs.Frame.Stream

/-!
# Requests on the wire

The message of a request has its fields in the order of a frame, so the writer moves none of
them. What a request adds of its own, numbers, codes, flags and times, is written in
characters that end no field; only the texts that a caller chooses can hold a separator. So
every request is written, and one whose texts are free of separators is read back as it was built.
-/

namespace FixClient

namespace Numeral

theorem soh_notMem {cs : List Char} (h : ∀ c ∈ cs, c.isDigit = true) : '\x01' ∉ cs :=
  fun hmem => absurd (h '\x01' hmem) (by decide)

@[simp] theorem soh_notMem_digits (n : Nat) : '\x01' ∉ digits n :=
  soh_notMem fun _ hc => isDigit_of_mem_digits hc

@[simp] theorem soh_notMem_fixed (width n : Nat) : '\x01' ∉ fixed width n :=
  soh_notMem fun _ hc => isDigit_of_mem_fixed hc

end Numeral

@[simp] theorem Decimal.soh_notMem_text (d : Decimal) : '\x01' ∉ d.text := by
  have hunsigned : '\x01' ∉ unsignedText d.magnitude d.scale := by
    rw [unsignedText]
    split <;> simp
  rw [text]
  split <;> simp [hunsigned]

@[simp] theorem Timestamp.soh_notMem_dateText (t : Timestamp) : '\x01' ∉ t.dateText := by
  simp [dateText]

@[simp] theorem Timestamp.soh_notMem_secondsText (t : Timestamp) : '\x01' ∉ t.secondsText := by
  simp [secondsText]

/-- An enumeration whose members are all written as digits. -/
class DigitCode (α : Type) [Code α] : Prop where
  isDigit_char : ∀ a : α, (Code.char a).isDigit = true

instance : DigitCode Side := ⟨fun a => by cases a <;> rfl⟩

instance : DigitCode OrdType := ⟨fun a => by cases a <;> rfl⟩

instance : DigitCode TimeInForce := ⟨fun a => by cases a <;> rfl⟩

instance : DigitCode SubscriptionRequestType := ⟨fun a => by cases a <;> rfl⟩

instance : DigitCode MdEntryType := ⟨fun a => by cases a <;> rfl⟩

instance : DigitCode MdUpdateType := ⟨fun a => by cases a <;> rfl⟩

instance : DigitCode EncryptMethod := ⟨fun a => by cases a; rfl⟩

instance : DigitCode MassCancelRequestType := ⟨fun a => by cases a <;> rfl⟩

instance : DigitCode MassStatusReqType := ⟨fun a => by cases a <;> rfl⟩

instance : DigitCode TradeRequestType := ⟨fun a => by cases a; rfl⟩

instance : DigitCode SecurityListRequestType := ⟨fun a => by cases a <;> rfl⟩

namespace Value

/-- A value whose field is read back as it was written. -/
structure Plain (v : Value) : Prop where
  valid_wire : Utf8.Valid v.wire
  soh_notMem : Bytes.soh ∉ v.wire

theorem plain_iff {v : Value} (h : v.wire = Utf8.encode v.display) : v.Plain ↔ '\x01' ∉ v.shown := by
  have hsoh : Bytes.soh ∈ Utf8.encode v.display ↔ '\x01' ∈ v.display.toList :=
    Utf8.ascii_mem_encode_iff (c := '\x01') (by decide)
  rw [← h, display, String.toList_ofList] at hsoh
  exact ⟨fun hv => hsoh.not.mp hv.soh_notMem, fun hv => ⟨⟨_, h.symm⟩, hsoh.not.mpr hv⟩⟩

@[simp] theorem plain_text (s : String) : (text s).Plain ↔ '\x01' ∉ s.toList := plain_iff rfl

@[simp] theorem plain_uint (n : UInt64) : (uint n).Plain :=
  (plain_iff rfl).mpr (Numeral.soh_notMem_digits _)

@[simp] theorem plain_count (n : UInt32) : (count n).Plain := plain_uint _

@[simp] theorem plain_decimal (d : Decimal) : (decimal d).Plain := (plain_iff rfl).mpr d.soh_notMem_text

@[simp] theorem plain_flag (b : Bool) : (flag b).Plain :=
  (plain_iff rfl).mpr (by cases b <;> simp [shown])

@[simp] theorem plain_code {α : Type} [Code α] [DigitCode α] (a : α) : (code a).Plain :=
  (plain_iff rfl).mpr (Numeral.soh_notMem (List.forall_mem_singleton.mpr (DigitCode.isDigit_char a)))

@[simp] theorem plain_compId (c : CompId) : (compId c).Plain ↔ '\x01' ∉ c.text.toList := plain_text _

end Value

def Identity.texts (id : Identity) : List String :=
  [id.beginString, id.sender.text, id.target.text, id.account, id.exchange, id.symbol]

namespace Request

open Value

@[simp] theorem plain_time (t : Timestamp) : (time t).Plain := by simp [time]

@[simp] theorem plain_date (t : Timestamp) : (date t).Plain := by simp [date]

/-- The texts that a caller chooses for a request. -/
def texts : Request → List String
  | logon p => [p.username, p.password]
  | logout => []
  | heartbeat testReqId => testReqId.toList
  | testRequest testReqId => [testReqId]
  | marketData p => [p.mdReqId]
  | newOrder p => [p.clOrdId]
  | cancel p => [p.clOrdId, p.origClOrdId]
  | replace p => [p.clOrdId, p.origClOrdId]
  | orderStatus p => [p.clOrdId]
  | positions p => [p.posReqId]
  | massStatus p => [p.massStatusReqId]
  | massCancel p => [p.clOrdId]
  | tradeCapture p => [p.tradeRequestId]
  | securityList p => [p.securityReqId]

/-- The tags that a request writes behind the header, in order. -/
def bodyTags : Request → List Tag
  | logon _ => [553, 554, 108, 98, 141]
  | logout => []
  | heartbeat none => []
  | heartbeat (some _) => [112]
  | testRequest _ => [112]
  | marketData p =>
    [262, 263, 264, 265, 266, 267] ++ List.replicate p.entryTypes.length 269 ++ [146, 55, 207]
  | newOrder _ => [11, 1, 55, 207, 54, 40, 38, 44, 59, 60]
  | cancel _ => [11, 41, 1, 55, 207, 54, 38, 60]
  | replace _ => [11, 41, 1, 55, 207, 54, 40, 38, 44, 60]
  | orderStatus _ => [11, 1, 55, 207, 54]
  | positions _ => [1, 207, 55, 263, 581, 710, 724, 715, 60]
  | massStatus _ => [1, 207, 55, 584, 585]
  | massCancel _ => [207, 55, 11, 530, 60]
  | tradeCapture _ => [207, 55, 568, 569, 263]
  | securityList _ => [320, 559, 207, 263]

variable {id : Identity} {r : Request}

theorem tags_body (id : Identity) (r : Request) : (r.body id).map Field.tag = r.bodyTags := by
  cases r with
  | heartbeat testReqId => cases testReqId <;> rfl
  | marketData p =>
      simp [body, bodyTags, List.map_const', Function.comp_def]
  | _ => rfl

theorem tags_build (id : Identity) (r : Request) :
    (r.build id).tags = [8, 35, 49, 56] ++ r.bodyTags := by
  rw [Message.tags, build, List.map_append, tags_body]
  rfl

theorem bodyTags_valid (r : Request) : ∀ t ∈ r.bodyTags, t ≠ 0 ∧ t.isComputed = false := by
  cases r with
  | heartbeat testReqId => cases testReqId <;> simp only [bodyTags] <;> decide
  | marketData p =>
      have hentry : ∀ t ∈ List.replicate p.entryTypes.length (269 : Tag),
          t ≠ 0 ∧ t.isComputed = false := by
        intro t ht
        rw [List.eq_of_mem_replicate ht]
        decide
      simp only [bodyTags, List.forall_mem_append]
      exact ⟨⟨by decide, hentry⟩, by decide⟩
  | _ => simp only [bodyTags]; decide

theorem plain_body (hid : ∀ s ∈ id.texts, '\x01' ∉ s.toList) (hr : ∀ s ∈ r.texts, '\x01' ∉ s.toList) :
    ∀ f ∈ r.body id, f.value.Plain := by
  simp only [Identity.texts, List.forall_mem_cons] at hid
  obtain ⟨-, -, -, haccount, hexchange, hsymbol, -⟩ := hid
  cases r with
  | logout => exact nofun
  | heartbeat testReqId => simpa [texts, body] using hr
  | marketData p =>
      simp only [texts, List.forall_mem_singleton] at hr
      simp [body, or_imp, forall_and, hr, hexchange, hsymbol]
  | _ =>
      simp only [texts, List.forall_mem_cons] at hr
      simp [body, hr, haccount, hexchange, hsymbol]

/-- A market data request counts its entry types in front of them. -/
theorem getAll_marketData (id : Identity) (p : MarketDataRequest) :
    (build id (marketData p)).getAll 267 = [.uint p.entryTypes.length.toUInt64] ∧
      (build id (marketData p)).getAll 269 = p.entryTypes.map .code := by
  have hall : p.entryTypes.filter (fun _ => true) = p.entryTypes :=
    List.filter_eq_self.mpr fun _ _ => rfl
  simp +decide [Message.getAll, build, header, body, List.filter_map, Function.comp_def, hall]

theorem tags_valid (id : Identity) (r : Request) :
    ∀ f ∈ (r.build id).fields, f.tag ≠ 0 ∧ f.tag.isComputed = false := by
  intro f hf
  have htag : f.tag ∈ [8, 35, 49, 56] ++ r.bodyTags := tags_build id r ▸ List.mem_map_of_mem hf
  rcases List.mem_append.mp htag with h | h
  · exact (by decide : ∀ t ∈ ([8, 35, 49, 56] : List Tag), t ≠ 0 ∧ t.isComputed = false) _ h
  · exact bodyTags_valid r _ h

theorem exists_encode_build (id : Identity) (r : Request) :
    ∃ frame, (r.build id).encode = .ok frame :=
  ⟨_, Message.encode_eq_ok_iff.mpr ⟨_, _, rfl, rfl, fun f hf => (tags_valid id r f hf).1, rfl⟩⟩

/-- The writer moves no field of a request. -/
theorem wireFields_build (id : Identity) (r : Request) :
    (r.build id).wireFields = (r.build id).fields := by
  have hcomputed : ∀ f ∈ (r.build id).fields.drop 2, f.tag.isComputed = false :=
    fun f hf => (tags_valid id r f (List.mem_of_mem_drop hf)).2
  -- The identifiers that the writer lifts stand behind the type already.
  have hlifted : Message.LiftedInPlace (((r.build id).fields.drop 2).map Field.tag) :=
    ⟨fun _ => rfl, fun _ => rfl⟩
  rw [Message.wireFields_eq (m := r.build id) rfl rfl]
  exact congrArg _ (congrArg _ (Message.bodyFields_eq_of_liftedInPlace rfl rfl hcomputed hlifted))

theorem plain_build (hid : ∀ s ∈ id.texts, '\x01' ∉ s.toList)
    (hr : ∀ s ∈ r.texts, '\x01' ∉ s.toList) : ∀ f ∈ (r.build id).fields, f.value.Plain := by
  have htype : '\x01' ∉ r.msgType.code.toList := by
    cases r <;> simp only [msgType] <;> decide
  have hbody := plain_body hid hr
  simp only [Identity.texts, List.forall_mem_cons] at hid
  obtain ⟨hbegin, hsender, htarget, -⟩ := hid
  simp only [build, header, List.cons_append, List.nil_append, List.forall_mem_cons]
  exact ⟨(plain_text _).mpr hbegin, (plain_text _).mpr htype, (plain_compId _).mpr hsender,
    (plain_compId _).mpr htarget, hbody⟩

theorem transmissible_build (hname : "FIX".toList <+: id.beginString.toList)
    (hid : ∀ s ∈ id.texts, '\x01' ∉ s.toList) (hr : ∀ s ∈ r.texts, '\x01' ∉ s.toList) :
    (r.build id).Transmissible where
  beginString := by
    refine ⟨_, rfl, ?_⟩
    rw [Value.wire_text]
    exact Utf8.encode_isPrefix hname
  msgType := ⟨_, List.mem_cons_of_mem _ List.mem_cons_self, rfl⟩
  tag_ne_zero := fun f hf => (tags_valid id r f hf).1
  valid_wire := fun f hf _ _ => (plain_build hid hr f hf).valid_wire
  soh_notMem := fun f hf _ _ => (plain_build hid hr f hf).soh_notMem

/-- Every request is written. Its fields are the header and those of its kind, in their order; in
front of the entry types of a market data request stands their number. If the version names the
protocol and no text holds a separator, then the frame is read back from the front of any input,
with the texts of the fields that were built. -/
theorem exists_encode_decode (id : Identity) (r : Request) :
    ∃ frame, (r.build id).encode = .ok frame ∧
      (r.build id).tags = [8, 35, 49, 56] ++ r.bodyTags ∧
      (∀ p, r = marketData p → p.entryTypes.length < 2 ^ 64 → ∃ count : UInt64,
        (r.build id).getAll 267 = [.uint count] ∧
          count.toNat = ((r.build id).getAll 269).length ∧
            (r.build id).getAll 269 = p.entryTypes.map .code) ∧
      ("FIX".toList <+: id.beginString.toList → (∀ s ∈ id.texts, '\x01' ∉ s.toList) →
        (∀ s ∈ r.texts, '\x01' ∉ s.toList) → frame.length < 2 ^ 64 →
          ∀ validate rest, ∃ m, Frame.decode validate (frame ++ rest) = (.ok m, rest) ∧
            m.fields.map (fun f => (f.tag, f.value.wire)) =
              (r.build id).fields.map fun f => (f.tag, f.value.wire)) := by
  obtain ⟨frame, hframe⟩ := exists_encode_build id r
  refine ⟨frame, hframe, tags_build id r, ?_, ?_⟩
  · rintro p rfl hlen
    obtain ⟨hcount, hentries⟩ := getAll_marketData id p
    refine ⟨_, hcount, ?_, hentries⟩
    rw [hentries, List.length_map]
    exact UInt64.toNat_ofNat_of_lt' hlen
  · intro hname hid hr hlen validate rest
    have hsent := transmissible_build hname hid hr
    obtain ⟨p, hp, -, rfl, hmessage⟩ := hsent.exists_sealed_of_encode hframe hlen
    refine ⟨_, hmessage ▸ Frame.decode_bytes hp validate rest, ?_⟩
    rw [hsent.wire_received, wireFields_build]

/-- A request for three kinds of market data entries, in front of the start of another frame. -/
theorem exists_encode_decode_entries : ∃ (id : Identity) (p : MarketDataRequest) (frame : Bytes)
    (m : Message), p.entryTypes = [.bid, .offer, .trade] ∧
      (build id (marketData p)).encode = .ok frame ∧
      (build id (marketData p)).tags =
        [8, 35, 49, 56, 262, 263, 264, 265, 266, 267, 269, 269, 269, 146, 55, 207] ∧
      (build id (marketData p)).getAll 267 = [.uint 3] ∧
      Frame.decode true (frame ++ [0x38]) = (.ok m, [0x38]) ∧
      m.fields.map (fun f => (f.tag, f.value.wire)) =
        (build id (marketData p)).fields.map fun f => (f.tag, f.value.wire) := by
  let id : Identity :=
    { sender := ⟨"A", by decide⟩, target := ⟨"B", by decide⟩, symbol := "BTC-PERPETUAL" }
  let p : MarketDataRequest := { mdReqId := "md-1", entryTypes := [.bid, .offer, .trade] }
  obtain ⟨frame, hframe, htags, hcounted, hread⟩ := exists_encode_decode id (marketData p)
  have hlen : ((build id (marketData p)).encode.toOption.getD []).length < 2 ^ 64 := by
    decide +kernel
  rw [hframe] at hlen
  obtain ⟨count, hcount, hnumber, hentries⟩ := hcounted p rfl (by decide)
  obtain ⟨m, hm, hsame⟩ := hread (by decide) (by decide) (by decide) hlen true [0x38]
  have hthree : count = 3 := by
    rw [hentries] at hnumber
    exact UInt64.toNat_inj.mp hnumber
  exact ⟨id, p, frame, m, rfl, hframe, htags, hthree ▸ hcount, hm, hsame⟩

end Request

end FixClient
