import FixClient.Proofs.Client.AfterFailure
import FixClient.Proofs.Client.Reception
import Mathlib.Data.List.Forall2

/-!
# Delivering frames

A send can fail at the state of the session, at the encoding, in the write and in the flush. In
front of the write nothing has happened yet. Later the stream may hold a part of the frame, of any
length, and nothing else has changed: only a frame that was flushed is noted in the session. So
what is written in a history is the frames that were sent, with the parts that failed sends have
left between them.
-/

namespace FixClient

/-- The bytes that an act leaves on the stream. -/
inductive Act.Writes : Act → Bytes → Prop
  | sent {m : Message} {frame : Bytes} (h : m.encode = .ok frame) :
      Writes (.sent m (.ok frame)) frame
  | broken {m : Message} {frame part : Bytes} {reason : String} (h : m.encode = .ok frame)
      (hpart : part <+: frame) : Writes (.sent m (.error (.session (.connection reason)))) part
  | failed {m : Message} {e : Error} (h : ∀ reason, e ≠ .session (.connection reason)) :
      Writes (.sent m (.error e)) []
  | heard (reading : Reading) (outcome : Outcome (Option Bytes)) :
      Writes (.heard reading outcome) []

namespace Connection

variable {c after : Connection} {frame : Bytes} {reason : String}

theorem deliver_of_write_error (h : c.write frame = (.error reason, after)) :
    c.deliver frame = (.error reason, after) := by
  rw [deliver, h]

theorem deliver_of_flushFault (h : c.write frame = (.ok (), after))
    (hflush : after.flushFault = some reason) : c.deliver frame = (.error reason, after) := by
  simp only [deliver, h, hflush]

/-- A delivery can fail behind any number of bytes. -/
theorem exists_deliver_eq_error {part : Bytes} (h : part <+: frame) (c : Connection)
    (reason : String) : ∃ d : Connection, d.written = c.written ∧ d.readings = c.readings ∧
      ∃ after, d.deliver frame = (.error reason, after) ∧ after.written = c.written ++ part := by
  by_cases hlt : part.length < frame.length
  · -- The write accepts the part, and fails.
    have htake : frame.take part.length = part := (List.prefix_iff_eq_take.mp h).symm
    let d : Connection := { c with writeFault := some ⟨part.length, reason⟩ }
    have hwrite : d.write frame =
        (.error reason, { d with
          written := c.written ++ part, writeFault := some ⟨part.length - part.length, reason⟩ }) := by
      simp only [write, d, htake, if_neg (Nat.not_le.mpr hlt)]
    exact ⟨d, rfl, rfl, _, deliver_of_write_error hwrite, rfl⟩
  · -- The part is the whole frame, and the flush fails.
    obtain rfl := h.eq_of_length_le (Nat.not_lt.mp hlt)
    let d : Connection := { c with writeFault := none, flushFault := some reason }
    have hwrite : d.write part = (.ok (), { d with written := c.written ++ part }) := rfl
    exact ⟨d, rfl, rfl, _, deliver_of_flushFault hwrite rfl, rfl⟩

end Connection

namespace Client

variable {c₀ c after : Client} {a : Act} {acts : List Act} {m : Message} {e : Error}
  {result : Except Error Bytes} {frame part : Bytes} {reason : String} {settings : Settings}

section Writing

theorem Does.exists_writes (hc : c.Opened) (h : c.Does a after) :
    ∃ bytes, a.Writes bytes ∧ after.connection.written = c.connection.written ++ bytes := by
  cases a with
  | heard reading outcome =>
      refine ⟨[], .heard reading outcome, ?_⟩
      rw [(h.hears hc).connection_eq, List.append_nil]
      rfl
  | sent m result =>
      rcases result with e | frame
      · by_cases he : ∃ reason, e = .session (.connection reason)
        · obtain ⟨reason, rfl⟩ := he
          obtain ⟨frame, part, connection, hencode, hpart, hwritten, rfl⟩ := h.sends.exists_part
          exact ⟨part, .broken hencode hpart, hwritten⟩
        · have he' : ∀ reason, e ≠ .session (.connection reason) := not_exists.mp he
          rw [h.sends.eq_of_error he']
          exact ⟨[], .failed he', (List.append_nil _).symm⟩
      · exact ⟨frame, .sent h.sends.encode_eq, h.sends.written_eq⟩

/-- What is written in a history is what its acts have left, in their order. -/
theorem History.exists_pieces (h : History c₀ acts c) (h₀ : c₀.Opened) :
    ∃ pieces : List Bytes, List.Forall₂ Act.Writes acts pieces ∧
      c.connection.written = c₀.connection.written ++ pieces.reverse.flatten := by
  induction h with
  | start => exact ⟨[], .nil, (List.append_nil _).symm⟩
  | next h hdoes ih =>
      obtain ⟨pieces, hpieces, hwritten⟩ := ih
      obtain ⟨bytes, hbytes, hwritten'⟩ := hdoes.exists_writes (h.opened h₀)
      refine ⟨bytes :: pieces, .cons hbytes hpieces, ?_⟩
      rw [hwritten', hwritten, List.reverse_cons, List.flatten_append, List.flatten_singleton,
        List.append_assoc]
  | moved _ _ hwritten _ ih =>
      obtain ⟨pieces, hpieces, hbefore⟩ := ih
      exact ⟨pieces, hpieces, hwritten.trans hbefore⟩

/-- Which part a send leaves is up to the stream. -/
theorem exists_send_part (hcan : c.session.state.canSend = true) (hencode : m.encode = .ok frame)
    (hpart : part <+: frame) (reason : String) :
    ∃ (connection : Connection) (after : Client),
      connection.written = c.connection.written ∧
      connection.readings = c.connection.readings ∧
        send m { c with connection := connection } =
            (.error (.session (.connection reason)), after) ∧
          after.connection.written = c.connection.written ++ part := by
  obtain ⟨connection, hbefore, hreadings, left, hdeliver, hwritten⟩ :=
    Connection.exists_deliver_eq_error hpart c.connection reason
  have hsends : Sends { c with connection := connection } m _ _ :=
    .broken hcan hencode hdeliver
  exact ⟨connection, _, hbefore, hreadings, hsends.eq, hwritten⟩

end Writing

/-- What a send leaves, by its result. -/
structure AllOrNothing (c : Client) (m : Message) (result : Except Error Bytes) (after : Client) :
    Prop where
  /-- The state is looked at first, be there a frame or not. -/
  of_closed : c.session.state = .closed →
    result = .error (.session (.invalidState .connected .closed))
  of_invalidState : ∀ expected current,
    result = .error (.session (.invalidState expected current)) →
      after = c ∧ c.session.state = .closed
  of_unwritable : ∀ e, result = .error (.encode e) →
    after = c ∧ c.session.state ≠ .closed ∧ m.encode = .error e
  of_broken : ∀ reason, result = .error (.session (.connection reason)) →
    after.session = c.session ∧ after.answer = c.answer ∧
      ∃ frame part, m.encode = .ok frame ∧ part <+: frame ∧
        after.connection.written = c.connection.written ++ part
  of_sent : ∀ frame, result = .ok frame →
    m.encode = .ok frame ∧ after.connection.written = c.connection.written ++ frame ∧
      after.session.state = c.session.state ∧
      (after.session.logonPending = true ↔ c.session.logonPending = true ∨
        c.session.state = .connected ∧ m.msgType? = some .logon) ∧
      (m.msgType? ≠ some .logon → after.answer = c.answer)
  /-- A stream that takes everything gets every message that has a frame. -/
  of_sound : c.session.state ≠ .closed → ∀ frame, m.encode = .ok frame →
    c.connection.writeFault = none → c.connection.flushFault = none → result = .ok frame
  error_cases : ∀ e, result = .error e →
    (∃ expected current, e = .session (.invalidState expected current)) ∨
      (∃ e', e = .encode e') ∨ ∃ reason, e = .session (.connection reason)

theorem Sends.allOrNothing (hc : c.Opened) (h : c.Sends m result after) :
    AllOrNothing c m result after := by
  constructor
  case of_closed =>
    intro hclosed
    have hsend := send_of_closed hclosed m
    rw [h.eq] at hsend
    exact (Prod.mk.inj hsend).1
  case of_invalidState =>
    rintro expected current rfl
    refine ⟨h.eq_of_error (by simp), ?_⟩
    cases h with
    | refused hcan =>
        by_contra hopen
        rw [canSend_of_opened hc hopen] at hcan
        cases hcan
  case of_unwritable =>
    rintro e rfl
    refine ⟨h.eq_of_error (by simp), ?_⟩
    cases h with
    | unwritable hcan hencode =>
        refine ⟨?_, hencode⟩
        intro hclosed
        rw [hclosed] at hcan
        cases hcan
  case of_broken =>
    rintro reason rfl
    obtain ⟨frame, part, connection, hencode, hpart, hwritten, rfl⟩ := h.exists_part
    exact ⟨rfl, rfl, frame, part, hencode, hpart, hwritten⟩
  case of_sent =>
    rintro frame rfl
    refine ⟨h.encode_eq, h.written_eq, h.state_eq, h.logonPending_iff, ?_⟩
    intro hm
    exact (h.eq_of_not_logon hm).2
  case of_sound =>
    intro hopen frame hencode hwrite hflush
    obtain ⟨sent, hsend, -⟩ :=
      (goesOn_of_opened hc hopen).send_eq m frame hencode hwrite hflush
    rw [h.eq] at hsend
    exact (Prod.mk.inj hsend).1
  case error_cases =>
    rintro e rfl
    cases h with
    | refused => exact .inl ⟨_, _, rfl⟩
    | unwritable => exact .inr (.inl ⟨_, rfl⟩)
    | broken => exact .inr (.inr ⟨_, rfl⟩)

/-- Sending from any point of any history, over any stream: a refused or unwritable message leaves
the client as it was, a failed delivery leaves no more than a part of the frame on the stream, and
a frame that is returned was written as a whole. The state stays in all cases, and a Logon is
awaited from then on only if it was sent while connected. -/
theorem send_all_or_nothing (h : Reached settings c) (m : Message) :
    AllOrNothing c m (c.send m).1 (c.send m).2 := by
  obtain ⟨hc, -⟩ := h.opened
  exact (c.sends m).allOrNothing hc

/-- A Logon of which three bytes are accepted. -/
theorem send_all_or_nothing_broken : ∃ (c after : Client) (m : Message) (frame : Bytes),
    start (Settings.standard "unix:/s") { writeFault := some ⟨3, "broken pipe"⟩ } = .ok c ∧
      m.encode = .ok frame ∧
      c.send m = (.error (.session (.connection "broken pipe")), after) ∧
        after.session = c.session ∧ after.connection.written = Utf8.encode "8=F" ∧
          after.connection.written <+: frame := by
  let logon : Message := ⟨[⟨.beginString, .text "FIX.4.4"⟩, ⟨.msgType, .text "A"⟩]⟩
  let c : Client :=
    { settings := Settings.standard "unix:/s"
      settings_valid := by decide +kernel
      session := ⟨.connected, false⟩
      answer := []
      connection := { writeFault := some ⟨3, "broken pipe"⟩ } }
  have hstart : start (Settings.standard "unix:/s")
      { writeFault := some ⟨3, "broken pipe"⟩ } = .ok c := rfl
  have hresult : (c.send logon).1 = .error (.session (.connection "broken pipe")) := by
    with_unfolding_all rfl
  obtain ⟨hsession, -, frame, part, hencode, hpart, hwritten⟩ :=
    (send_all_or_nothing (.of_start hstart) logon).of_broken _ hresult
  have hleft : (c.send logon).2.connection.written <+: frame := hwritten ▸ hpart
  exact ⟨c, (c.send logon).2, logon, frame, hstart, hencode, Prod.ext hresult rfl, hsession,
    by decide +kernel, hleft⟩

end Client

end FixClient
