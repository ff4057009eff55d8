import FixClient.Client.Basic

/-!
# The rules of a client

All that a send or a read can come to, one rule for each way in which it ends. A rule says
what was answered and how the client has changed; what it does not mention is as before.
Everything else about clients is derived from these rules.
-/

namespace FixClient

namespace Connection

variable {limit : Nat} {c after : Connection} {bytes chunk : Bytes} {rest : List Arrival}

theorem next_data (h : chunk ≠ []) (hlen : chunk.length ≤ limit) :
    next limit (.data chunk :: rest) = (.chunk chunk, rest) := by
  obtain ⟨b, bytes, rfl⟩ := List.exists_cons_of_ne_nil h
  simp only [next, List.take_of_length_le hlen, if_pos hlen]

theorem chunk_ne_nil_of_next {arriving : List Arrival}
    (h : (next limit arriving).1 = .chunk chunk) : chunk ≠ [] := by
  rcases arriving with _ | ⟨a, rest⟩
  · simp [next] at h
  cases a with
  | endOfStream => simp [next] at h
  | failure reason => simp [next] at h
  | data bytes =>
      cases ht : bytes.take limit with
      | nil => simp [next, ht] at h
      | cons b taken =>
          simp only [next, ht, Reading.chunk.injEq] at h
          exact h ▸ List.cons_ne_nil b taken

theorem written_react (c : Connection) : c.react.written = c.written := by
  rw [react]
  split <;> rfl

theorem prefix_written_write (bytes : Bytes) (c : Connection) :
    c.written <+: (c.write bytes).2.written := by
  unfold write
  split
  · exact List.prefix_append _ _
  · dsimp only
    split
    · exact List.prefix_append _ _
    · exact List.prefix_append _ _

theorem write_eq_ok (h : c.write bytes = (.ok (), after)) :
    after.flushFault = c.flushFault ∧ after.written = c.written ++ bytes := by
  unfold write at h
  split at h
  · cases h
    exact ⟨rfl, rfl⟩
  · dsimp only at h
    split at h
    · next hlen =>
      cases h
      exact ⟨rfl, by rw [List.take_of_length_le hlen]⟩
    · cases h

theorem write_eq_error {reason : String} (h : c.write bytes = (.error reason, after)) :
    ∃ part, part <+: bytes ∧ after.written = c.written ++ part := by
  unfold write at h
  split at h
  · cases h
  · dsimp only at h
    split at h
    · cases h
    · cases h
      exact ⟨_, List.take_prefix _ _, rfl⟩

/-- What was written before stays in front, also when a delivery fails. -/
theorem prefix_written_deliver (frame : Bytes) (c : Connection) :
    c.written <+: (c.deliver frame).2.written := by
  have hwrite := prefix_written_write frame c
  unfold deliver
  split
  · next heq => rwa [heq] at hwrite
  · next heq =>
    rw [heq] at hwrite
    split
    · exact hwrite
    · rwa [written_react]

/-- A frame is delivered when all its bytes are written and flushed. -/
theorem deliver_eq_ok {frame : Bytes} (h : c.deliver frame = (.ok (), after)) :
    c.flushFault = none ∧ after.written = c.written ++ frame := by
  unfold deliver at h
  split at h
  · cases h
  · next written hwrite =>
    obtain ⟨hflush, hwritten⟩ := write_eq_ok hwrite
    split at h
    · cases h
    · next hnone =>
      cases h
      exact ⟨hflush.symm.trans hnone, (written_react written).trans hwritten⟩

/-- A delivery that fails may leave any part of the frame, all of it if the flush failed. -/
theorem deliver_eq_error {frame : Bytes} {reason : String}
    (h : c.deliver frame = (.error reason, after)) :
    ∃ part, part <+: frame ∧ after.written = c.written ++ part := by
  unfold deliver at h
  split at h
  · next hwrite =>
    cases h
    exact write_eq_error hwrite
  · next hwrite =>
    obtain ⟨-, hwritten⟩ := write_eq_ok hwrite
    split at h
    · cases h
      exact ⟨frame, List.prefix_rfl, hwritten⟩
    · cases h

end Connection

theorem Session.state_logonSent (s : Session) : s.logonSent.state = s.state := by
  unfold logonSent
  split <;> rfl

namespace Client

variable {c after : Client} {m : Message} {result : Except Error Bytes} {reading : Reading}
  {outcome : Outcome (Option Bytes)}

/-- How the sending of a message ends. -/
inductive Sends (c : Client) (m : Message) : Except Error Bytes → Client → Prop
  | refused (h : c.session.state.canSend = false) :
      Sends c m (.error (.session (.invalidState .connected c.session.state))) c
  | unwritable {e : EncodeError} (h : c.session.state.canSend = true) (he : m.encode = .error e) :
      Sends c m (.error (.encode e)) c
  | broken {frame : Bytes} {reason : String} {connection : Connection}
      (h : c.session.state.canSend = true) (he : m.encode = .ok frame)
      (hd : c.connection.deliver frame = (.error reason, connection)) :
      Sends c m (.error (.session (.connection reason))) { c with connection := connection }
  | plain {frame : Bytes} {connection : Connection} (h : c.session.state.canSend = true)
      (he : m.encode = .ok frame) (hd : c.connection.deliver frame = (.ok (), connection))
      (hm : m.msgType? ≠ some .logon) : Sends c m (.ok frame) { c with connection := connection }
  | logon {frame : Bytes} {connection : Connection} (h : c.session.state.canSend = true)
      (he : m.encode = .ok frame) (hd : c.connection.deliver frame = (.ok (), connection))
      (hm : m.msgType? = some .logon) :
      Sends c m (.ok frame)
        { c with connection := connection, session := c.session.logonSent, answer := [] }

/-- How a read ends, by what it gave. -/
inductive Hears (c : Client) : Reading → Outcome (Option Bytes) → Client → Prop
  | ended : Hears c .endOfStream (.done none) { c with session := ⟨.closed, false⟩ }
  | failure {reason : String} :
      Hears c (.failure reason) (.failed (.session (.connection reason))) c
  | timeout {deadline : Nat} (h : c.settings.readTimeout = some deadline) :
      Hears c .silence (.failed (.session (.readTimeout deadline))) c
  | waiting (h : c.settings.readTimeout = none) : Hears c .silence .waiting c
  /-- No Logon is pending. -/
  | plain {chunk : Bytes} (h : c.session.logonPending = false) :
      Hears c (.chunk chunk) (.done (some chunk)) c
  /-- The answer to the Logon is not checked. -/
  | trusted {chunk : Bytes} (h : c.session.logonPending = true)
      (hverify : c.settings.verifyLogon = false) :
      Hears c (.chunk chunk) (.done (some chunk)) { c with session := ⟨.loggedOn, false⟩ }
  | undecided {chunk : Bytes} (h : c.session.logonPending = true)
      (hverify : c.settings.verifyLogon = true)
      (hcheck : LogonCheck.ofAnswer (c.answer ++ chunk) = .undecided) :
      Hears c (.chunk chunk) (.done (some chunk)) { c with answer := c.answer ++ chunk }
  | accepted {chunk : Bytes} (h : c.session.logonPending = true)
      (hverify : c.settings.verifyLogon = true)
      (hcheck : LogonCheck.ofAnswer (c.answer ++ chunk) = .accepted) :
      Hears c (.chunk chunk) (.done (some chunk))
        { c with session := ⟨.loggedOn, false⟩, answer := [] }
  | refused {chunk : Bytes} {received : LogonAnswer} (h : c.session.logonPending = true)
      (hverify : c.settings.verifyLogon = true)
      (hcheck : LogonCheck.ofAnswer (c.answer ++ chunk) = .refused received) :
      Hears c (.chunk chunk) (.failed (.session (.protocolViolation received)))
        { c with answer := [] }

/-- A client with a stream, open or ended. A Logon is pending only until it is acknowledged. -/
structure Opened (c : Client) : Prop where
  state_ne : c.session.state ≠ .disconnected
  state_of_pending : c.session.logonPending = true → c.session.state = .connected

/-- Only the session matters. -/
theorem Opened.of_session_eq (h : c.Opened) (hsession : after.session = c.session) :
    after.Opened := by
  constructor
  · rw [hsession]
    exact h.state_ne
  · rw [hsession]
    exact h.state_of_pending

theorem opened_of_connected (h : c.session = ⟨.connected, false⟩) : c.Opened := by
  constructor <;> simp [h]

theorem canSend_of_opened (h : c.Opened) (hopen : c.session.state ≠ .closed) :
    c.session.state.canSend = true := by
  have hne := h.state_ne
  cases hstate : c.session.state with
  | disconnected => exact absurd hstate hne
  | connected => rfl
  | loggedOn => rfl
  | closed => exact absurd hstate hopen

theorem sends (c : Client) (m : Message) : c.Sends m (c.send m).1 (c.send m).2 := by
  cases hcan : c.session.state.canSend with
  | false =>
      simp only [send, Session.ensureCanSend, hcan, Bool.false_eq_true, if_false]
      exact .refused hcan
  | true =>
      simp only [send, Session.ensureCanSend, hcan, if_true]
      cases he : m.encode with
      | error e => exact .unwritable hcan he
      | ok frame =>
          rcases hd : c.connection.deliver frame with ⟨reason | done, connection⟩
          · simp only [hd]
            exact .broken hcan he hd
          · simp only [hd, noteSent]
            split
            · next hm => exact .logon hcan he hd hm
            · next hm => exact .plain hcan he hd hm

/-- The rules leave no choice. -/
theorem Sends.eq (h : c.Sends m result after) : c.send m = (result, after) := by
  cases h with
  | refused hcan => simp [send, Session.ensureCanSend, hcan]
  | unwritable hcan he => simp [send, Session.ensureCanSend, hcan, he]
  | broken hcan he hd => simp [send, Session.ensureCanSend, hcan, he, hd]
  | plain hcan he hd hm => simp [send, Session.ensureCanSend, hcan, he, hd, noteSent, hm]
  | logon hcan he hd hm => simp [send, Session.ensureCanSend, hcan, he, hd, noteSent, hm]

theorem Sends.state_eq (h : c.Sends m result after) : after.session.state = c.session.state := by
  cases h with
  | refused | unwritable | broken | plain => rfl
  | logon => exact Session.state_logonSent _

/-- A send that fails in front of the write leaves the client as it was. -/
theorem Sends.eq_of_error {e : Error} (h : c.Sends m (.error e) after)
    (he : ∀ reason, e ≠ .session (.connection reason)) : after = c := by
  cases h with
  | refused | unwritable => rfl
  | broken => exact absurd rfl (he _)

/-- A send that fails later leaves a part of the frame, and nothing else has changed. -/
theorem Sends.exists_part {reason : String}
    (h : c.Sends m (.error (.session (.connection reason))) after) :
    ∃ frame part connection, m.encode = .ok frame ∧ part <+: frame ∧
      connection.written = c.connection.written ++ part ∧
        after = { c with connection := connection } := by
  cases h with
  | @broken frame _ connection _ hencode hdeliver =>
      obtain ⟨part, hpart, hwritten⟩ := Connection.deliver_eq_error hdeliver
      exact ⟨frame, part, connection, hencode, hpart, hwritten, rfl⟩

theorem Sends.encode_eq {frame : Bytes} (h : c.Sends m (.ok frame) after) :
    m.encode = .ok frame := by
  cases h with
  | plain _ hencode | logon _ hencode => exact hencode

theorem Sends.prefix_written (h : c.Sends m result after) :
    c.connection.written <+: after.connection.written := by
  cases h with
  | refused | unwritable => exact List.prefix_rfl
  | @broken frame _ _ _ _ hd | @plain frame _ _ _ hd | @logon frame _ _ _ hd =>
      have hwritten := c.connection.prefix_written_deliver frame
      rwa [hd] at hwritten

theorem Sends.written_eq {frame : Bytes} (h : c.Sends m (.ok frame) after) :
    after.connection.written = c.connection.written ++ frame := by
  cases h with
  | plain _ _ hd | logon _ _ hd => exact (Connection.deliver_eq_ok hd).2

/-- A Logon is awaited once it was sent, but no longer in a session that is logged on. -/
theorem Sends.logonPending_iff {frame : Bytes} (h : c.Sends m (.ok frame) after) :
    after.session.logonPending = true ↔
      c.session.logonPending = true ∨ c.session.state = .connected ∧ m.msgType? = some .logon := by
  cases h with
  | plain _ _ _ hm => simp [hm]
  | logon _ _ _ hm =>
      by_cases hstate : c.session.state = .connected
      · simp [Session.logonSent, hstate, hm]
      · simp [Session.logonSent, hstate]

/-- The answer to a Logon is collected from its start. -/
theorem Sends.answer_of_logon {frame : Bytes} (h : c.Sends m (.ok frame) after)
    (hm : m.msgType? = some .logon) : after.answer = [] := by
  cases h with
  | plain _ _ _ hne => exact absurd hm hne
  | logon => rfl

theorem Sends.eq_of_not_logon {frame : Bytes} (h : c.Sends m (.ok frame) after)
    (hm : m.msgType? ≠ some .logon) : after.session = c.session ∧ after.answer = c.answer := by
  cases h with
  | plain => exact ⟨rfl, rfl⟩
  | logon _ _ _ heq => exact absurd heq hm

theorem Hears.connection_eq (h : c.Hears reading outcome after) :
    after.connection = c.connection := by
  cases h <;> rfl

theorem logOn_eq (h : c.Opened) (hpending : c.session.logonPending = true) (chunk : Bytes) :
    c.logOn chunk = (.done (some chunk), { c with session := ⟨.loggedOn, false⟩ }) := by
  simp only [logOn, Session.logonAcknowledged, h.state_of_pending hpending, hpending, and_self,
    if_true]

theorem hears (h : c.Opened) (hopen : c.session.state ≠ .closed) (reading : Reading) :
    c.Hears reading (c.hear reading).1 (c.hear reading).2 := by
  cases reading with
  | endOfStream =>
      simp only [hear, Session.close, canSend_of_opened h hopen, if_true]
      exact .ended
  | failure reason => exact .failure
  | silence =>
      cases htimeout : c.settings.readTimeout with
      | none =>
          simp only [hear, htimeout]
          exact .waiting htimeout
      | some deadline =>
          simp only [hear, htimeout]
          exact .timeout htimeout
  | chunk chunk =>
      simp only [hear, takeIn]
      cases hpending : c.session.logonPending with
      | false => exact .plain hpending
      | true =>
          cases hverify : c.settings.verifyLogon with
          | false =>
              simp only [Bool.not_true, Bool.not_false, Bool.false_eq_true, if_false, if_true,
                logOn_eq h hpending]
              exact .trusted hpending hverify
          | true =>
              simp only [Bool.not_true, Bool.false_eq_true, if_false]
              cases hcheck : LogonCheck.ofAnswer (c.answer ++ chunk) with
              | undecided => exact .undecided hpending hverify hcheck
              | accepted =>
                  have h' : Opened { c with answer := [] } := h.of_session_eq rfl
                  simp only [logOn_eq h' hpending]
                  exact .accepted hpending hverify hcheck
              | refused received => exact .refused hpending hverify hcheck

theorem Hears.eq (hc : c.Opened) (hopen : c.session.state ≠ .closed)
    (h : c.Hears reading outcome after) : c.hear reading = (outcome, after) := by
  cases h with
  | ended => simp [hear, Session.close, canSend_of_opened hc hopen]
  | failure => rfl
  | timeout htimeout => simp [hear, htimeout]
  | waiting htimeout => simp [hear, htimeout]
  | plain hpending => simp [hear, takeIn, hpending]
  | trusted hpending hverify => simp [hear, takeIn, hpending, hverify, logOn_eq hc hpending]
  | undecided hpending hverify hcheck => simp [hear, takeIn, hpending, hverify, hcheck]
  | accepted hpending hverify hcheck =>
      have hc' : Opened { c with answer := [] } := hc.of_session_eq rfl
      simp [hear, takeIn, hpending, hverify, hcheck, logOn_eq hc' hpending]
  | refused hpending hverify hcheck => simp [hear, takeIn, hpending, hverify, hcheck]

namespace Opened

theorem session_of_pending (h : c.Opened) (hpending : c.session.logonPending = true) :
    c.session = ⟨.connected, true⟩ := by
  have hstate := h.state_of_pending hpending
  rcases hsession : c.session with ⟨state, pending⟩
  rw [hsession] at hstate hpending
  obtain rfl : state = .connected := hstate
  obtain rfl : pending = true := hpending
  rfl

theorem of_sends (h : c.Opened) (hsends : c.Sends m result after) : after.Opened := by
  cases hsends with
  | refused | unwritable | broken | plain => exact h.of_session_eq rfl
  | logon =>
      simp only [Session.logonSent]
      split
      · next hconnected => exact ⟨h.state_ne, fun _ => hconnected⟩
      · exact h.of_session_eq rfl

theorem of_hears (h : c.Opened) (hhears : c.Hears reading outcome after) : after.Opened := by
  cases hhears with
  | ended | trusted | accepted => exact ⟨by simp, by simp⟩
  | failure | timeout | waiting | plain | undecided | refused => exact h.of_session_eq rfl

end Opened

end Client

end FixClient
