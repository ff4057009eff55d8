import FixClient.Proofs.Client.Lifecycle
import FixClient.Proofs.Client.Passage
import Mathlib.Data.Prod.Basic

/-!
# After a failure

A failed read or write and a refused answer to a Logon end the call they occur in, and nothing
else. The session stays as it was: only the end of the stream closes it. So what is sent later
is written, behind whatever part of a frame a failed write has left, and a Logon that is still
pending can still be answered.
-/

namespace FixClient

namespace Error

/-- A failed read or write, or a refused answer to a Logon. -/
def isFailure : Error → Bool
  | session (.connection _) | session (.protocolViolation _) => true
  | decode _ | encode _ | session _ => false

end Error

namespace Connection

theorem deliver_of_sound {c : Connection} (hwrite : c.writeFault = none)
    (hflush : c.flushFault = none) (frame : Bytes) :
    ∃ after, c.deliver frame = (.ok (), after) ∧ after.written = c.written ++ frame := by
  have hdeliver : c.deliver frame =
      (.ok (), react { c with written := c.written ++ frame }) := by
    simp [deliver, write, hwrite, hflush]
  exact ⟨_, hdeliver, written_react _⟩

end Connection

namespace Client

variable {c₀ c after : Client} {acts later : List Act} {m : Message} {e : Error}

/-- What a failure leaves of a client. -/
structure Interrupted (e : Error) (c : Client) : Prop where
  opened : c.Opened
  state_ne_closed : c.session.state ≠ .closed
  of_violation : ∀ received, e = .session (.protocolViolation received) →
    c.session = ⟨.connected, true⟩ ∧ c.answer = []

theorem state_ne_closed_of_canSend (h : c.session.state.canSend = true) :
    c.session.state ≠ .closed := by
  intro hclosed
  rw [hclosed] at h
  cases h

theorem interrupted_of_send (hc : c.Opened) (hsend : c.send m = (.error e, after))
    (he : e.isFailure = true) : Interrupted e after := by
  have hsends : c.Sends m (.error e) after := Does.sends (.send hsend)
  cases hsends with
  | refused | unwritable => cases he
  | broken hcan =>
      refine ⟨hc.of_session_eq rfl, state_ne_closed_of_canSend hcan, ?_⟩
      intro received hviolation
      cases hviolation

theorem interrupted_of_receive (hc : c.Opened) (hreceive : c.receive = (.failed e, after))
    (he : e.isFailure = true) : Interrupted e after := by
  have hopen : c.session.state ≠ .closed := state_ne_closed_of_receive hreceive (by simp)
  have hdoes : c.Does (.heard c.nextReading (.failed e)) after := .receive hopen rfl hreceive
  have hafter : after.Opened := hdoes.opened hc
  have hhears := hdoes.hears hc
  -- Nothing else that a read gives is a failure.
  generalize c.nextReading = reading at hhears
  cases hhears with
  | failure =>
      refine ⟨hafter, hopen, ?_⟩
      intro received hviolation
      cases hviolation
  | timeout => cases he
  | refused hpending =>
      refine ⟨hafter, hopen, ?_⟩
      intro _ _
      exact ⟨hc.session_of_pending hpending, rfl⟩

end Client

namespace Progress

variable {around : Surroundings} {stop : StopRule} {id : Identity} {s : Scenario}
  {p q after : Progress} {step : Step} {e : Error} {n : Nat}

theorem Takes.opened {outcome : Outcome Bool} (h : p.Takes stop id step outcome after)
    (hp : p.client.Opened) : after.client.Opened :=
  (Client.History.start.of_course h.course).opened hp

theorem Takes.interrupted (h : p.Takes stop id step (.failed e) after) (hp : p.client.Opened)
    (he : e.isFailure = true) : Client.Interrupted e after.client := by
  cases h with
  | unsent _ hsend => exact Client.interrupted_of_send hp hsend he
  | unheard _ hreceive => exact Client.interrupted_of_receive hp hreceive he

theorem Runs.interrupted {ended : Outcome Unit} (h : Runs around stop id n s p ended q)
    (hended : ended = .failed e) (hp : p.client.Opened) (he : e.isFailure = true) :
    Client.Interrupted e q.client := by
  have hamid : ∀ n {p : Progress}, p.client.Opened → (p.amid around n).client.Opened :=
    fun n p hp => hp.of_session_eq rfl
  induction h with
  | finished => cases hended
  | @last n _ _ _ _ _ outcome _ hstep =>
      rcases outcome with _ | e' | _
      · cases hended
      · cases hended
        exact (takes hstep).interrupted (hamid n hp) he
      · cases hended
  | @next n _ _ _ _ _ _ _ _ hstep _ ih => exact ih hended ((takes hstep).opened (hamid n hp))

end Progress

namespace Client

open Progress

variable {c₀ c c' after : Client} {acts later : List Act} {m : Message} {e : Error}
  {stop : StopRule} {id : Identity} {call : Call} {p : Progress}

theorem interrupted_of_call (hc : c.Opened) (hcall : c.call stop id call = (.failed e, p))
    (he : e.isFailure = true) : Interrupted e p.client := by
  generalize hanswer : Answer.failed e = answer at hcall
  obtain ⟨acts, hcalls⟩ := exists_calls hcall
  cases hcalls with
  | sent | closed => cases hanswer
  | unsent hsend =>
      cases hanswer
      exact interrupted_of_send hc hsend he
  | @heard outcome _ _ hreceive =>
      rcases outcome with _ | e' | _ <;> cases hanswer
      exact interrupted_of_receive hc hreceive he
  | @ran _ _ _ ended _ _ hacts =>
      rcases ended with _ | e' | _ <;> cases hanswer
      exact (hacts.runs 0).interrupted rfl hc he

/-- Only the end of the stream closes a session. -/
theorem History.mem_of_closed (h : History c₀ acts c) (h₀ : c₀.Opened)
    (hopen : c₀.session.state ≠ .closed) (hclosed : c.session.state = .closed) :
    .heard .endOfStream (.done none) ∈ acts := by
  induction h with
  | start => exact absurd hclosed hopen
  | @next acts c after a h hdoes ih =>
      by_cases hbefore : c.session.state = .closed
      · exact List.mem_cons_of_mem a (ih hbefore)
      · rw [hdoes.closed (h.opened h₀) hbefore hclosed]
        exact List.mem_cons_self
  | moved _ _ _ _ ih => exact ih hclosed

/-- A client that takes sends and answers. -/
structure GoesOn (c : Client) : Prop where
  /-- A message is written as a whole where the stream takes it. -/
  send_eq : ∀ m frame, m.encode = .ok frame → c.connection.writeFault = none →
    c.connection.flushFault = none →
      ∃ after, c.send m = (.ok frame, after) ∧
        after.connection.written = c.connection.written ++ frame
  /-- A pending Logon is acknowledged by an answer that passes the check, if there is one. -/
  receive_eq : ∀ chunk, c.session.logonPending = true → c.nextReading = .chunk chunk →
    (c.settings.verifyLogon = true → LogonCheck.ofAnswer (c.answer ++ chunk) = .accepted) →
      ∃ after, c.receive = (.done (some chunk), after) ∧ after.session = ⟨.loggedOn, false⟩

theorem goesOn_of_opened (hc : c.Opened) (hopen : c.session.state ≠ .closed) : c.GoesOn := by
  constructor
  case send_eq =>
    intro m frame hencode hwrite hflush
    obtain ⟨connection, hdeliver, hwritten⟩ := Connection.deliver_of_sound hwrite hflush frame
    have hcan := canSend_of_opened hc hopen
    by_cases hm : m.msgType? = some .logon
    · exact ⟨_, (Sends.logon hcan hencode hdeliver hm).eq, hwritten⟩
    · exact ⟨_, (Sends.plain hcan hencode hdeliver hm).eq, hwritten⟩
  case receive_eq =>
    intro chunk hpending hreading hcheck
    have hc' : c.afterRead.Opened := hc.of_session_eq rfl
    rw [receive_of_open hopen, hreading]
    cases hverify : c.settings.verifyLogon with
    | false =>
        have hhears : c.afterRead.Hears (.chunk chunk) _ _ := .trusted hpending hverify
        exact ⟨_, hhears.eq hc' hopen, rfl⟩
    | true =>
        have hhears : c.afterRead.Hears (.chunk chunk) _ _ :=
          .accepted hpending hverify (hcheck hverify)
        exact ⟨_, hhears.eq hc' hopen, rfl⟩

/-- A call that fails, at any point of any history of a client, leaves its session open. A refused
answer is forgotten, and its Logon is still pending. Until the end of the stream is read, at every
point of every later history, what is sent is written, and a pending Logon can be answered. -/
theorem goes_on_after_failure {settings : Settings} {connection : Connection}
    (hstart : start settings connection = .ok c₀) (h : History c₀ acts c)
    (hcall : c.call stop id call = (.failed e, p)) (he : e.isFailure = true) :
    p.client.session.state.canSend = true ∧
      (∀ received, e = .session (.protocolViolation received) →
        p.client.session = ⟨.connected, true⟩ ∧ p.client.answer = []) ∧
      ∀ later c', History p.client later c' →
        .heard .endOfStream (.done none) ∉ later → c'.GoesOn := by
  obtain ⟨-, hsession⟩ := of_start hstart
  have h₀ : c₀.Opened := ⟨by simp [hsession], by simp [hsession]⟩
  have hp : Interrupted e p.client := interrupted_of_call (h.opened h₀) hcall he
  refine ⟨canSend_of_opened hp.opened hp.state_ne_closed, hp.of_violation, ?_⟩
  intro later c' hlater hend
  apply goesOn_of_opened (hlater.opened hp.opened)
  intro hclosed
  exact hend (hlater.mem_of_closed hp.opened hp.state_ne_closed hclosed)

theorem goes_on_after_failure_read : ∃ (id : Identity) (c₀ : Client) (p : Progress),
    start (Settings.standard "unix:/s") { arriving := [.failure "reset by peer"] } = .ok c₀ ∧
      c₀.call StopRule.never id .receive =
        (.failed (.session (.connection "reset by peer")), p) ∧
      p.client.GoesOn := by
  let id : Identity := { sender := ⟨"A", by decide⟩, target := ⟨"B", by decide⟩ }
  have hvalid : (Settings.standard "unix:/s").fault? = none := by decide +kernel
  obtain ⟨c₀, hstart⟩ := exists_start hvalid { arriving := [.failure "reset by peer"] }
  have hcall : c₀.call StopRule.never id .receive =
      (.failed (.session (.connection "reset by peer")),
        (c₀.call StopRule.never id .receive).2) := by
    rw [start_eq hvalid] at hstart
    cases hstart
    rfl
  obtain ⟨-, -, hgoesOn⟩ := goes_on_after_failure hstart .start hcall rfl
  exact ⟨id, c₀, _, hstart, hcall, hgoesOn [] _ .start (by simp)⟩

/-- After a read has failed a Logout is written, and after a Logon was answered with a Logout
another answer logs on. -/
theorem writes_and_logs_on_after_failure :
    (∃ (c₀ c₁ c₂ : Client) (m : Message) (frame : Bytes),
      start (Settings.standard "unix:/s") { arriving := [.failure "reset by peer"] } = .ok c₀ ∧
        c₀.receive = (.failed (.session (.connection "reset by peer")), c₁) ∧
        c₁.send m = (.ok frame, c₂) ∧ c₂.connection.written ≠ c₁.connection.written) ∧
    ∃ (c₀ c₁ c₂ c₃ : Client) (m : Message) (frame chunk : Bytes),
      start { Settings.standard "unix:/s" with verifyLogon := true }
          { arriving := [.data (Utf8.encode "8=FIX.4.4\x019=5\x0135=5\x01"),
              .data (Utf8.encode "8=FIX.4.4\x019=5\x0135=A\x01")] } = .ok c₀ ∧
        c₀.send m = (.ok frame, c₁) ∧
        c₁.receive = (.failed (.session (.protocolViolation (.ofType .logout))), c₂) ∧
        c₂.receive = (.done (some chunk), c₃) ∧ c₃.session.state = .loggedOn := by
  constructor
  · let logout : Message := ⟨[⟨.beginString, .text "FIX.4.4"⟩, ⟨.msgType, .text "5"⟩]⟩
    let c₀ : Client :=
      { settings := Settings.standard "unix:/s"
        settings_valid := by decide +kernel
        session := ⟨.connected, false⟩
        answer := []
        connection := { arriving := [.failure "reset by peer"] } }
    refine ⟨c₀, c₀.receive.2, (c₀.receive.2.send logout).2, logout, _, rfl, rfl, rfl, ?_⟩
    decide +kernel
  · let logon : Message := ⟨[⟨.beginString, .text "FIX.4.4"⟩, ⟨.msgType, .text "A"⟩]⟩
    let c₀ : Client :=
      { settings := { Settings.standard "unix:/s" with verifyLogon := true }
        settings_valid := by decide +kernel
        session := ⟨.connected, false⟩
        answer := []
        connection :=
          { arriving := [.data (Utf8.encode "8=FIX.4.4\x019=5\x0135=5\x01"),
              .data (Utf8.encode "8=FIX.4.4\x019=5\x0135=A\x01")] } }
    let c₁ := (c₀.send logon).2
    have hrefused : c₁.receive =
        (.failed (.session (.protocolViolation (.ofType .logout))), c₁.receive.2) :=
      Prod.fst_eq_iff.mp (by decide +kernel)
    have haccepted : c₁.receive.2.receive =
        (.done (some (Utf8.encode "8=FIX.4.4\x019=5\x0135=A\x01")), c₁.receive.2.receive.2) :=
      Prod.fst_eq_iff.mp (by decide +kernel)
    refine ⟨c₀, c₁, _, _, logon, _, _, rfl, rfl, hrefused, haccepted, ?_⟩
    decide +kernel

end Client

end FixClient
