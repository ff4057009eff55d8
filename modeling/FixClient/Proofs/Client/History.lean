import FixClient.Client.Script
import FixClient.Proofs.Client.Rules

/-!
# Histories of clients

Whatever is asked of a client, it does nothing but send and read. A course is a row of such
acts. In a history anything may happen to the connection between two acts, except that what was
written and read stays on record. So what holds along all histories holds over any stream.
-/

namespace FixClient

/-- Something a client did, and what came of it. -/
inductive Act where
  | sent (m : Message) (result : Except Error Bytes)
  | heard (reading : Reading) (outcome : Outcome (Option Bytes))

namespace Act

def bytes : Act → Bytes
  | .sent _ _ => []
  | .heard reading _ => reading.bytes

/-- All that was read. The acts come latest first. -/
def bytesRead (acts : List Act) : Bytes := acts.reverse.flatMap bytes

theorem bytesRead_cons (a : Act) (acts : List Act) :
    bytesRead (a :: acts) = bytesRead acts ++ a.bytes := by
  simp [bytesRead]

end Act

namespace Client

variable {c₀ c c' before after last : Client} {a : Act} {acts later : List Act} {m : Message}
  {result : Except Error Bytes} {reading : Reading} {outcome : Outcome (Option Bytes)}

def nextReading (c : Client) : Reading := (c.connection.read c.settings.readChunkSize).1

/-- The client after the next read, before it takes in what was read. -/
def afterRead (c : Client) : Client :=
  { c with connection := (c.connection.read c.settings.readChunkSize).2 }

/-- The act of receiving. A closed client does not read. -/
def receiveActs (c : Client) : List Act :=
  if c.session.state = .closed then [] else [.heard c.nextReading c.receive.1]

theorem send_of_closed (h : c.session.state = .closed) (m : Message) :
    c.send m = (.error (.session (.invalidState .connected .closed)), c) := by
  simp [send, Session.ensureCanSend, SessionState.canSend, h]

theorem receive_of_closed (h : c.session.state = .closed) : c.receive = (.done none, c) :=
  if_pos h

theorem receive_of_open (h : c.session.state ≠ .closed) :
    c.receive = c.afterRead.hear c.nextReading :=
  if_neg h

/-- All that a closed client gives is that the stream has ended. -/
theorem state_ne_closed_of_receive (h : c.receive = (outcome, after)) (hne : outcome ≠ .done none) :
    c.session.state ≠ .closed := by
  intro hclosed
  rw [receive_of_closed hclosed] at h
  exact hne (Prod.mk.inj h).1.symm

/-- One act. A closed client reads no more. -/
inductive Does (c : Client) : Act → Client → Prop
  | send {m : Message} {result : Except Error Bytes} {after : Client}
      (h : c.send m = (result, after)) : Does c (.sent m result) after
  | receive {reading : Reading} {outcome : Outcome (Option Bytes)} {after : Client}
      (hopen : c.session.state ≠ .closed) (hreading : c.nextReading = reading)
      (h : c.receive = (outcome, after)) : Does c (.heard reading outcome) after

/-- Acts of a client that is left to itself, the latest first. -/
inductive Course (c : Client) : List Act → Client → Prop
  | start : Course c [] c
  | next {acts : List Act} {before after : Client} {a : Act} (h : Course c acts before)
      (hdoes : before.Does a after) : Course c (a :: acts) after

/-- Acts of a client, the latest first, whatever happens to the connection between them. -/
inductive History (c₀ : Client) : List Act → Client → Prop
  | start : History c₀ [] c₀
  | next {acts : List Act} {c after : Client} {a : Act} (h : History c₀ acts c)
      (hdoes : c.Does a after) : History c₀ (a :: acts) after
  | moved {acts : List Act} {c : Client} (h : History c₀ acts c) (connection : Connection)
      (hwritten : connection.written = c.connection.written)
      (hreadings : connection.readings = c.connection.readings) :
      History c₀ acts { c with connection := connection }

namespace Does

theorem sends (h : c.Does (.sent m result) after) : c.Sends m result after := by
  cases h with
  | send h =>
      have hsends := c.sends m
      rwa [h] at hsends

theorem hears (hc : c.Opened) (h : c.Does (.heard reading outcome) after) :
    c.afterRead.Hears reading outcome after := by
  cases h with
  | receive hopen hreading h =>
      have hc' : c.afterRead.Opened := hc.of_session_eq rfl
      have hhears := Client.hears hc' hopen c.nextReading
      rwa [← receive_of_open hopen, h, hreading] at hhears

theorem opened (hc : c.Opened) (h : c.Does a after) : after.Opened := by
  cases a with
  | sent m result => exact hc.of_sends h.sends
  | heard reading outcome =>
      have hc' : c.afterRead.Opened := hc.of_session_eq rfl
      exact hc'.of_hears (h.hears hc)

theorem settings_eq (hc : c.Opened) (h : c.Does a after) : after.settings = c.settings := by
  cases a with
  | sent m result => cases h.sends <;> rfl
  | heard reading outcome => cases h.hears hc <;> rfl

theorem prefix_written (hc : c.Opened) (h : c.Does a after) :
    c.connection.written <+: after.connection.written := by
  cases a with
  | sent m result => exact h.sends.prefix_written
  | heard reading outcome =>
      rw [(h.hears hc).connection_eq]
      exact List.prefix_rfl

theorem chunk_ne_nil {chunk : Bytes} (h : c.Does (.heard (.chunk chunk) outcome) after) :
    chunk ≠ [] := by
  cases h with
  | receive hopen hreading h => exact Connection.chunk_ne_nil_of_next hreading

theorem of_receive {chunk : Bytes} (hc : c.Opened) (h : c.receive = (.done (some chunk), after)) :
    c.Does (.heard (.chunk chunk) (.done (some chunk))) after := by
  have hopen : c.session.state ≠ .closed := state_ne_closed_of_receive h (by simp)
  generalize hreading : c.nextReading = reading
  have hdoes : c.Does (.heard reading (.done (some chunk))) after := .receive hopen hreading h
  cases hdoes.hears hc with
  | plain | trusted | undecided | accepted => exact hdoes

theorem state_ne_closed {chunk : Bytes} (hc : c.Opened) (hopen : c.session.state ≠ .closed)
    (h : c.Does (.heard (.chunk chunk) outcome) after) : after.session.state ≠ .closed := by
  cases h.hears hc with
  | plain | undecided | refused => exact hopen
  | trusted | accepted => simp

end Does

namespace Course

theorem append (h : c.Course acts before) (hlater : before.Course later after) :
    c.Course (later ++ acts) after := by
  induction hlater with
  | start => exact h
  | next _ hdoes ih => exact ih.next hdoes

theorem of_receive (c : Client) : c.Course c.receiveActs c.receive.2 := by
  rw [receiveActs]
  split
  · next h =>
    rw [receive_of_closed h]
    exact start
  · next h => exact start.next (.receive h rfl rfl)

/-- A closed client stays as it is, its connection included. -/
theorem eq_of_closed (h : c.Course acts after) (hclosed : c.session.state = .closed) :
    after = c := by
  induction h with
  | start => rfl
  | next _ hdoes ih =>
      rw [← ih] at hclosed
      rw [← ih]
      cases hdoes with
      | send h =>
          rw [send_of_closed hclosed] at h
          exact (Prod.mk.inj h).2.symm
      | receive hopen => exact absurd hclosed hopen

end Course

namespace History

theorem of_course (h : History c₀ acts c) (hlater : c.Course later after) :
    History c₀ (later ++ acts) after := by
  induction hlater with
  | start => exact h
  | next _ hdoes ih => exact ih.next hdoes

theorem opened (h : History c₀ acts c) (h₀ : c₀.Opened) : c.Opened := by
  induction h with
  | start => exact h₀
  | next _ hdoes ih => exact hdoes.opened ih
  | moved _ connection _ _ ih => exact ih.of_session_eq rfl

end History

end Client

end FixClient
