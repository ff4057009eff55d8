import FixClient.Connection
import FixClient.Error
import FixClient.Frame.Writer
import FixClient.Session.Lifecycle
import FixClient.Session.Settings

/-!
# Clients

A client holds one session over one connection. It writes frames and reads
chunks as they come; the only thing it looks at in what it reads is the type of
the answer to its Logon, and only if it is asked to.
-/

namespace FixClient

/-- What a call that may have to wait comes to. -/
inductive Outcome (α : Type) where
  | done (a : α)
  | failed (e : Error)
  /-- Nothing has arrived, and there is no deadline. -/
  | waiting
  deriving DecidableEq, Repr

structure Client where
  settings : Settings
  settings_valid : settings.fault? = none
  session : Session
  /-- The answer to the pending Logon as far as it has arrived, if it is checked. -/
  answer : Bytes
  connection : Connection
  deriving DecidableEq

namespace Client

def start (settings : Settings) (connection : Connection) : Except SessionError Client :=
  match h : settings.fault? with
  | some fault => .error (.configuration fault)
  | none =>
    Session.new.connect.map fun session =>
      { settings := settings, settings_valid := h, session := session, answer := [],
        connection := connection }

def noteSent (m : Message) (c : Client) : Client :=
  if m.msgType? = some .logon then { c with session := c.session.logonSent, answer := [] } else c

/-- Writes a message as one frame and gives the frame. A message that cannot be
written leaves no byte; a write that fails may leave part of the frame. -/
def send (m : Message) (c : Client) : Except Error Bytes × Client :=
  match c.session.ensureCanSend with
  | .error e => (.error (.session e), c)
  | .ok () =>
    match m.encode with
    | .error e => (.error (.encode e), c)
    | .ok frame =>
      match c.connection.deliver frame with
      | (.error reason, after) =>
        (.error (.session (.connection reason)), { c with connection := after })
      | (.ok (), after) => (.ok frame, ({ c with connection := after } : Client).noteSent m)

/-- Logs on with the chunk that answered the Logon. -/
def logOn (chunk : Bytes) (c : Client) : Outcome (Option Bytes) × Client :=
  match c.session.logonAcknowledged with
  | .error e => (.failed (.session e), c)
  | .ok session => (.done (some chunk), { c with session := session })

/-- Takes in a chunk. While a Logon is pending it is, or belongs to, the answer. -/
def takeIn (chunk : Bytes) (c : Client) : Outcome (Option Bytes) × Client :=
  if !c.session.logonPending then (.done (some chunk), c)
  else if !c.settings.verifyLogon then c.logOn chunk
  else
    let answer := c.answer ++ chunk
    match LogonCheck.ofAnswer answer with
    | .undecided => (.done (some chunk), { c with answer := answer })
    | .accepted => logOn chunk { c with answer := [] }
    | .refused received =>
      (.failed (.session (.protocolViolation received)), { c with answer := [] })

def hear (reading : Reading) (c : Client) : Outcome (Option Bytes) × Client :=
  match reading with
  | .chunk chunk => c.takeIn chunk
  | .endOfStream =>
    match c.session.close with
    | .error e => (.failed (.session e), c)
    | .ok session => (.done none, { c with session := session })
  | .failure reason => (.failed (.session (.connection reason)), c)
  | .silence =>
    match c.settings.readTimeout with
    | some deadline => (.failed (.session (.readTimeout deadline)), c)
    | none => (.waiting, c)

/-- Reads one chunk, or nothing once the counterparty has closed the stream. A
closed session reads no more. -/
def receive (c : Client) : Outcome (Option Bytes) × Client :=
  if c.session.state = .closed then (.done none, c)
  else
    let (reading, after) := c.connection.read c.settings.readChunkSize
    hear reading { c with connection := after }

theorem connection_logOn (chunk : Bytes) (c : Client) :
    (c.logOn chunk).2.connection = c.connection := by
  unfold logOn
  split <;> rfl

theorem connection_takeIn (chunk : Bytes) (c : Client) :
    (c.takeIn chunk).2.connection = c.connection := by
  unfold takeIn
  split
  · rfl
  split
  · exact connection_logOn chunk c
  dsimp only
  split
  · rfl
  · exact connection_logOn chunk _
  · rfl

theorem connection_hear (reading : Reading) (c : Client) :
    (c.hear reading).2.connection = c.connection := by
  cases reading with
  | chunk bytes => exact connection_takeIn bytes c
  | endOfStream =>
    simp only [hear]
    split <;> rfl
  | failure reason => rfl
  | silence =>
    simp only [hear]
    split <;> rfl

/-- A chunk is received only where a read gave one. -/
theorem chunk_of_hear {reading : Reading} {c after : Client} {chunk : Bytes}
    (h : c.hear reading = (.done (some chunk), after)) : ∃ bytes, reading = .chunk bytes := by
  cases reading with
  | chunk bytes => exact ⟨bytes, rfl⟩
  | endOfStream =>
    simp only [hear] at h
    split at h <;> simp at h
  | failure reason => simp [hear] at h
  | silence =>
    simp only [hear] at h
    split at h <;> simp at h

theorem backlog_lt_of_receive {c after : Client} {chunk : Bytes}
    (h : c.receive = (.done (some chunk), after)) :
    after.connection.backlog < c.connection.backlog := by
  unfold receive at h
  split at h
  · simp at h
  · obtain ⟨bytes, hb⟩ := chunk_of_hear h
    have hc : after.connection = (c.connection.read c.settings.readChunkSize).2 :=
      (congrArg (fun r => r.2.connection) h).symm.trans (connection_hear _ _)
    rw [hc]
    exact Connection.backlog_lt_of_read (Prod.ext hb rfl)

end Client

end FixClient
