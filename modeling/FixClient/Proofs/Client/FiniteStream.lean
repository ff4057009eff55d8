import FixClient.Proofs.Client.ChunkSize

/-!
# Streams that come to an end

Nothing but bytes keeps a client reading: a read without any is its last one, however the stream
was cut and whatever the check of a Logon says. So a client reads at most once more often than
there are bytes, and following a stream that ends comes to an end with it.
-/

namespace FixClient

namespace Connection

variable {limit : Nat} {arriving left : List Arrival} {reading : Reading}

/-- All that is still to arrive, also what the next frames delivered bring on. -/
def toCome (c : Connection) : List Arrival := c.arriving ++ c.reactions.flatten

theorem toCome_react (c : Connection) : c.react.toCome = c.toCome := by
  unfold react
  split
  · rfl
  · next hreactions => simp [toCome, hreactions]

theorem toCome_write (bytes : Bytes) (c : Connection) : (c.write bytes).2.toCome = c.toCome := by
  unfold write
  split
  · rfl
  · dsimp only
    split
    · rfl
    · rfl

theorem toCome_deliver (frame : Bytes) (c : Connection) :
    (c.deliver frame).2.toCome = c.toCome := by
  have hwrite := toCome_write frame c
  unfold deliver
  split
  · next heq => rwa [heq] at hwrite
  · next heq =>
    rw [heq] at hwrite
    split
    · exact hwrite
    · exact (toCome_react _).trans hwrite

theorem Reads.append_of_chunk {chunk : Bytes} (h : Reads limit arriving (.chunk chunk) left)
    (later : List Arrival) : Reads limit (arriving ++ later) (.chunk chunk) (left ++ later) := by
  cases h with
  | whole hne hlen => exact .whole hne hlen
  | part hne hlen hmore => exact .part hne hlen hmore

theorem length_bytesRead_le {c after : Connection} {new : List Reading}
    (h : after.readings = new ++ c.readings) : c.bytesRead.length ≤ after.bytesRead.length := by
  simp [bytesRead, h]

end Connection

namespace Client

variable {c after : Client} {m : Message} {result : Except Error Bytes} {chunk : Bytes}

theorem Sends.toCome_eq (h : c.Sends m result after) :
    after.connection.toCome = c.connection.toCome := by
  cases h with
  | refused | unwritable => rfl
  | @broken frame _ _ _ _ hd | @plain frame _ _ _ hd | @logon frame _ _ _ hd =>
      have htoCome := c.connection.toCome_deliver frame
      rwa [hd] at htoCome

/-- What holds after a chunk was received: its bytes were in front of all that was to come. -/
structure Gets (c : Client) (chunk : Bytes) (after : Client) : Prop where
  opened : after.Opened
  settings_eq : after.settings = c.settings
  chunk_ne_nil : chunk ≠ []
  readings_eq : after.connection.readings = .chunk chunk :: c.connection.readings
  reactions_eq : after.connection.reactions = c.connection.reactions
  reads : Connection.Reads c.settings.readChunkSize c.connection.arriving (.chunk chunk)
    after.connection.arriving

theorem gets_of_receive (hc : c.Opened) (h : c.receive = (.done (some chunk), after)) :
    c.Gets chunk after := by
  have hdoes := Does.of_receive hc h
  have hconnection := (hdoes.hears hc).connection_eq
  have hreading : c.nextReading = .chunk chunk := by
    cases hdoes with
    | receive _ hreading => exact hreading
  have hreads := Connection.reads_next (Settings.readChunkSize_pos c.settings_valid)
    c.connection.arriving
  constructor
  case opened => exact hdoes.opened hc
  case settings_eq => exact hdoes.settings_eq hc
  case chunk_ne_nil => exact hdoes.chunk_ne_nil
  case readings_eq =>
    rw [hconnection, ← hreading]
    rfl
  case reactions_eq =>
    rw [hconnection]
    rfl
  case reads =>
    rw [hconnection, ← hreading]
    exact hreads

/-- From one client to a later one so many bytes were read off the front of all that is to come,
at least one with each read. -/
structure Draws (c : Client) (bytes : Bytes) (after : Client) : Prop where
  opened : after.Opened
  settings_eq : after.settings = c.settings
  bytesRead_eq : after.connection.bytesRead = c.connection.bytesRead ++ bytes
  length_readings_le :
    after.connection.readings.length ≤ c.connection.readings.length + bytes.length
  ahead_eq : (Connection.ahead c.connection.toCome).1 =
    bytes ++ (Connection.ahead after.connection.toCome).1

theorem Gets.draws (h : c.Gets chunk after) : c.Draws chunk after := by
  have hpos : 0 < chunk.length := List.length_pos_iff.mpr h.chunk_ne_nil
  constructor
  case opened => exact h.opened
  case settings_eq => exact h.settings_eq
  case bytesRead_eq => simp [Connection.bytesRead, h.readings_eq, Reading.bytes]
  case length_readings_le =>
    rw [h.readings_eq, List.length_cons]
    exact Nat.add_le_add_left hpos _
  case ahead_eq =>
    have hreads := h.reads.append_of_chunk c.connection.reactions.flatten
    rw [Connection.toCome, Connection.toCome, hreads.ahead_of_chunk, h.reactions_eq]

theorem draws_of_send (hc : c.Opened) (h : c.send m = (result, after)) : c.Draws [] after := by
  have hdoes : c.Does (.sent m result) after := .send h
  have hreadings := hdoes.sends.readings_eq
  constructor
  case opened => exact hdoes.opened hc
  case settings_eq => exact hdoes.settings_eq hc
  case bytesRead_eq =>
    rw [Connection.bytesRead, Connection.bytesRead, hreadings, List.append_nil]
  case length_readings_le => exact Nat.le_of_eq (congrArg List.length hreadings)
  case ahead_eq => rw [hdoes.sends.toCome_eq, List.nil_append]

theorem exists_readings_receive (c : Client) : ∃ new,
    c.receive.2.connection.readings = new ++ c.connection.readings ∧ new.length ≤ 1 := by
  by_cases hclosed : c.session.state = .closed
  · rw [receive_of_closed hclosed]
    exact ⟨[], rfl, Nat.zero_le 1⟩
  · rw [receive_of_open hclosed, connection_hear]
    exact ⟨[c.nextReading], rfl, Nat.le_refl 1⟩

end Client

namespace Progress

open Client

variable {around : Surroundings} {stop : StopRule} {id : Identity} {s : Scenario}
  {p q after : Progress} {step : Step} {ended : Outcome Unit} {n : Nat}

theorem Takes.exists_draws (h : p.Takes stop id step (.done true) after) (hp : p.client.Opened) :
    ∃ bytes, p.client.Draws bytes after.client := by
  cases h with
  | sent _ hsend => exact ⟨[], draws_of_send hp hsend⟩
  | heard _ hreceive => exact ⟨_, (gets_of_receive hp hreceive).draws⟩

theorem Takes.exists_readings {outcome : Outcome Bool} (h : p.Takes stop id step outcome after) :
    ∃ new, after.client.connection.readings = new ++ p.client.connection.readings ∧
      new.length ≤ 1 := by
  have hread : ∀ {outcome c}, p.client.receive = (outcome, c) →
      ∃ new, c.connection.readings = new ++ p.client.connection.readings ∧ new.length ≤ 1 := by
    intro outcome c hreceive
    have hnew := p.client.exists_readings_receive
    rwa [hreceive] at hnew
  cases h with
  | stopped => exact ⟨[], rfl, Nat.zero_le 1⟩
  | sent _ hsend | unsent _ hsend =>
      exact ⟨[], (Does.sends (.send hsend)).readings_eq, Nat.zero_le 1⟩
  | heard _ hreceive | closed _ hreceive | unheard _ hreceive | waiting _ hreceive =>
      exact hread hreceive

/-- A run reads at most once more often than the bytes to come allow. -/
theorem length_readings_run_le (stop : StopRule) (id : Identity) (s : Scenario) (p : Progress)
    (hp : p.client.Opened) : (p.run stop id s).2.client.connection.readings.length ≤
      p.client.connection.readings.length +
        (Connection.ahead p.client.connection.toCome).1.length + 1 := by
  induction s, p using run_induction stop id with
  | h s p ih =>
      rcases hnext : s.next? with _ | ⟨step, rest⟩
      · rw [run_of_next?_eq_none hnext, Nat.add_assoc]
        exact Nat.le_add_right _ _
      · rcases hstep : p.step stop id step with ⟨outcome, after⟩
        by_cases hlast : outcome = .done true
        · subst hlast
          obtain ⟨bytes, hdraws⟩ := (takes hstep).exists_draws hp
          have hrest := ih step rest after hnext hstep hdraws.opened
          have hreadings := hdraws.length_readings_le
          rw [run_of_step hnext hstep, hdraws.ahead_eq, List.length_append]
          omega
        · obtain ⟨new, hnew, hle⟩ := (takes hstep).exists_readings
          rw [run_of_last hnext hstep hlast, hnew, List.length_append]
          omega

theorem Takes.readTimeout_of_waiting (h : p.Takes stop id step .waiting after)
    (hp : p.client.Opened) : p.client.settings.readTimeout = none := by
  cases h with
  | waiting _ hreceive =>
      have hopen := state_ne_closed_of_receive hreceive (by simp)
      generalize hreading : p.client.nextReading = reading
      cases Does.hears hp (.receive hopen hreading hreceive) with
      | waiting hnone => exact hnone

/-- Each read of a run but the last gives bytes, whatever happens to the connection meanwhile, and
with a deadline no read waits for good. -/
theorem Runs.length_readings_le (h : Runs around stop id n s p ended q)
    (haround : around.KeepsReadings) (hp : p.client.Opened) :
    q.client.connection.readings.length + p.client.connection.bytesRead.length ≤
        p.client.connection.readings.length + q.client.connection.bytesRead.length + 1 ∧
      (p.client.settings.readTimeout ≠ none → ended ≠ .waiting) := by
  have hreadings : ∀ n (p : Progress),
      (p.amid around n).client.connection.readings = p.client.connection.readings :=
    fun n p => haround n _
  have hbytes : ∀ n (p : Progress),
      (p.amid around n).client.connection.bytesRead = p.client.connection.bytesRead :=
    fun n p => congrArg (fun readings => readings.reverse.flatMap Reading.bytes) (hreadings n p)
  induction h with
  | finished => exact ⟨by omega, by simp⟩
  | @last n _ _ p q _ outcome _ hstep =>
      have htakes := takes hstep
      have hbefore : (p.amid around n).client.Opened := hp.of_session_eq rfl
      obtain ⟨new, hnew, hle⟩ := htakes.exists_readings
      constructor
      · have hmore := Connection.length_bytesRead_le hnew
        rw [hnew, hreadings, List.length_append]
        rw [hbytes] at hmore
        omega
      · intro hdeadline hended
        obtain rfl : outcome = .waiting := by
          cases outcome <;> simp_all [Outcome.ended]
        exact hdeadline (htakes.readTimeout_of_waiting hbefore)
  | @next n _ _ p after _ _ _ _ hstep _ ih =>
      have hbefore : (p.amid around n).client.Opened := hp.of_session_eq rfl
      obtain ⟨bytes, hdraws⟩ := (takes hstep).exists_draws hbefore
      obtain ⟨hlength, hwaiting⟩ := ih hdraws.opened
      constructor
      · have hless := hdraws.length_readings_le
        rw [hreadings] at hless
        rw [hdraws.bytesRead_eq, hbytes, List.length_append] at hlength
        omega
      · rw [hdraws.settings_eq] at hwaiting
        exact hwaiting

/-- How following ends for a client with so many bytes to come and this read behind them. It may
end earlier on request or by a refused answer, and else by the read after all these bytes. -/
inductive Finishes (c : Client) (stop : StopRule) (bytes : Bytes) :
    Reading → Outcome Unit → Progress → Prop
  | cancelled {last : Reading} {q : Progress} (hopen : q.client.session.state ≠ .closed)
      (hstop : stop q.log = true) : Finishes c stop bytes last (.done ()) q
  | refused {last : Reading} {q : Progress} {received : LogonAnswer}
      (hopen : q.client.session.state ≠ .closed) (hverify : c.settings.verifyLogon = true) :
      Finishes c stop bytes last (.failed (.session (.protocolViolation received))) q
  | closed {q : Progress} (hclosed : q.client.session.state = .closed)
      (hread : q.client.connection.bytesRead = c.connection.bytesRead ++ bytes) :
      Finishes c stop bytes .endOfStream (.done ()) q
  | failure {reason : String} {q : Progress} (hopen : q.client.session.state ≠ .closed)
      (hread : q.client.connection.bytesRead = c.connection.bytesRead ++ bytes) :
      Finishes c stop bytes (.failure reason) (.failed (.session (.connection reason))) q
  | timeout {deadline : Nat} {q : Progress} (hopen : q.client.session.state ≠ .closed)
      (hread : q.client.connection.bytesRead = c.connection.bytesRead ++ bytes)
      (hdeadline : c.settings.readTimeout = some deadline) :
      Finishes c stop bytes .silence (.failed (.session (.readTimeout deadline))) q

theorem Finishes.of_draws {c after : Client} {front rest : Bytes} {last : Reading}
    (h : Finishes after stop rest last ended q) (hdraws : c.Draws front after) :
    Finishes c stop (front ++ rest) last ended q := by
  have hbytes : after.connection.bytesRead ++ rest = c.connection.bytesRead ++ (front ++ rest) := by
    rw [hdraws.bytesRead_eq, List.append_assoc]
  cases h with
  | cancelled hopen hstop => exact .cancelled hopen hstop
  | refused hopen hverify => exact .refused hopen (hdraws.settings_eq ▸ hverify)
  | closed hclosed hread => exact .closed hclosed (hread.trans hbytes)
  | failure hopen hread => exact .failure hopen (hread.trans hbytes)
  | timeout hopen hread hdeadline =>
      exact .timeout hopen (hread.trans hbytes) (hdraws.settings_eq ▸ hdeadline)

theorem finishes_of_receive {c after : Client} {outcome : Outcome (Option Bytes)} {bytes : Bytes}
    {last : Reading} (hc : c.Opened) (hopen : c.session.state ≠ .closed)
    (hreceive : c.receive = (outcome, after)) (hnone : outcome.chunk? = none)
    (hahead : Connection.ahead c.connection.arriving = (bytes, last))
    (hlast : last = .silence → c.settings.readTimeout ≠ none) (log : List Event) :
    Finishes c stop bytes last outcome.ended ⟨after, log⟩ := by
  have hhears : c.afterRead.Hears c.nextReading outcome after :=
    Does.hears hc (.receive hopen rfl hreceive)
  have hread : after.connection.bytesRead = c.connection.bytesRead ++ c.nextReading.bytes := by
    rw [hhears.connection_eq]
    exact Connection.bytesRead_read _ _
  have hreads := Connection.reads_next (Settings.readChunkSize_pos c.settings_valid)
    c.connection.arriving
  change Connection.Reads _ _ c.nextReading _ at hreads
  generalize c.nextReading = reading at hhears hread hreads
  -- All bytes to come were read when a read gives none.
  have hbehind : (∀ chunk, reading ≠ .chunk chunk) → ([], reading) = (bytes, last) := fun hne =>
    (hreads.ahead_of_last hne).symm.trans hahead
  cases hhears with
  | ended =>
      cases hbehind (by simp)
      exact .closed rfl hread
  | failure =>
      cases hbehind (by simp)
      exact .failure hopen hread
  | timeout hdeadline =>
      cases hbehind (by simp)
      exact .timeout hopen hread hdeadline
  | waiting hdeadline =>
      cases hbehind (by simp)
      exact absurd hdeadline (hlast rfl)
  | refused _ hverify => exact .refused hopen hverify
  | plain | trusted | undecided | accepted => cases hnone

theorem Takes.finishes {outcome : Outcome Bool} {bytes : Bytes} {last : Reading}
    (h : p.Takes stop id .receive outcome after) (hp : p.client.Opened)
    (hopen : p.client.session.state ≠ .closed) (hne : outcome ≠ .done true)
    (hahead : Connection.ahead p.client.connection.arriving = (bytes, last))
    (hlast : last = .silence → p.client.settings.readTimeout ≠ none) :
    Finishes p.client stop bytes last outcome.ended after := by
  cases h with
  | stopped hstop => exact .cancelled hopen hstop
  | heard => exact absurd rfl hne
  | closed _ hreceive | unheard _ hreceive | waiting _ hreceive =>
      exact finishes_of_receive hp hopen hreceive rfl hahead hlast _

theorem follow_closed (stop : StopRule) (id : Identity) (p : Progress)
    (hclosed : p.client.session.state = .closed) :
    (p.follow stop).1 = .done () ∧ (p.follow stop).2.client = p.client := by
  rcases hread : p.receiveOne stop with ⟨outcome, after⟩
  have htakes : p.Takes stop id .receive outcome after := takes (step_receive.trans hread)
  have hreceive := receive_of_closed hclosed
  cases htakes with
  | stopped =>
      rw [follow_of_last hread (by simp)]
      exact ⟨rfl, rfl⟩
  | closed _ hreceive' =>
      cases hreceive.symm.trans hreceive'
      rw [follow_of_last hread (by simp)]
      exact ⟨rfl, rfl⟩
  | heard _ hreceive' | unheard _ hreceive' | waiting _ hreceive' =>
      cases hreceive.symm.trans hreceive'

/-- Following takes one read for some of the bytes to come each, and at most one more. -/
theorem follow_finishes (stop : StopRule) (id : Identity) (p : Progress) (hp : p.client.Opened)
    (hopen : p.client.session.state ≠ .closed) {bytes : Bytes} {last : Reading}
    (hahead : Connection.ahead p.client.connection.arriving = (bytes, last))
    (hlast : last = .silence → p.client.settings.readTimeout ≠ none) :
    (p.follow stop).2.client.connection.readings.length ≤
        p.client.connection.readings.length + bytes.length + 1 ∧
      Finishes p.client stop bytes last (p.follow stop).1 (p.follow stop).2 := by
  induction hn : p.client.connection.backlog using Nat.strongRecOn generalizing p bytes with
  | ind n ih =>
      rcases hread : p.receiveOne stop with ⟨outcome, after⟩
      have htakes : p.Takes stop id .receive outcome after := takes (step_receive.trans hread)
      by_cases hgoes : outcome = .done true
      · subst hgoes
        have hless := backlog_lt_of_receiveOne hread
        rw [follow_of_receiveOne hread]
        cases htakes with
        | @heard chunk c _ hreceive =>
            have hgets := gets_of_receive hp hreceive
            have hopen' := (Does.of_receive hp hreceive).state_ne_closed hp hopen
            rw [hgets.reads.ahead_of_chunk] at hahead
            obtain ⟨rfl, rfl⟩ := Prod.mk.inj hahead
            obtain ⟨hlength, hfinishes⟩ := ih _ (hn ▸ hless) (p.noteChunk c chunk) hgets.opened
              hopen' rfl (hgets.settings_eq ▸ hlast) rfl
            refine ⟨?_, hfinishes.of_draws hgets.draws⟩
            have hone := hgets.draws.length_readings_le
            rw [List.length_append]
            change _ ≤ c.connection.readings.length +
              (Connection.ahead c.connection.arriving).1.length + 1 at hlength
            omega
      · rw [follow_of_last hread hgoes]
        obtain ⟨new, hnew, hle⟩ := htakes.exists_readings
        refine ⟨?_, htakes.finishes hp hopen hgoes hahead hlast⟩
        rw [hnew, List.length_append]
        omega

end Progress

namespace Client

open Progress

variable {c : Client} {settings : Settings}

/-- Following a stream that gives some bytes and then ends, fails or is silent past the deadline
takes at most one read more than there are bytes, and it ends. It may end on request, by a refused
answer or, with all these bytes read, as the stream has ended. A closed client reads nothing. A run
keeps within the bytes to come as well, those that its own sends bring on among them; so does every
run within the bytes that it has read, whatever happens to the connection meanwhile. -/
theorem following_ends (h : Reached settings c) (stop : StopRule) (id : Identity) :
    (c.session.state = .closed →
      (c.call stop id .follow).1 = .done ∧ (c.call stop id .follow).2.client = c) ∧
    (c.session.state ≠ .closed → ∀ bytes last,
      Connection.ahead c.connection.arriving = (bytes, last) →
      (last = .silence → settings.readTimeout ≠ none) →
      ∃ ended q, c.call stop id .follow = (.ofOutcome (fun _ => .done) ended, q) ∧
        q.client.connection.readings.length ≤ c.connection.readings.length + bytes.length + 1 ∧
        Finishes c stop bytes last ended q) ∧
    (∀ s, (c.call stop id (.run s)).2.client.connection.readings.length ≤
      c.connection.readings.length + (Connection.ahead c.connection.toCome).1.length + 1) ∧
    ∀ around s ended q, around.KeepsReadings → Runs around stop id 0 s ⟨c, []⟩ ended q →
      q.client.connection.readings.length + c.connection.bytesRead.length ≤
          c.connection.readings.length + q.client.connection.bytesRead.length + 1 ∧
        (settings.readTimeout ≠ none → ended ≠ .waiting) := by
  obtain ⟨hc, rfl⟩ := h.opened
  refine ⟨?_, ?_, ?_, ?_⟩
  · intro hclosed
    obtain ⟨hended, hclient⟩ := follow_closed stop id ⟨c, []⟩ hclosed
    refine ⟨?_, hclient⟩
    change Answer.ofOutcome _ (Progress.follow stop ⟨c, []⟩).1 = .done
    rw [hended]
    rfl
  · intro hopen bytes last hahead hlast
    obtain ⟨hlength, hfinishes⟩ := follow_finishes stop id ⟨c, []⟩ hc hopen hahead hlast
    exact ⟨_, _, rfl, hlength, hfinishes⟩
  · intro s
    exact length_readings_run_le stop id s ⟨c, []⟩ hc
  · intro around s ended q haround hruns
    exact hruns.length_readings_le haround hc

/-- Five bytes in chunks of two, then nothing for half a second: three chunks and a last read. -/
theorem following_ends_silence : ∃ (id : Identity) (c : Client),
    start { Settings.standard "unix:/s" with readChunkSize := 2, readTimeout := some 500 }
      { arriving := [.data (Utf8.encode "abcde")] } = .ok c ∧
    (c.call .never id .follow).2.client.connection.readings.length = 4 ∧
    (c.call .never id .follow).1 = .failed (.session (.readTimeout 500)) ∧
    ∃ ended q, c.call .never id .follow = (.ofOutcome (fun _ => .done) ended, q) ∧
      q.client.connection.readings.length ≤ 0 + 5 + 1 ∧
      Finishes c .never (Utf8.encode "abcde") .silence ended q := by
  let id : Identity := { sender := ⟨"A", by decide⟩, target := ⟨"B", by decide⟩ }
  let c : Client :=
    { settings :=
        { Settings.standard "unix:/s" with readChunkSize := 2, readTimeout := some 500 },
      settings_valid := by decide +kernel, session := ⟨.connected, false⟩, answer := [],
      connection := { arriving := [.data (Utf8.encode "abcde")] } }
  have hc := start_eq c.settings_valid c.connection
  obtain ⟨-, hfollow, -⟩ := following_ends (.of_start hc) .never id
  refine ⟨id, c, hc, ?_, ?_, ?_⟩
  · decide +kernel
  · decide +kernel
  · exact hfollow (by decide) (Utf8.encode "abcde") .silence (by decide +kernel) (by decide)

end Client

end FixClient
