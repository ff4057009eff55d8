import FixClient.Proofs.Client.Reception

/-!
# The size of a chunk

How many bytes a read may give decides how what arrives is cut, and nothing else. A client that
does not check the answer to its Logon follows a stream to the first read without bytes. It hands
on exactly the bytes up to there, and ends as this read says, whatever the size of its chunks and
however the bytes have arrived.
-/

namespace FixClient

namespace Connection

variable {limit : Nat} {arriving left : List Arrival} {reading : Reading}

/-- What the reads to come give: all bytes up to the first read without any, and this read. -/
def ahead : List Arrival → Bytes × Reading
  | [] => ([], .silence)
  | .endOfStream :: _ => ([], .endOfStream)
  | .failure reason :: _ => ([], .failure reason)
  | .data [] :: _ => ([], .endOfStream)
  | .data (b :: bytes) :: rest => (b :: bytes ++ (ahead rest).1, (ahead rest).2)

theorem ahead_data {bytes : Bytes} (h : bytes ≠ []) (rest : List Arrival) :
    ahead (.data bytes :: rest) = (bytes ++ (ahead rest).1, (ahead rest).2) := by
  obtain ⟨b, bytes, rfl⟩ := List.exists_cons_of_ne_nil h
  rfl

theorem Reads.ahead_of_chunk {chunk : Bytes} (h : Reads limit arriving (.chunk chunk) left) :
    ahead arriving = (chunk ++ (ahead left).1, (ahead left).2) := by
  cases h with
  | whole hne => exact ahead_data hne _
  | part hne _ hmore =>
      rw [ahead_data (List.append_ne_nil_of_left_ne_nil hne _), ahead_data hmore,
        List.append_assoc]

theorem Reads.ahead_of_last (h : Reads limit arriving reading left)
    (hlast : ∀ chunk, reading ≠ .chunk chunk) : ahead arriving = ([], reading) := by
  cases h with
  | silence | ended | failure | empty => rfl
  | whole | part => exact absurd rfl (hlast _)

end Connection

/-- The session after so many bytes of which none is checked. -/
def Session.afterBytes (s : Session) (bytes : Bytes) : Session :=
  if bytes ≠ [] ∧ s.logonPending = true then ⟨.loggedOn, false⟩ else s

theorem Session.afterBytes_append (s : Session) (l r : Bytes) :
    s.afterBytes (l ++ r) = (s.afterBytes l).afterBytes r := by
  unfold afterBytes
  by_cases hl : l = []
  · simp [hl]
  · by_cases hpending : s.logonPending = true <;> simp [hl, hpending]

namespace Client

/-- How following ends, by the last read. -/
inductive Ends (deadline : Option Nat) (s : Session) : Reading → Outcome Unit → Session → Prop
  | closed : Ends deadline s .endOfStream (.done ()) ⟨.closed, false⟩
  | failure {reason : String} :
      Ends deadline s (.failure reason) (.failed (.session (.connection reason))) s
  | timeout {ms : Nat} (h : deadline = some ms) :
      Ends deadline s .silence (.failed (.session (.readTimeout ms))) s
  | waiting (h : deadline = none) : Ends deadline s .silence .waiting s

theorem Ends.unique {deadline : Option Nat} {s s' s'' : Session} {reading : Reading}
    {ended ended' : Outcome Unit} (h : Ends deadline s reading ended s')
    (h' : Ends deadline s reading ended' s'') : ended' = ended ∧ s'' = s' := by
  cases h with
  | closed | failure =>
      cases h'
      exact ⟨rfl, rfl⟩
  | timeout hsome =>
      cases h' with
      | timeout hsome' =>
          cases hsome.symm.trans hsome'
          exact ⟨rfl, rfl⟩
      | waiting hnone => cases hsome.symm.trans hnone
  | waiting hnone =>
      cases h' with
      | timeout hsome => cases hnone.symm.trans hsome
      | waiting => exact ⟨rfl, rfl⟩

variable {c after : Client} {outcome : Outcome (Option Bytes)}

/-- An open client that does not look at what it reads. -/
structure Trusting (c : Client) : Prop where
  opened : c.Opened
  state_ne_closed : c.session.state ≠ .closed
  verifyLogon : c.settings.verifyLogon = false

namespace Trusting

theorem reads (c : Client) : Connection.Reads c.settings.readChunkSize c.connection.arriving
    c.nextReading c.afterRead.connection.arriving :=
  Connection.reads_next (Settings.readChunkSize_pos c.settings_valid) _

theorem of_chunk {chunk : Bytes} (h : c.Trusting)
    (hreceive : c.receive = (.done (some chunk), after)) :
    after.Trusting ∧ after.session = c.session.afterBytes chunk ∧
      after.settings = c.settings ∧ Connection.ahead c.connection.arriving =
        (chunk ++ (Connection.ahead after.connection.arriving).1,
          (Connection.ahead after.connection.arriving).2) := by
  have hdoes := Does.of_receive h.opened hreceive
  have hne : chunk ≠ [] := hdoes.chunk_ne_nil
  have hhears := hdoes.hears h.opened
  have hreading : c.nextReading = .chunk chunk := by
    cases hdoes with
    | receive _ hreading => exact hreading
  have hahead := (hreading ▸ reads c).ahead_of_chunk
  rw [← hhears.connection_eq] at hahead
  have hopen := hdoes.state_ne_closed h.opened h.state_ne_closed
  refine ⟨⟨hdoes.opened h.opened, hopen, ?_⟩, ?_, hdoes.settings_eq h.opened, hahead⟩
  · rw [hdoes.settings_eq h.opened]
    exact h.verifyLogon
  · have hverify : c.afterRead.settings.verifyLogon = false := h.verifyLogon
    have hsession : c.afterRead.session = c.session := rfl
    cases hhears with
    | plain hpending => simp [Session.afterBytes, ← hsession, hpending]
    | trusted hpending => simp [Session.afterBytes, ← hsession, hpending, hne]
    | undecided _ hverify' | accepted _ hverify' => simp [hverify] at hverify'

theorem of_last (h : c.Trusting) (hreceive : c.receive = (outcome, after))
    (hlast : outcome.chunk? = none) :
    ∃ reading, Connection.ahead c.connection.arriving = ([], reading) ∧
      Ends c.settings.readTimeout c.session reading outcome.ended after.session := by
  have hhears : c.afterRead.Hears c.nextReading outcome after :=
    Does.hears h.opened (.receive h.state_ne_closed rfl hreceive)
  have hverify : c.afterRead.settings.verifyLogon = false := h.verifyLogon
  have hreads := reads c
  generalize c.nextReading = reading at hhears hreads
  refine ⟨reading, ?_, ?_⟩
  · apply hreads.ahead_of_last
    rintro chunk rfl
    cases hhears with
    | plain | trusted => cases hlast
    | undecided _ hverify' | accepted _ hverify' | refused _ hverify' => simp [hverify] at hverify'
  · cases hhears with
    | ended => exact .closed
    | failure => exact .failure
    | timeout hdeadline => exact .timeout hdeadline
    | waiting hnone => exact .waiting hnone
    | plain | trusted => cases hlast
    | undecided _ hverify' | accepted _ hverify' | refused _ hverify' => simp [hverify] at hverify'

end Trusting

end Client

namespace Progress

open Client

variable {id : Identity} {p after : Progress} {outcome : Outcome Bool}

theorem Takes.exists_ends (h : p.Takes .never id .receive outcome after) (hp : p.client.Trusting)
    (hlast : outcome ≠ .done true) :
    Event.chunks after.log = Event.chunks p.log ∧
      ∃ reading, Connection.ahead p.client.connection.arriving = ([], reading) ∧
        Ends p.client.settings.readTimeout p.client.session reading outcome.ended
          after.client.session := by
  cases h with
  | stopped hstop => cases hstop
  | heard => exact absurd rfl hlast
  | closed _ hreceive =>
      exact ⟨(Event.chunks_cons _ _).trans (List.append_nil _), hp.of_last hreceive rfl⟩
  | unheard _ hreceive | waiting _ hreceive => exact ⟨rfl, hp.of_last hreceive rfl⟩

/-- To follow is to tell of the bytes ahead and to end with the first read without any. -/
theorem follow_ends (id : Identity) (p : Progress) (hp : p.client.Trusting) :
    (Event.chunks (p.follow .never).2.log).flatten = (Event.chunks p.log).flatten ++
        (Connection.ahead p.client.connection.arriving).1 ∧
      Ends p.client.settings.readTimeout
        (p.client.session.afterBytes (Connection.ahead p.client.connection.arriving).1)
        (Connection.ahead p.client.connection.arriving).2 (p.follow .never).1
        (p.follow .never).2.client.session := by
  induction hn : p.client.connection.backlog using Nat.strongRecOn generalizing p with
  | ind n ih =>
      rcases hread : p.receiveOne .never with ⟨outcome, after⟩
      have htakes : p.Takes .never id .receive outcome after := takes (step_receive.trans hread)
      by_cases hlast : outcome = .done true
      -- The chunk that was read is the front of what is ahead.
      · subst hlast
        have hless := backlog_lt_of_receiveOne hread
        rw [follow_of_receiveOne hread]
        cases htakes with
        | @heard chunk c _ hreceive =>
            obtain ⟨hc, hsession, hsettings, hahead⟩ := hp.of_chunk hreceive
            obtain ⟨hchunks, hends⟩ := ih _ (hn ▸ hless) (p.noteChunk c chunk) hc rfl
            rw [hahead]
            constructor
            · rw [hchunks, Event.chunks_noteChunk, List.flatten_append, List.flatten_singleton,
                List.append_assoc]
              rfl
            · rw [Session.afterBytes_append, ← hsession, ← hsettings]
              exact hends
      · obtain ⟨hchunks, reading, hahead, hends⟩ := htakes.exists_ends hp hlast
        rw [follow_of_last hread hlast, hahead, hchunks]
        exact ⟨(List.append_nil _).symm, hends⟩

theorem follow_of_closed (h : p.client.session.state = .closed) :
    p.follow .never = (.done (), ⟨p.client, .closed :: p.log⟩) := by
  have hread : p.receiveOne .never = (.done false, ⟨p.client, .closed :: p.log⟩) := by
    simp only [receiveOne, StopRule.never, receive_of_closed h, Bool.false_eq_true, if_false]
  exact follow_of_last hread (by simp)

end Progress

namespace Client

open Progress

variable {c d : Client} {settings settings' : Settings} {id : Identity}

/-- Two clients that follow hand on the same bytes and end in the same way. -/
structure FollowsAlike (id : Identity) (c d : Client) : Prop where
  chunks_eq : (Event.chunks (d.call .never id .follow).2.log).flatten =
    (Event.chunks (c.call .never id .follow).2.log).flatten
  session_eq : (d.call .never id .follow).2.client.session =
    (c.call .never id .follow).2.client.session
  answer_eq : (d.call .never id .follow).1 = (c.call .never id .follow).1

theorem call_follow (c : Client) : c.call .never id .follow =
    (.ofOutcome (fun _ => .done) (Progress.follow .never ⟨c, []⟩).1,
      (Progress.follow .never ⟨c, []⟩).2) :=
  rfl

theorem followsAlike_of_ahead (hc : c.Opened) (hd : d.Opened)
    (hverify : c.settings.verifyLogon = false) (hverify' : d.settings.verifyLogon = false)
    (htimeout : d.settings.readTimeout = c.settings.readTimeout) (hsession : d.session = c.session)
    (hahead : Connection.ahead d.connection.arriving = Connection.ahead c.connection.arriving) :
    FollowsAlike id c d := by
  by_cases hclosed : c.session.state = .closed
  · have hc' := follow_of_closed (p := ⟨c, []⟩) hclosed
    have hd' := follow_of_closed (p := ⟨d, []⟩) (hsession ▸ hclosed)
    constructor <;> rw [call_follow, call_follow, hc', hd']
    exact hsession
  · obtain ⟨hchunks, hends⟩ := follow_ends id ⟨c, []⟩ ⟨hc, hclosed, hverify⟩
    obtain ⟨hchunks', hends'⟩ := follow_ends id ⟨d, []⟩ ⟨hd, hsession ▸ hclosed, hverify'⟩
    rw [hahead] at hchunks' hends'
    rw [htimeout, hsession] at hends'
    obtain ⟨houtcome, hstate⟩ := hends.unique hends'
    exact ⟨hchunks'.trans hchunks.symm, hstate, congrArg (Answer.ofOutcome _) houtcome⟩

/-- A client hands on what it reads, in order and nothing twice, in chunks that are not empty and
no longer than its settings say. This holds over every row of calls in which no answer to a Logon is
refused, whatever happens between and within them, and every such call continues such a row; each
single receive takes what it returns off the front of what has arrived. So the size of the chunks
does not matter to a client that checks no answer: two of them that have the same session and the
same bytes ahead of them follow alike, and hand on all these bytes while their session is open. -/
theorem delivers_all_read (h : Reached settings c) :
    (∀ chunks c', Delivers c chunks c' →
      c'.connection.bytesRead = c.connection.bytesRead ++ chunks.flatten ∧
        ∀ chunk ∈ chunks, 1 ≤ chunk.length ∧ chunk.length ≤ settings.readChunkSize) ∧
    (∀ chunks c' stop id call answer p, Delivers c chunks c' → c'.call stop id call = (answer, p) →
      (∀ received, answer ≠ .failed (.session (.protocolViolation received))) →
        Delivers c (chunks ++ (answer.chunks ++ Event.chunks p.log)) p.client) ∧
    (∀ outcome c', c.receive = (outcome, c') → ¬ outcome.Violated →
      c.connection.unread = outcome.chunk?.getD [] ++ c'.connection.unread) ∧
    (settings.verifyLogon = false → ∀ id,
      (c.session.state ≠ .closed → (Event.chunks (c.call .never id .follow).2.log).flatten =
        (Connection.ahead c.connection.arriving).1) ∧
      ∀ settings' d, Reached settings' d → settings'.verifyLogon = false →
        settings'.readTimeout = settings.readTimeout → d.session = c.session →
          Connection.ahead d.connection.arriving = Connection.ahead c.connection.arriving →
            FollowsAlike id c d) := by
  obtain ⟨hc, rfl⟩ := h.opened
  refine ⟨?_, ?_, ?_, ?_⟩
  · intro chunks c' hdelivers
    have hread := hdelivers.hasRead hc
    exact ⟨hread.bytesRead_eq, hread.length_mem⟩
  · intro chunks c' stop id call answer p hdelivers hcall hok
    exact hdelivers.of_call hcall hok
  · intro outcome c' hreceive hok
    exact (consumes_of_receive hc hreceive hok).unread_eq
  · intro hverify id
    constructor
    · intro hopen
      exact (follow_ends id ⟨c, []⟩ ⟨hc, hopen, hverify⟩).1
    · intro settings' d hreached hverify' htimeout hsession hahead
      obtain ⟨hd, rfl⟩ := hreached.opened
      exact followsAlike_of_ahead hc hd hverify hverify' htimeout hsession hahead

/-- Five bytes and the end of the stream, followed in chunks of two bytes and of three. -/
theorem delivers_all_read_twos_threes : ∃ (id : Identity) (c d : Client),
    start { Settings.standard "unix:/s" with readChunkSize := 2 }
      { arriving := [.data (Utf8.encode "abcde"), .endOfStream] } = .ok c ∧
    start { Settings.standard "unix:/s" with readChunkSize := 3 }
      { arriving := [.data (Utf8.encode "abcde"), .endOfStream] } = .ok d ∧
    Event.chunks (c.call .never id .follow).2.log = ["ab", "cd", "e"].map Utf8.encode ∧
    Event.chunks (d.call .never id .follow).2.log = ["abc", "de"].map Utf8.encode ∧
    (Event.chunks (c.call .never id .follow).2.log).flatten = Utf8.encode "abcde" ∧
    FollowsAlike id c d := by
  let id : Identity := { sender := ⟨"A", by decide⟩, target := ⟨"B", by decide⟩ }
  let c : Client :=
    { settings := { Settings.standard "unix:/s" with readChunkSize := 2 },
      settings_valid := by decide +kernel, session := ⟨.connected, false⟩, answer := [],
      connection := { arriving := [.data (Utf8.encode "abcde"), .endOfStream] } }
  let d : Client :=
    { settings := { Settings.standard "unix:/s" with readChunkSize := 3 },
      settings_valid := by decide +kernel, session := ⟨.connected, false⟩, answer := [],
      connection := { arriving := [.data (Utf8.encode "abcde"), .endOfStream] } }
  have hc := start_eq c.settings_valid c.connection
  have hd := start_eq d.settings_valid d.connection
  obtain ⟨-, -, -, hfollow⟩ := delivers_all_read (.of_start hc)
  obtain ⟨hall, halike⟩ := hfollow rfl id
  refine ⟨id, c, d, hc, hd, ?_, ?_, ?_, ?_⟩
  · decide +kernel
  · decide +kernel
  · exact hall (by decide)
  · exact halike _ d (.of_start hd) rfl rfl rfl rfl

end Client

end FixClient
