import FixClient.Proofs.Client.AfterFailure
import FixClient.Proofs.Client.LogonObserver

/-!
# What is read and what is handed on

A read takes its bytes off the front of what has arrived, and what it took stays on record. So
the bytes that a client hands on can be counted against those that it has read. Nothing is lost,
changed in order or given twice, with one exception: the chunk in which an answer to a Logon is
refused is read, but neither returned nor told to the observer.
-/

namespace FixClient

namespace Connection

variable {limit : Nat} {arriving left : List Arrival} {reading : Reading}

/-- The bytes that have arrived and are still to be read. -/
def unread (c : Connection) : Bytes := c.arriving.flatMap Arrival.bytes

/-- What a read gives and what it leaves to arrive. -/
inductive Reads (limit : Nat) : List Arrival → Reading → List Arrival → Prop
  | silence : Reads limit [] .silence []
  | ended {rest : List Arrival} :
      Reads limit (.endOfStream :: rest) .endOfStream (.endOfStream :: rest)
  | failure {reason : String} {rest : List Arrival} :
      Reads limit (.failure reason :: rest) (.failure reason) rest
  | empty {rest : List Arrival} : Reads limit (.data [] :: rest) .endOfStream rest
  | whole {bytes : Bytes} {rest : List Arrival} (hne : bytes ≠ []) (hlen : bytes.length ≤ limit) :
      Reads limit (.data bytes :: rest) (.chunk bytes) rest
  | part {chunk more : Bytes} {rest : List Arrival} (hne : chunk ≠ []) (hlen : chunk.length = limit)
      (hmore : more ≠ []) :
      Reads limit (.data (chunk ++ more) :: rest) (.chunk chunk) (.data more :: rest)

theorem next_data_of_lt (hlimit : 0 < limit) {bytes : Bytes} (hlen : limit < bytes.length)
    (rest : List Arrival) : next limit (.data bytes :: rest) =
      (.chunk (bytes.take limit), .data (bytes.drop limit) :: rest) := by
  have hne : bytes.take limit ≠ [] := by
    rw [← List.length_pos_iff, List.length_take]
    omega
  obtain ⟨b, chunk, htake⟩ := List.exists_cons_of_ne_nil hne
  simp only [next, htake, if_neg (Nat.not_le.mpr hlen)]

theorem reads_next (hlimit : 0 < limit) (arriving : List Arrival) :
    Reads limit arriving (next limit arriving).1 (next limit arriving).2 := by
  rcases arriving with _ | ⟨a, rest⟩
  · exact .silence
  cases a with
  | endOfStream => exact .ended
  | failure reason => exact .failure
  | data bytes =>
      by_cases hnil : bytes = []
      · subst hnil
        simp only [next, List.take_nil]
        exact .empty
      · by_cases hlen : bytes.length ≤ limit
        · rw [next_data hnil hlen]
          exact .whole hnil hlen
        · have hlt := Nat.lt_of_not_le hlen
          have hfull : (bytes.take limit).length = limit := List.length_take_of_le (Nat.le_of_lt hlt)
          have hreads : Reads limit (.data (bytes.take limit ++ bytes.drop limit) :: rest)
              (.chunk (bytes.take limit)) (.data (bytes.drop limit) :: rest) :=
            .part (List.length_pos_iff.mp (hfull.symm ▸ hlimit)) hfull (by simpa using hlt)
          rw [List.take_append_drop] at hreads
          rwa [next_data_of_lt hlimit hlt]

namespace Reads

theorem flatMap_bytes (h : Reads limit arriving reading left) :
    arriving.flatMap Arrival.bytes = reading.bytes ++ left.flatMap Arrival.bytes := by
  cases h <;> simp [Arrival.bytes, Reading.bytes]

theorem length_le (h : Reads limit arriving reading left) : reading.bytes.length ≤ limit := by
  cases h with
  | silence | ended | failure | empty => exact Nat.zero_le _
  | whole _ hlen => exact hlen
  | part _ hlen => exact Nat.le_of_eq hlen

end Reads

theorem bytesRead_read (limit : Nat) (c : Connection) :
    (c.read limit).2.bytesRead = c.bytesRead ++ (c.read limit).1.bytes := by
  simp [read, bytesRead]

theorem readings_deliver (frame : Bytes) (c : Connection) :
    (c.deliver frame).2.readings = c.readings := by
  have hwrite : (c.write frame).2.readings = c.readings := by
    unfold write
    split
    · rfl
    · dsimp only
      split <;> rfl
  have hreact : ∀ c : Connection, c.react.readings = c.readings := by
    intro c
    unfold react
    split <;> rfl
  unfold deliver
  split
  · next heq => rwa [heq] at hwrite
  · next heq =>
    rw [heq] at hwrite
    split
    · exact hwrite
    · exact (hreact _).trans hwrite

end Connection

def Outcome.chunk? : Outcome (Option Bytes) → Option Bytes
  | .done chunk? => chunk?
  | .failed _ | .waiting => none

/-- The chunk that a call has returned, if it was a receive. -/
def Answer.chunks : Answer → List Bytes
  | .chunk (some bytes) => [bytes]
  | .chunk none | .done | .frame _ | .failed _ | .waiting => []

/-- Surroundings that leave on record what was read. -/
def Surroundings.KeepsReadings (around : Surroundings) : Prop :=
  ∀ n c, (around.change n c).readings = c.readings

namespace Outcome

variable {α : Type}

theorem not_violated_done (a : α) : ¬ (done a).Violated := by simp [Violated]

theorem not_violated_waiting : ¬ (waiting : Outcome α).Violated := by simp [Violated]

theorem violated_failed_iff {e : Error} :
    (failed e : Outcome α).Violated ↔ ∃ received, e = .session (.protocolViolation received) := by
  simp [Violated]

theorem violated_ended {outcome : Outcome α} : outcome.ended.Violated ↔ outcome.Violated := by
  cases outcome <;> simp [ended, Violated]

end Outcome

namespace Client

section Calls

variable {c after : Client} {m : Message} {result : Except Error Bytes} {reading : Reading}
  {outcome : Outcome (Option Bytes)} {bytes : Bytes}

theorem Sends.readings_eq (h : c.Sends m result after) :
    after.connection.readings = c.connection.readings := by
  cases h with
  | refused | unwritable => rfl
  | @broken frame _ _ _ _ hd | @plain frame _ _ _ hd | @logon frame _ _ _ hd =>
      have hreadings := c.connection.readings_deliver frame
      rwa [hd] at hreadings

/-- A client takes so many bytes off the front of what has arrived, and puts them on record. -/
structure Consumes (c : Client) (bytes : Bytes) (after : Client) : Prop where
  bytesRead_eq : after.connection.bytesRead = c.connection.bytesRead ++ bytes
  unread_eq : c.connection.unread = bytes ++ after.connection.unread
  length_le : bytes.length ≤ c.settings.readChunkSize

theorem consumes_afterRead (c : Client) : c.Consumes c.nextReading.bytes c.afterRead := by
  have hreads := Connection.reads_next (Settings.readChunkSize_pos c.settings_valid)
    c.connection.arriving
  exact ⟨Connection.bytesRead_read _ _, hreads.flatMap_bytes, hreads.length_le⟩

theorem consumes_nil (c : Client) : c.Consumes [] c :=
  ⟨(List.append_nil _).symm, rfl, Nat.zero_le _⟩

theorem Consumes.of_connection_eq {after' : Client} (h : c.Consumes bytes after)
    (heq : after'.connection = after.connection) : c.Consumes bytes after' :=
  ⟨heq ▸ h.bytesRead_eq, heq ▸ h.unread_eq, h.length_le⟩

/-- What was read is what is handed on, unless an answer was refused. -/
theorem Hears.bytes_eq (h : c.Hears reading outcome after) (hok : ¬ outcome.Violated) :
    outcome.chunk?.getD [] = reading.bytes := by
  cases h with
  | refused => exact absurd ⟨_, rfl⟩ hok
  | ended | failure | timeout | waiting | plain | trusted | undecided | accepted => rfl

theorem consumes_of_receive (hc : c.Opened) (h : c.receive = (outcome, after))
    (hok : ¬ outcome.Violated) : c.Consumes (outcome.chunk?.getD []) after := by
  by_cases hclosed : c.session.state = .closed
  · rw [receive_of_closed hclosed] at h
    cases h
    exact c.consumes_nil
  · have hhears : c.afterRead.Hears c.nextReading outcome after :=
      Does.hears hc (.receive hclosed rfl h)
    rw [hhears.bytes_eq hok]
    exact c.consumes_afterRead.of_connection_eq hhears.connection_eq

theorem exists_consumes_of_violation {received : LogonAnswer} (hc : c.Opened)
    (h : c.receive = (.failed (.session (.protocolViolation received)), after)) :
    ∃ chunk, chunk ≠ [] ∧ c.Consumes chunk after ∧
      after.connection.readings = .chunk chunk :: c.connection.readings := by
  have hopen : c.session.state ≠ .closed := state_ne_closed_of_receive h (by simp)
  have hhears := Does.hears hc (.receive hopen rfl h)
  have hconsumes := c.consumes_afterRead.of_connection_eq hhears.connection_eq
  have hreadings : after.connection.readings = c.nextReading :: c.connection.readings := by
    rw [hhears.connection_eq]
    rfl
  have hdoes : c.Does (.heard c.nextReading _) after := .receive hopen rfl h
  generalize c.nextReading = reading at hhears hconsumes hreadings hdoes
  cases hhears with
  | refused => exact ⟨_, hdoes.chunk_ne_nil, hconsumes, hreadings⟩

end Calls

section Record

variable {c c' c'' : Client} {chunks more : List Bytes}

/-- From one client to a later one, exactly these chunks were read, none of them empty or longer
than one read may give. -/
structure HasRead (c : Client) (chunks : List Bytes) (c' : Client) : Prop where
  opened : c'.Opened
  settings_eq : c'.settings = c.settings
  bytesRead_eq : c'.connection.bytesRead = c.connection.bytesRead ++ chunks.flatten
  length_mem : ∀ chunk ∈ chunks, 0 < chunk.length ∧ chunk.length ≤ c.settings.readChunkSize

namespace HasRead

theorem of_readings_eq (hopened : c'.Opened) (hsettings : c'.settings = c.settings)
    (hreadings : c'.connection.readings = c.connection.readings) : HasRead c [] c' := by
  refine ⟨hopened, hsettings, ?_, by simp⟩
  rw [Connection.bytesRead, Connection.bytesRead, hreadings]
  exact (List.append_nil _).symm

theorem trans (h : HasRead c chunks c') (h' : HasRead c' more c'') :
    HasRead c (chunks ++ more) c'' := by
  refine ⟨h'.opened, h'.settings_eq.trans h.settings_eq, ?_, ?_⟩
  · rw [h'.bytesRead_eq, h.bytesRead_eq, List.flatten_append, List.append_assoc]
  · intro chunk hmem
    rcases List.mem_append.mp hmem with hmem | hmem
    · exact h.length_mem chunk hmem
    · exact h.settings_eq ▸ h'.length_mem chunk hmem

theorem of_moved (hc : c.Opened) {connection : Connection}
    (hreadings : connection.readings = c.connection.readings) :
    HasRead c [] { c with connection := connection } :=
  of_readings_eq (hc.of_session_eq rfl) rfl hreadings

theorem of_send {m : Message} {result : Except Error Bytes} (hc : c.Opened)
    (h : c.send m = (result, c')) : HasRead c [] c' := by
  have hdoes : c.Does (.sent m result) c' := .send h
  exact of_readings_eq (hdoes.opened hc) (hdoes.settings_eq hc) hdoes.sends.readings_eq

theorem of_consumes {chunk : Bytes} (hopened : c'.Opened) (hsettings : c'.settings = c.settings)
    (hne : chunk ≠ []) (h : c.Consumes chunk c') : HasRead c [chunk] c' := by
  refine ⟨hopened, hsettings, ?_, ?_⟩
  · rw [h.bytesRead_eq, List.flatten_singleton]
  · intro chunk' hmem
    rw [List.mem_singleton.mp hmem]
    exact ⟨List.length_pos_iff.mpr hne, h.length_le⟩

theorem of_course {acts : List Act} (hc : c.Opened) (h : c.Course acts c') :
    c'.Opened ∧ c'.settings = c.settings := by
  have hhistory : History c (acts ++ []) c' := History.start.of_course h
  exact ⟨hhistory.opened hc, hhistory.settings_eq hc⟩

theorem of_receive {outcome : Outcome (Option Bytes)} (hc : c.Opened)
    (h : c.receive = (outcome, c')) (hok : ¬ outcome.Violated) :
    HasRead c outcome.chunk?.toList c' := by
  have hcourse := Course.of_receive c
  rw [h] at hcourse
  obtain ⟨hopened, hsettings⟩ := of_course hc hcourse
  have hconsumes := consumes_of_receive hc h hok
  rcases outcome with (_ | chunk) | e | _
  · exact ⟨hopened, hsettings, hconsumes.bytesRead_eq, by simp [Outcome.chunk?]⟩
  · exact of_consumes hopened hsettings (Does.of_receive hc h).chunk_ne_nil hconsumes
  · exact ⟨hopened, hsettings, hconsumes.bytesRead_eq, by simp [Outcome.chunk?]⟩
  · exact ⟨hopened, hsettings, hconsumes.bytesRead_eq, by simp [Outcome.chunk?]⟩

/-- A refused answer was read: the chunk that brought it is the last one on record. -/
theorem exists_of_violation {outcome : Outcome (Option Bytes)} (hc : c.Opened)
    (h : c.receive = (outcome, c')) (hviolated : outcome.Violated) :
    ∃ chunk, HasRead c [chunk] c' ∧ c'.connection.readings.head? = some (.chunk chunk) := by
  obtain ⟨received, rfl⟩ := hviolated
  have hcourse := Course.of_receive c
  rw [h] at hcourse
  obtain ⟨hopened, hsettings⟩ := of_course hc hcourse
  obtain ⟨chunk, hne, hconsumes, hreadings⟩ := exists_consumes_of_violation hc h
  exact ⟨chunk, of_consumes hopened hsettings hne hconsumes, by rw [hreadings]; rfl⟩

end HasRead

end Record

end Client

namespace Progress

open Client

variable {around : Surroundings} {stop : StopRule} {id : Identity} {s : Scenario}
  {p q after : Progress} {step : Step} {ended : Outcome Unit} {n : Nat}

theorem Takes.exists_hasRead {outcome : Outcome Bool} (h : p.Takes stop id step outcome after)
    (hp : p.client.Opened) (hok : ¬ outcome.Violated) :
    ∃ chunks, Event.chunks after.log = Event.chunks p.log ++ chunks ∧
      HasRead p.client chunks after.client := by
  cases h with
  | stopped => exact ⟨[], (List.append_nil _).symm, .of_readings_eq hp rfl rfl⟩
  | sent _ hsend => exact ⟨[], Event.chunks_cons _ _, .of_send hp hsend⟩
  | unsent _ hsend => exact ⟨[], (List.append_nil _).symm, .of_send hp hsend⟩
  | heard _ hreceive =>
      have hread := HasRead.of_receive hp hreceive (Outcome.not_violated_done _)
      exact ⟨_, Event.chunks_noteChunk _ _ _, hread⟩
  | closed _ hreceive =>
      have hread := HasRead.of_receive hp hreceive (Outcome.not_violated_done _)
      exact ⟨[], Event.chunks_cons _ _, hread⟩
  | unheard _ hreceive =>
      rw [Outcome.violated_failed_iff] at hok
      have hread := HasRead.of_receive hp hreceive (mt Outcome.violated_failed_iff.mp hok)
      exact ⟨[], (List.append_nil _).symm, hread⟩
  | waiting _ hreceive =>
      have hread := HasRead.of_receive hp hreceive Outcome.not_violated_waiting
      exact ⟨[], (List.append_nil _).symm, hread⟩

theorem Takes.exists_withheld {outcome : Outcome Bool} (h : p.Takes stop id step outcome after)
    (hp : p.client.Opened) (hviolated : outcome.Violated) :
    after.log = p.log ∧ ∃ chunk, HasRead p.client [chunk] after.client ∧
      after.client.connection.readings.head? = some (.chunk chunk) := by
  obtain ⟨received, rfl⟩ := hviolated
  cases h with
  | unsent _ hsend => cases (Does.send hsend).sends
  | unheard _ hreceive => exact ⟨rfl, HasRead.exists_of_violation hp hreceive ⟨received, rfl⟩⟩

/-- A run tells of all chunks that it has read, except for the one in which an answer is refused. -/
theorem Runs.exists_hasRead (h : Runs around stop id n s p ended q)
    (haround : around.KeepsReadings) (hp : p.client.Opened) :
    ∃ chunks, Event.chunks q.log = Event.chunks p.log ++ chunks ∧
      (¬ ended.Violated → HasRead p.client chunks q.client) ∧
      (ended.Violated → ∃ chunk, HasRead p.client (chunks ++ [chunk]) q.client ∧
        q.client.connection.readings.head? = some (.chunk chunk)) := by
  have hamid : ∀ n {p : Progress}, p.client.Opened → HasRead p.client [] (p.amid around n).client :=
    fun n p hp => .of_moved hp (haround n _)
  induction h with
  | finished =>
      refine ⟨[], (List.append_nil _).symm, fun _ => .of_readings_eq hp rfl rfl, ?_⟩
      exact fun hended => absurd hended (Outcome.not_violated_done ())
  | @last n _ _ _ _ _ outcome _ hstep =>
      have hbefore := hamid n hp
      -- Only the last step of a run can find what it refuses.
      by_cases hviolated : outcome.Violated
      · obtain ⟨hlog, chunk, hread, hlast⟩ := (takes hstep).exists_withheld hbefore.opened hviolated
        refine ⟨[], by rw [hlog]; exact (List.append_nil _).symm, ?_, ?_⟩
        · exact fun hok => absurd (Outcome.violated_ended.mpr hviolated) hok
        · exact fun _ => ⟨chunk, hbefore.trans hread, hlast⟩
      · obtain ⟨chunks, hchunks, hread⟩ := (takes hstep).exists_hasRead hbefore.opened hviolated
        refine ⟨chunks, hchunks, fun _ => hbefore.trans hread, ?_⟩
        exact fun hended => absurd (Outcome.violated_ended.mp hended) hviolated
  | @next n _ _ _ _ _ _ _ _ hstep _ ih =>
      have hbefore := hamid n hp
      obtain ⟨chunks, hchunks, hread⟩ :=
        (takes hstep).exists_hasRead hbefore.opened (Outcome.not_violated_done true)
      obtain ⟨more, hmore, hok, hviolated⟩ := ih hread.opened
      have hfront := hbefore.trans hread
      refine ⟨chunks ++ more, ?_, fun hended => hfront.trans (hok hended), fun hended => ?_⟩
      · rw [hmore, hchunks, List.append_assoc]
        rfl
      · obtain ⟨chunk, hlater, hlast⟩ := hviolated hended
        exact ⟨chunk, List.append_assoc _ _ _ ▸ hfront.trans hlater, hlast⟩

end Progress

namespace Client

open Progress

variable {c c' : Client} {settings : Settings}

/-- A client that was started with these settings, at any point of any history. -/
def Reached (settings : Settings) (c : Client) : Prop :=
  ∃ connection c₀ acts, start settings connection = .ok c₀ ∧ History c₀ acts c

theorem Reached.of_start {connection : Connection} (h : start settings connection = .ok c) :
    Reached settings c :=
  ⟨connection, c, [], h, .start⟩

theorem Reached.opened (h : Reached settings c) : c.Opened ∧ c.settings = settings := by
  obtain ⟨connection, c₀, acts, hstart, hhistory⟩ := h
  obtain ⟨hsettings, hsession⟩ := Client.of_start hstart
  have h₀ : c₀.Opened := opened_of_connected hsession
  exact ⟨hhistory.opened h₀, (hhistory.settings_eq h₀).trans hsettings⟩

/-- Calls on a client one after another, with the chunks that they have handed on: those that were
returned and those of which an observer was told. No answer was refused in them. Between two calls
and within a run anything may happen to the connection, except to the record of what was read. -/
inductive Delivers (c : Client) : List Bytes → Client → Prop
  | start : Delivers c [] c
  | sent {chunks : List Bytes} {before after : Client} {m : Message} {result : Except Error Bytes}
      (h : Delivers c chunks before) (hsend : before.send m = (result, after)) :
      Delivers c chunks after
  | received {chunks : List Bytes} {before after : Client} {outcome : Outcome (Option Bytes)}
      (h : Delivers c chunks before) (hreceive : before.receive = (outcome, after))
      (hok : ¬ outcome.Violated) : Delivers c (chunks ++ outcome.chunk?.toList) after
  | ran {chunks : List Bytes} {before : Client} {around : Surroundings} {stop : StopRule}
      {id : Identity} {s : Scenario} {ended : Outcome Unit} {p : Progress}
      (h : Delivers c chunks before) (haround : around.KeepsReadings)
      (hruns : Runs around stop id 0 s ⟨before, []⟩ ended p) (hok : ¬ ended.Violated) :
      Delivers c (chunks ++ Event.chunks p.log) p.client
  | moved {chunks : List Bytes} {before : Client} (h : Delivers c chunks before)
      (connection : Connection) (hreadings : connection.readings = before.connection.readings) :
      Delivers c chunks { before with connection := connection }

theorem Delivers.hasRead {chunks : List Bytes} (h : Delivers c chunks c') (hc : c.Opened) :
    HasRead c chunks c' := by
  induction h with
  | start => exact .of_readings_eq hc rfl rfl
  | @sent chunks _ _ _ _ _ hsend ih =>
      rw [← List.append_nil chunks]
      exact ih.trans (.of_send ih.opened hsend)
  | received _ hreceive hok ih => exact ih.trans (.of_receive ih.opened hreceive hok)
  | ran _ haround hruns hok ih =>
      obtain ⟨chunks, hchunks, hread, -⟩ := hruns.exists_hasRead haround ih.opened
      rw [hchunks]
      exact ih.trans (hread hok)
  | @moved chunks _ _ connection hreadings ih =>
      rw [← List.append_nil chunks]
      exact ih.trans (.of_moved ih.opened hreadings)

/-- All calls that refuse no answer are among these. -/
theorem Delivers.of_call {chunks : List Bytes} {stop : StopRule} {id : Identity} {call : Call}
    {answer : Answer} {p : Progress} (h : Delivers c chunks c')
    (hcall : c'.call stop id call = (answer, p))
    (hok : ∀ received, answer ≠ .failed (.session (.protocolViolation received))) :
    Delivers c (chunks ++ (answer.chunks ++ Event.chunks p.log)) p.client := by
  obtain ⟨acts, hcalls⟩ := exists_calls hcall
  cases hcalls with
  | sent hsend | unsent hsend =>
      have hsame : chunks ++ [] = chunks := List.append_nil chunks
      exact hsame.symm ▸ h.sent hsend
  | @heard outcome _ _ hreceive =>
      have hchunks : (Answer.ofOutcome .chunk outcome).chunks ++ [] = outcome.chunk?.toList := by
        rcases outcome with (_ | _) | _ | _ <;> rfl
      have hviolated : ¬ outcome.Violated := by
        rintro ⟨received, rfl⟩
        exact hok received rfl
      exact hchunks.symm ▸ h.received hreceive hviolated
  | closed hclosed => exact h.received (receive_of_closed hclosed) (Outcome.not_violated_done none)
  | @ran _ _ _ ended _ _ hacts =>
      have hchunks : (Answer.ofOutcome (fun _ => .done) ended).chunks = [] := by
        cases ended <;> rfl
      have hviolated : ¬ ended.Violated := by
        rintro ⟨received, rfl⟩
        exact hok received rfl
      rw [hchunks]
      exact h.ran (fun _ _ => rfl) (hacts.runs 0) hviolated

/-- A run in which an answer to a Logon is refused, whatever happens to the connection meanwhile.
It has told of all chunks that it has read except for the last one, in which it found what it
refused. So something is always missing from what it has told. -/
theorem run_withholds_refused (h : Reached settings c) (stop : StopRule) (id : Identity)
    (s : Scenario) :
    Runs .still stop id 0 s ⟨c, []⟩ (Progress.run stop id s ⟨c, []⟩).1
        (Progress.run stop id s ⟨c, []⟩).2 ∧
      ∀ around ended q, around.KeepsReadings → Runs around stop id 0 s ⟨c, []⟩ ended q →
        ended.Violated → ∃ chunk, chunk ≠ [] ∧ chunk.length ≤ settings.readChunkSize ∧
          q.client.connection.readings.head? = some (.chunk chunk) ∧
            q.client.connection.bytesRead =
              c.connection.bytesRead ++ (Event.chunks q.log).flatten ++ chunk := by
  obtain ⟨hc, hsettings⟩ := h.opened
  refine ⟨runs_run stop id 0 s ⟨c, []⟩, ?_⟩
  intro around ended q haround hruns hviolated
  obtain ⟨chunks, hchunks, -, hrefused⟩ := hruns.exists_hasRead haround hc
  obtain ⟨chunk, hread, hlast⟩ := hrefused hviolated
  have hsize := hread.length_mem chunk (List.mem_append_right _ List.mem_cons_self)
  rw [hsettings] at hsize
  refine ⟨chunk, List.length_pos_iff.mp hsize.1, hsize.2, hlast, ?_⟩
  have htold : Event.chunks q.log = chunks := hchunks
  rw [hread.bytesRead_eq, htold, List.flatten_append, List.flatten_singleton, List.append_assoc]

/-- A Logout in answer to a Logon, in two parts. Only the first of them is told of. -/
theorem run_withholds_refused_second : ∃ (id : Identity) (s : Scenario) (c : Client)
    (ended : Outcome Unit) (q : Progress) (chunk : Bytes),
    start { Settings.standard "unix:/s" with verifyLogon := true }
      { arriving := [.data (Utf8.encode "8=FIX.4.4\x019=5\x013"),
          .data (Utf8.encode "5=5\x01")] } = .ok c ∧
      Progress.run .never id s ⟨c, []⟩ = (ended, q) ∧ ended.Violated ∧
      Event.chunks q.log = [Utf8.encode "8=FIX.4.4\x019=5\x013"] ∧
      chunk = Utf8.encode "5=5\x01" ∧
      q.client.connection.bytesRead = c.connection.bytesRead ++ (Event.chunks q.log).flatten ++ chunk := by
  let id : Identity := { sender := ⟨"A", by decide⟩, target := ⟨"B", by decide⟩ }
  let s : Scenario :=
    { name := "logon"
      steps := [.send (.logon ⟨"trader", "secret", 5, .noEncryption, true⟩), .receive]
      follows := true }
  let c : Client :=
    { settings := { Settings.standard "unix:/s" with verifyLogon := true }
      settings_valid := by decide +kernel
      session := ⟨.connected, false⟩
      answer := []
      connection :=
        { arriving := [.data (Utf8.encode "8=FIX.4.4\x019=5\x013"),
            .data (Utf8.encode "5=5\x01")] } }
  have hstart : start { Settings.standard "unix:/s" with verifyLogon := true } c.connection = .ok c :=
    start_eq c.settings_valid c.connection
  obtain ⟨hruns, hwithholds⟩ := run_withholds_refused (.of_start hstart) .never id s
  have hended : (Progress.run .never id s ⟨c, []⟩).1 =
      .failed (.session (.protocolViolation (.ofType .logout))) := by
    decide +kernel
  obtain ⟨chunk, -, -, hlast, hread⟩ :=
    hwithholds .still _ _ (fun _ _ => rfl) hruns ⟨_, hended⟩
  refine ⟨id, s, c, _, _, chunk, hstart, rfl, ⟨_, hended⟩, by decide +kernel, ?_, hread⟩
  have hlast' : (Progress.run .never id s ⟨c, []⟩).2.client.connection.readings.head? =
      some (.chunk (Utf8.encode "5=5\x01")) := by
    decide +kernel
  rw [hlast] at hlast'
  exact Reading.chunk.inj (Option.some.inj hlast')

/-- A Logout in answer to a Logon is read, and no chunk is told of. -/
theorem exists_run_not_told : ∃ (id : Identity) (s : Scenario) (c : Client),
    start { Settings.standard "unix:/s" with verifyLogon := true }
      { arriving := [.data (Utf8.encode "8=FIX.4.4\x019=5\x0135=5\x01")] } = .ok c ∧
      (Progress.run .never id s ⟨c, []⟩).1.Violated ∧
      (Event.chunks (Progress.run .never id s ⟨c, []⟩).2.log).flatten ≠
        (Progress.run .never id s ⟨c, []⟩).2.client.connection.bytesRead := by
  let id : Identity := { sender := ⟨"A", by decide⟩, target := ⟨"B", by decide⟩ }
  let s : Scenario :=
    { name := "logon"
      steps := [.send (.logon ⟨"trader", "secret", 5, .noEncryption, true⟩), .receive]
      follows := true }
  let c : Client :=
    { settings := { Settings.standard "unix:/s" with verifyLogon := true }
      settings_valid := by decide +kernel
      session := ⟨.connected, false⟩
      answer := []
      connection := { arriving := [.data (Utf8.encode "8=FIX.4.4\x019=5\x0135=5\x01")] } }
  refine ⟨id, s, c, rfl, ⟨.ofType .logout, by decide +kernel⟩, by decide +kernel⟩

end Client

end FixClient
