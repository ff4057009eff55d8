import FixClient.Proofs.Client.Lifecycle
import FixClient.Proofs.Client.Passage

/-!
# Checking the answer to a Logon changes nothing else

Two clients run over the same connection, and one of them checks the answer to its Logon. They
send and read the same until the check refuses an answer, though the other one may have logged
on while the first still waits: either state allows to send, and a Logon sent again changes
neither. A refused answer ends the first run in front of the chunk that the other run goes on
with.
-/

namespace FixClient

namespace Event

def isLogon : Event → Bool
  | .logon => true
  | .sent _ | .frame _ | .closed => false

/-- What is told apart from acknowledgements. -/
def visible (log : List Event) : List Event := log.filter fun e => !e.isLogon

end Event

/-- The answer to a Logon was refused. -/
def Outcome.Violated {α : Type} (outcome : Outcome α) : Prop :=
  ∃ received, outcome = .failed (.session (.protocolViolation received))

/-- A rule that does not look at acknowledgements. -/
def StopRule.Overlooks (stop : StopRule) : Prop :=
  ∀ log log', Event.visible log = Event.visible log' → stop log = stop log'

theorem Event.chunkCount_visible (log : List Event) :
    chunkCount (visible log) = chunkCount log := by
  unfold chunkCount visible
  rw [List.countP_filter]
  congr
  funext e
  cases e <;> rfl

theorem StopRule.overlooks_afterChunks (n : Nat) : (afterChunks n).Overlooks := by
  intro log log' hvisible
  unfold afterChunks
  rw [← Event.chunkCount_visible log, hvisible, Event.chunkCount_visible]

namespace Client

variable {c d after : Client} {m : Message} {result : Except Error Bytes} {reading : Reading}
  {outcome : Outcome (Option Bytes)}

/-- A client that checks the answer to its Logon beside one that does not. -/
structure Mirrors (c d : Client) : Prop where
  opened : c.Opened
  verifyLogon : c.settings.verifyLogon = true
  settings_eq : d.settings = { c.settings with verifyLogon := false }
  connection_eq : d.connection = c.connection
  session : d.session = c.session ∨ c.session = ⟨.connected, true⟩ ∧ d.session = ⟨.loggedOn, false⟩

namespace Mirrors

theorem opened_right (h : Mirrors c d) : d.Opened := by
  rcases h.session with heq | ⟨-, hloggedOn⟩
  · exact ⟨heq ▸ h.opened.state_ne, heq ▸ h.opened.state_of_pending⟩
  · constructor <;> simp [hloggedOn]

theorem moved (h : Mirrors c d) (connection : Connection) :
    Mirrors { c with connection := connection } { d with connection := connection } :=
  ⟨h.opened.of_session_eq rfl, h.verifyLogon, h.settings_eq, rfl, h.session⟩

theorem canSend_eq (h : Mirrors c d) : d.session.state.canSend = c.session.state.canSend := by
  rcases h.session with heq | ⟨hwaits, hloggedOn⟩
  · rw [heq]
  · rw [hwaits, hloggedOn]
    rfl

theorem session_eq (h : Mirrors c d) (hnot : c.session ≠ ⟨.connected, true⟩) :
    d.session = c.session :=
  h.session.resolve_right fun hboth => hnot hboth.1

/-- A Logon that was sent leaves the sessions as far apart as they were. -/
theorem logonSent (h : Mirrors c d) :
    d.session.logonSent = c.session.logonSent ∨
      c.session.logonSent = ⟨.connected, true⟩ ∧ d.session.logonSent = ⟨.loggedOn, false⟩ := by
  rcases h.session with heq | ⟨hwaits, hloggedOn⟩
  · exact .inl (congrArg Session.logonSent heq)
  · rw [hwaits, hloggedOn]
    exact .inr ⟨rfl, rfl⟩

theorem of_send (h : Mirrors c d) (hsend : c.send m = (result, after)) :
    ∃ after', d.send m = (result, after') ∧ Mirrors after after' := by
  have hsends : c.Sends m result after := Does.sends (.send hsend)
  have hopened : after.Opened := h.opened.of_sends hsends
  cases hsends with
  | refused hcan =>
      have heq : d.session = c.session := by
        apply h.session_eq
        intro hwaits
        rw [hwaits] at hcan
        cases hcan
      have hrefused : d.Sends m _ d := .refused (h.canSend_eq.trans hcan)
      rw [heq] at hrefused
      exact ⟨d, hrefused.eq, h⟩
  | unwritable hcan he =>
      exact ⟨d, (Sends.unwritable (h.canSend_eq.trans hcan) he).eq, h⟩
  | broken hcan he hd =>
      rw [← h.connection_eq] at hd
      exact ⟨_, (Sends.broken (h.canSend_eq.trans hcan) he hd).eq, h.moved _⟩
  | plain hcan he hd hm =>
      rw [← h.connection_eq] at hd
      exact ⟨_, (Sends.plain (h.canSend_eq.trans hcan) he hd hm).eq, h.moved _⟩
  | logon hcan he hd hm =>
      rw [← h.connection_eq] at hd
      refine ⟨_, (Sends.logon (h.canSend_eq.trans hcan) he hd hm).eq, ?_⟩
      exact ⟨hopened, h.verifyLogon, h.settings_eq, rfl, h.logonSent⟩

/-- A chunk that finds the sessions apart is plain for the one that has logged on, and one that
finds both waiting logs the trusting one on. -/
theorem exists_hears_chunk {chunk : Bytes} (h : Mirrors c d)
    (hpending : c.session.logonPending = true) :
    ∃ after', d.Hears (.chunk chunk) (.done (some chunk)) after' ∧
      after'.session = ⟨.loggedOn, false⟩ ∧ after'.settings = d.settings ∧
        after'.connection = d.connection := by
  rcases h.session with heq | ⟨-, hloggedOn⟩
  · have hverify : d.settings.verifyLogon = false := by rw [h.settings_eq]
    exact ⟨_, .trusted (heq ▸ hpending) hverify, rfl, rfl, rfl⟩
  · exact ⟨d, .plain (by rw [hloggedOn]), hloggedOn, rfl, rfl⟩

theorem of_hears (h : Mirrors c d) (hhears : c.Hears reading outcome after) :
    outcome.Violated ∨ ∃ after', d.Hears reading outcome after' ∧ Mirrors after after' := by
  have hopened : after.Opened := h.opened.of_hears hhears
  have htimeout : d.settings.readTimeout = c.settings.readTimeout := by rw [h.settings_eq]
  cases hhears with
  | ended =>
      exact .inr ⟨_, .ended, hopened, h.verifyLogon, h.settings_eq, h.connection_eq, .inl rfl⟩
  | failure => exact .inr ⟨d, .failure, h⟩
  | timeout hdeadline => exact .inr ⟨d, .timeout (htimeout.trans hdeadline), h⟩
  | waiting hnone => exact .inr ⟨d, .waiting (htimeout.trans hnone), h⟩
  | plain hpending =>
      have heq : d.session = c.session := by
        apply h.session_eq
        intro hwaits
        rw [hwaits] at hpending
        cases hpending
      exact .inr ⟨d, .plain (heq ▸ hpending), h⟩
  | trusted _ hverify => exact absurd (h.verifyLogon.symm.trans hverify) (by simp)
  | undecided hpending =>
      -- From here on the sessions are apart, if they were not before.
      obtain ⟨after', hhears', hsession, hsettings, hconnection⟩ := h.exists_hears_chunk hpending
      have hwaits := h.opened.session_of_pending hpending
      exact .inr ⟨after', hhears', hopened, h.verifyLogon, hsettings.trans h.settings_eq,
        hconnection.trans h.connection_eq, .inr ⟨hwaits, hsession⟩⟩
  | accepted hpending =>
      obtain ⟨after', hhears', hsession, hsettings, hconnection⟩ := h.exists_hears_chunk hpending
      exact .inr ⟨after', hhears', hopened, h.verifyLogon, hsettings.trans h.settings_eq,
        hconnection.trans h.connection_eq, .inl hsession⟩
  | refused => exact .inl ⟨_, rfl⟩

theorem afterRead (h : Mirrors c d) : Mirrors c.afterRead d.afterRead := by
  have hsize : d.settings.readChunkSize = c.settings.readChunkSize := by rw [h.settings_eq]
  have hmoved := h.moved (c.connection.read c.settings.readChunkSize).2
  unfold Client.afterRead
  rwa [h.connection_eq, hsize]

theorem of_receive (h : Mirrors c d) (hreceive : c.receive = (outcome, after)) :
    outcome.Violated ∨ ∃ after', d.receive = (outcome, after') ∧ Mirrors after after' := by
  by_cases hclosed : c.session.state = .closed
  · have heq : d.session = c.session := by
      apply h.session_eq
      intro hwaits
      rw [hwaits] at hclosed
      cases hclosed
    rw [receive_of_closed hclosed] at hreceive
    cases hreceive
    exact .inr ⟨d, receive_of_closed (heq ▸ hclosed), h⟩
  · have hopen : d.session.state ≠ .closed := by
      rcases h.session with heq | ⟨-, hloggedOn⟩
      · exact heq ▸ hclosed
      · simp [hloggedOn]
    have hreading : d.nextReading = c.nextReading := by
      rw [nextReading, nextReading, h.connection_eq, h.settings_eq]
    have hhears : c.afterRead.Hears c.nextReading outcome after :=
      Does.hears h.opened (.receive hclosed rfl hreceive)
    rcases h.afterRead.of_hears hhears with hviolation | ⟨after', hhears', hafter⟩
    · exact .inl hviolation
    · refine .inr ⟨after', ?_, hafter⟩
      rw [receive_of_open hopen, hreading]
      exact hhears'.eq h.afterRead.opened_right hopen

end Mirrors

end Client

namespace Progress

variable {around : Surroundings} {stop : StopRule} {id : Identity} {s : Scenario}
  {p q p' q' after : Progress} {step : Step} {ended ended' : Outcome Unit} {n : Nat}

/-- A run that checks the answer to its Logon beside one that does not. -/
structure Mirrors (p q : Progress) : Prop where
  client : p.client.Mirrors q.client
  visible_eq : Event.visible q.log = Event.visible p.log

theorem visible_noteChunk (p : Progress) (after : Client) (chunk : Bytes) :
    Event.visible (p.noteChunk after chunk).log = .frame chunk :: Event.visible p.log := by
  rcases p.log_noteChunk after chunk with hlog | hlog
  · rw [hlog]
    rfl
  · rw [hlog]
    rfl

namespace Mirrors

theorem amid (h : p.Mirrors q) (around : Surroundings) (n : Nat) :
    (p.amid around n).Mirrors (q.amid around n) := by
  refine ⟨?_, h.visible_eq⟩
  unfold Progress.amid
  rw [h.client.connection_eq]
  exact h.client.moved _

/-- Only a refused answer parts the runs. -/
theorem of_takes {outcome : Outcome Bool} (h : p.Mirrors q) (hstop : stop.Overlooks)
    (htakes : p.Takes stop id step outcome after) :
    (outcome.Violated ∧ after.log = p.log ∧
        after.client.connection.written = p.client.connection.written) ∨
      ∃ after', q.Takes stop id step outcome after' ∧ after.Mirrors after' := by
  have hstop' : stop q.log = stop p.log := hstop _ _ h.visible_eq
  have htold : ∀ e, Event.visible (e :: q.log) = Event.visible (e :: p.log) := by
    intro e
    have hvisible := h.visible_eq
    unfold Event.visible at *
    rw [List.filter_cons, List.filter_cons, hvisible]
  cases htakes with
  | stopped hstopped => exact .inr ⟨q, .stopped (hstop'.trans hstopped), h⟩
  | sent hgo hsend =>
      obtain ⟨c, hsend', hclient⟩ := h.client.of_send hsend
      exact .inr ⟨_, .sent (hstop'.trans hgo) hsend', hclient, htold _⟩
  | unsent hgo hsend =>
      obtain ⟨c, hsend', hclient⟩ := h.client.of_send hsend
      exact .inr ⟨_, .unsent (hstop'.trans hgo) hsend', hclient, h.visible_eq⟩
  | heard hgo hreceive =>
      rcases h.client.of_receive hreceive with ⟨_, hviolation⟩ | ⟨c, hreceive', hclient⟩
      · cases hviolation
      · refine .inr ⟨_, .heard (hstop'.trans hgo) hreceive', hclient, ?_⟩
        rw [visible_noteChunk, visible_noteChunk, h.visible_eq]
  | closed hgo hreceive =>
      rcases h.client.of_receive hreceive with ⟨_, hviolation⟩ | ⟨c, hreceive', hclient⟩
      · cases hviolation
      · exact .inr ⟨_, .closed (hstop'.trans hgo) hreceive', hclient, htold _⟩
  | unheard hgo hreceive =>
      rcases h.client.of_receive hreceive with ⟨received, hviolation⟩ | ⟨c, hreceive', hclient⟩
      · cases hviolation
        refine .inl ⟨⟨received, rfl⟩, rfl, ?_⟩
        rw [← Client.written_receive p.client, hreceive]
      · exact .inr ⟨_, .unheard (hstop'.trans hgo) hreceive', hclient, h.visible_eq⟩
  | waiting hgo hreceive =>
      rcases h.client.of_receive hreceive with ⟨_, hviolation⟩ | ⟨c, hreceive', hclient⟩
      · cases hviolation
      · exact .inr ⟨_, .waiting (hstop'.trans hgo) hreceive', hclient, h.visible_eq⟩

theorem of_runs (h : p.Mirrors q) (hstop : stop.Overlooks)
    (hruns : Runs around stop id n s p ended p') :
    (ended.Violated ∧
        ∀ ended' q', Runs around stop id n s q ended' q' →
          Event.visible p'.log <:+ Event.visible q'.log ∧
            p'.client.connection.written <+: q'.client.connection.written) ∨
      ∃ q', Runs around stop id n s q ended q' ∧ p'.Mirrors q' := by
  induction hruns generalizing q with
  | finished hnone => exact .inr ⟨q, .finished hnone, h⟩
  | @last n s rest p p' step outcome hnext hstep hlast =>
      have hamid := h.amid around n
      rcases hamid.of_takes hstop (takes hstep) with
        ⟨⟨received, rfl⟩, hlog, hwritten⟩ | ⟨q', htakes, hmirrors⟩
      · -- The other run goes on from here, and only adds to what it has told and written.
        refine .inl ⟨⟨received, rfl⟩, ?_⟩
        intro ended' q' hruns'
        constructor
        · rw [hlog]
          exact hamid.visible_eq ▸ hruns'.suffix_log.filter _
        · rw [hwritten, ← hamid.client.connection_eq]
          exact (around.written_change n _).symm ▸ hruns'.prefix_written
      · exact .inr ⟨q', .last hnext htakes.eq hlast, hmirrors⟩
  | @next n s rest p after p' step ended hnext hstep _ ih =>
      rcases (h.amid around n).of_takes hstop (takes hstep) with
        ⟨⟨_, hviolation⟩, -⟩ | ⟨after', htakes, hmirrors⟩
      · cases hviolation
      rcases ih hmirrors with ⟨hviolation, hextends⟩ | ⟨q', hruns', hend⟩
      · refine .inl ⟨hviolation, ?_⟩
        intro ended' q' hruns'
        exact hextends ended' q' (hruns'.after_step hnext htakes.eq)
      · exact .inr ⟨q', .next hnext htakes.eq hruns', hend⟩

end Mirrors

/-- What a run that checks the answer to its Logon, and has come to `p`, has to do with a run that
does not, and has come to `q`. -/
structure Observes (ended : Outcome Unit) (p : Progress) (ended' : Outcome Unit) (q : Progress) :
    Prop where
  prefix_events : (Event.visible p.log).reverse <+: (Event.visible q.log).reverse
  prefix_written : p.client.connection.written <+: q.client.connection.written
  eq_of_not_violated : ¬ ended.Violated →
    Event.visible p.log = Event.visible q.log ∧ p.client.connection = q.client.connection ∧
      ended = ended'

theorem Mirrors.observes (h : p.Mirrors q) (hstop : stop.Overlooks)
    (hruns : Runs around stop id n s p ended p') (hruns' : Runs around stop id n s q ended' q') :
    Observes ended p' ended' q' := by
  rcases h.of_runs hstop hruns with ⟨hviolated, hextends⟩ | ⟨q'', hruns'', hend⟩
  · obtain ⟨hevents, hwritten⟩ := hextends ended' q' hruns'
    refine ⟨List.reverse_prefix.mpr hevents, hwritten, ?_⟩
    intro hnot
    exact absurd hviolated hnot
  · obtain ⟨rfl, rfl⟩ := hruns'.unique hruns''
    refine ⟨?_, ?_, ?_⟩
    · exact hend.visible_eq ▸ List.prefix_rfl
    · exact hend.client.connection_eq ▸ List.prefix_rfl
    · intro _
      exact ⟨hend.visible_eq.symm, hend.client.connection_eq.symm, rfl⟩

/-- Checking the answer to a Logon only observes. Beside a run without the check, over the same
connection and whatever happens to it, a run with the check tells the same and writes the same
until it refuses an answer. A run that does not refuse one ends in the same way. -/
theorem check_only_observes {settings : Settings} (hvalid : settings.fault? = none)
    (hstop : stop.Overlooks) (connection : Connection) (id : Identity) (s : Scenario) :
    ∃ c d, Client.start { settings with verifyLogon := true } connection = .ok c ∧
      Client.start { settings with verifyLogon := false } connection = .ok d ∧
      Observes (Progress.run stop id s ⟨c, []⟩).1 (Progress.run stop id s ⟨c, []⟩).2
        (Progress.run stop id s ⟨d, []⟩).1 (Progress.run stop id s ⟨d, []⟩).2 ∧
      ∀ around ended p, Runs around stop id 0 s ⟨c, []⟩ ended p →
        (∀ ended' q, Runs around stop id 0 s ⟨d, []⟩ ended' q → Observes ended p ended' q) ∧
          (¬ ended.Violated → ∃ q, Runs around stop id 0 s ⟨d, []⟩ ended q) := by
  have hchecked : Settings.fault? { settings with verifyLogon := true } = none := hvalid
  have htrusting : Settings.fault? { settings with verifyLogon := false } = none := hvalid
  refine ⟨_, _, Client.start_eq hchecked connection, Client.start_eq htrusting connection, ?_⟩
  generalize hc : (⟨_, hchecked, _, _, _⟩ : Client) = c
  generalize hd : (⟨_, htrusting, _, _, _⟩ : Client) = d
  have hmirrors : Mirrors ⟨c, []⟩ ⟨d, []⟩ := by
    subst hc hd
    exact ⟨⟨⟨by simp, by simp⟩, rfl, rfl, rfl, .inl rfl⟩, rfl⟩
  constructor
  · exact hmirrors.observes hstop (runs_run stop id 0 s _) (runs_run stop id 0 s _)
  · intro around ended p hruns
    constructor
    · intro ended' q hruns'
      exact hmirrors.observes hstop hruns hruns'
    · intro hnot
      rcases hmirrors.of_runs hstop hruns with ⟨hviolated, -⟩ | ⟨q, hruns', -⟩
      · exact absurd hviolated hnot
      · exact ⟨q, hruns'⟩

/-- A Logon that is answered with a Logout. The run with the check ends with the answer, the other
one sends its Logout. -/
theorem check_only_observes_refused :
    ∃ (id : Identity) (s : Scenario) (c d : Client) (p q : Progress) (ended ended' : Outcome Unit),
      Client.start { Settings.standard "unix:/s" with verifyLogon := true }
        { arriving := [.data (Utf8.encode "8=FIX.4.4\x019=5\x0135=5\x01")] } = .ok c ∧
      Client.start { Settings.standard "unix:/s" with verifyLogon := false }
        { arriving := [.data (Utf8.encode "8=FIX.4.4\x019=5\x0135=5\x01")] } = .ok d ∧
      Progress.run (StopRule.afterChunks 3) id s ⟨c, []⟩ = (ended, p) ∧
      Progress.run (StopRule.afterChunks 3) id s ⟨d, []⟩ = (ended', q) ∧
      Observes ended p ended' q ∧
      ended = .failed (.session (.protocolViolation (.ofType .logout))) ∧
      p.log.length = 1 ∧ q.log.length = 4 := by
  let id : Identity := { sender := ⟨"A", by decide⟩, target := ⟨"B", by decide⟩ }
  let s : Scenario :=
    { name := "logout"
      steps := [.send (.logon ⟨"trader", "secret", 5, .noEncryption, true⟩), .receive,
        .send .logout] }
  obtain ⟨c, d, hc, hd, hobserves, -⟩ := check_only_observes
    (show (Settings.standard "unix:/s").fault? = none by decide +kernel)
    (StopRule.overlooks_afterChunks 3)
    { arriving := [.data (Utf8.encode "8=FIX.4.4\x019=5\x0135=5\x01")] } id s
  refine ⟨id, s, c, d, _, _, _, _, hc, hd, rfl, rfl, hobserves, ?_⟩
  cases hc
  cases hd
  decide +kernel

end Progress

end FixClient
