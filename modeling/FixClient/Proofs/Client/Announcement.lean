import FixClient.Proofs.Client.Lifecycle
import FixClient.Proofs.Client.Passage

/-!
# Announcing the acknowledgement

Observers are told that the Logon has been acknowledged by the read that logs the session on, just
before they are told of the chunk. Whether a read does that is decided from the pending Logon
before it and the state after it. A Logon is pending only while the session is connected, and a
session never comes back to that state, so no life of a client holds two such announcements,
whichever of its sends and reads are observed.
-/

namespace FixClient

namespace Event

/-- At most one acknowledgement is told of, and a chunk is told of right after it. The events come
latest first. -/
structure AnnouncesOnce (log : List Event) : Prop where
  count_le : log.count .logon ≤ 1
  followed : ∀ later earlier, log = later ++ .logon :: earlier →
    ∃ more chunk, later = more ++ [.frame chunk]

namespace AnnouncesOnce

variable {log told : List Event}

theorem of_notMem (h : .logon ∉ log) : AnnouncesOnce log := by
  constructor
  · rw [List.count_eq_zero_of_not_mem h]
    exact Nat.zero_le 1
  · rintro later earlier rfl
    exact absurd (List.mem_append_right _ List.mem_cons_self) h

theorem cons {e : Event} (h : AnnouncesOnce log) (he : e ≠ .logon) : AnnouncesOnce (e :: log) := by
  constructor
  · rw [List.count_cons_of_ne he]
    exact h.count_le
  · intro later earlier hlog
    rcases List.append_eq_cons_iff.mp hlog.symm with ⟨-, hhead⟩ | ⟨later, rfl, hrest⟩
    · exact absurd (List.cons.inj hhead).1.symm he
    · obtain ⟨more, chunk, rfl⟩ := h.followed later earlier hrest
      exact ⟨e :: more, chunk, rfl⟩

theorem append (h : AnnouncesOnce log) (htold : .logon ∉ told) : AnnouncesOnce (told ++ log) := by
  induction told with
  | nil => exact h
  | cons e told ih =>
      rw [List.mem_cons, not_or] at htold
      exact (ih htold.2).cons (Ne.symm htold.1)

theorem announce (h : .logon ∉ log) (chunk : Bytes) :
    AnnouncesOnce (.frame chunk :: .logon :: log) := by
  constructor
  · rw [List.count_cons_of_ne (by simp), List.count_cons_self, List.count_eq_zero_of_not_mem h]
  · intro later earlier hlog
    rcases List.append_eq_cons_iff.mp hlog.symm with ⟨-, hhead⟩ | ⟨later, rfl, hrest⟩
    · cases hhead
    rcases List.append_eq_cons_iff.mp hrest.symm with ⟨rfl, -⟩ | ⟨later, rfl, hrest'⟩
    · exact ⟨[], chunk, rfl⟩
    · rw [hrest'] at h
      exact absurd (List.mem_append_right _ List.mem_cons_self) h

end AnnouncesOnce

end Event

namespace Client

variable {c after : Client} {outcome : Outcome (Option Bytes)}

theorem receive_acknowledged (hc : c.Opened) (h : c.receive = (outcome, after))
    (hbefore : c.session.state = .connected) (hafter : after.session.state = .loggedOn) :
    ∃ chunk, outcome = .done (some chunk) ∧ c.session.logonPending = true := by
  have hopen : c.session.state ≠ .closed := by simp [hbefore]
  have hdoes : c.Does (.heard c.nextReading outcome) after := .receive hopen rfl h
  obtain ⟨chunk, hact, hpending, -⟩ := hdoes.acknowledged hc (by simp [hbefore]) hafter
  exact ⟨chunk, (Act.heard.inj hact).2, hpending⟩

/-- No state precedes the connected one in an opened client. -/
theorem Opened.state_eq_connected (hc : c.Opened)
    (hrank : c.session.state.rank ≤ SessionState.connected.rank) :
    c.session.state = .connected := by
  have hne := hc.state_ne
  cases hstate : c.session.state with
  | disconnected => exact absurd hstate hne
  | connected => rfl
  | loggedOn | closed =>
      rw [hstate] at hrank
      exact absurd hrank (by decide)

end Client

namespace Progress

open Client

variable {around : Surroundings} {stop : StopRule} {id : Identity} {s rest : Scenario}
  {p₀ p q after : Progress} {step : Step} {outcome : Outcome Bool} {ended : Outcome Unit}
  {log told : List Event} {n : Nat}

/-- What a step tells, and what this says of the acknowledgement. -/
structure Announces (step : Step) (p after : Progress) (told : List Event) : Prop where
  log_eq : after.log = told ++ p.log
  logon_mem_iff : .logon ∈ told ↔
    p.client.session.state = .connected ∧ after.client.session.state = .loggedOn
  of_logon : .logon ∈ told → ∃ chunk, step = .receive ∧
    p.client.receive = (.done (some chunk), after.client) ∧ told = [.frame chunk, .logon]

theorem Announces.quiet (hlog : after.log = told ++ p.log) (htold : .logon ∉ told)
    (h : p.client.session.state = .connected → after.client.session.state ≠ .loggedOn) :
    Announces step p after told := by
  refine ⟨hlog, ?_, fun hmem => absurd hmem htold⟩
  constructor
  · exact fun hmem => absurd hmem htold
  · exact fun hboth => absurd hboth.2 (h hboth.1)

theorem announces_noteChunk {chunk : Bytes} {c : Client} (hp : p.client.Opened)
    (h : p.client.receive = (.done (some chunk), c)) :
    ∃ told, Announces .receive p (p.noteChunk c chunk) told := by
  by_cases hlogsOn : p.client.session.logonPending = true ∧ c.session.state = .loggedOn
  · obtain ⟨hpending, hloggedOn⟩ := hlogsOn
    refine ⟨[.frame chunk, .logon], by simp [noteChunk, hpending, hloggedOn], ?_, ?_⟩
    · exact ⟨fun _ => ⟨hp.state_of_pending hpending, hloggedOn⟩, fun _ => by simp⟩
    · exact fun _ => ⟨chunk, rfl, h, rfl⟩
  · refine ⟨[.frame chunk], .quiet ?_ (by simp) ?_⟩
    · simp [noteChunk, hlogsOn]
    · intro hbefore hafter
      obtain ⟨-, -, hpending⟩ := receive_acknowledged hp h hbefore hafter
      exact hlogsOn ⟨hpending, hafter⟩

theorem Takes.exists_announces (h : p.Takes stop id step outcome after) (hp : p.client.Opened) :
    ∃ told, Announces step p after told := by
  have hstill : p.client.session.state = .connected → p.client.session.state ≠ .loggedOn := by
    intro hbefore
    simp [hbefore]
  cases h with
  | stopped => exact ⟨[], .quiet rfl (by simp) hstill⟩
  | @sent _ frame _ _ hsend =>
      have hstate := (Does.sends (.send hsend)).state_eq
      exact ⟨[.sent frame], .quiet rfl (by simp) (by rwa [hstate])⟩
  | unsent _ hsend =>
      have hstate := (Does.sends (.send hsend)).state_eq
      exact ⟨[], .quiet rfl (by simp) (by rwa [hstate])⟩
  | heard _ hreceive => exact announces_noteChunk hp hreceive
  | closed _ hreceive =>
      refine ⟨[.closed], .quiet rfl (by simp) ?_⟩
      intro hbefore hafter
      obtain ⟨_, houtcome, -⟩ := receive_acknowledged hp hreceive hbefore hafter
      cases houtcome
  | unheard _ hreceive | waiting _ hreceive =>
      refine ⟨[], .quiet rfl (by simp) ?_⟩
      intro hbefore hafter
      obtain ⟨_, houtcome, -⟩ := receive_acknowledged hp hreceive hbefore hafter
      cases houtcome

/-- What was told in the life of a client by some point, and the client at this point. -/
structure Announced (log : List Event) (c : Client) : Prop where
  opened : c.Opened
  once : Event.AnnouncesOnce log
  logon_notMem : c.session.state = .connected → .logon ∉ log

namespace Announced

theorem of_announces (h : Announced (p.log ++ log) p.client)
    (htells : Announces step p after told) (hafter : after.client.Opened)
    (hrank : p.client.session.state.rank ≤ after.client.session.state.rank) :
    Announced (after.log ++ log) after.client := by
  rw [htells.log_eq, List.append_assoc]
  refine ⟨hafter, ?_, ?_⟩
  · by_cases hmem : .logon ∈ told
    · obtain ⟨chunk, -, -, rfl⟩ := htells.of_logon hmem
      exact .announce (h.logon_notMem (htells.logon_mem_iff.mp hmem).1) chunk
    · exact h.once.append hmem
  · intro hconnected
    have hbefore := h.opened.state_eq_connected (hconnected ▸ hrank)
    rw [List.mem_append, not_or]
    refine ⟨?_, h.logon_notMem hbefore⟩
    intro hmem
    rw [(htells.logon_mem_iff.mp hmem).2] at hconnected
    cases hconnected

theorem of_takes (h : Announced (p.log ++ log) p.client)
    (htakes : p.Takes stop id step outcome after) :
    Announced (after.log ++ log) after.client := by
  obtain ⟨told, htold⟩ := htakes.exists_announces h.opened
  have hhistory : History p.client _ after.client := History.start.of_course htakes.course
  exact h.of_announces htold (hhistory.opened h.opened) (hhistory.rank_le h.opened)

theorem moved {c : Client} (h : Announced log c) (connection : Connection) :
    Announced log { c with connection := connection } :=
  ⟨h.opened.of_session_eq rfl, h.once, h.logon_notMem⟩

theorem of_step (h : Announced (p.log ++ log) p.client)
    (hstep : (p.amid around n).step stop id step = (outcome, after)) :
    Announced (after.log ++ log) after.client :=
  of_takes (h.moved (around.change n p.client.connection)) (takes hstep)

theorem of_passes (h : Announced (p₀.log ++ log) p₀.client)
    (hpasses : Passes around stop id s p₀ n rest p) : Announced (p.log ++ log) p.client := by
  induction hpasses with
  | start => exact h
  | next _ _ hstep ih => exact ih.of_step hstep

theorem of_runs (h : Announced (p.log ++ log) p.client)
    (hruns : Runs around stop id n s p ended q) : Announced (q.log ++ log) q.client := by
  induction hruns with
  | finished => exact h
  | last _ hstep => exact h.of_step hstep
  | next _ hstep _ ih => exact ih (h.of_step hstep)

theorem of_does {c after : Client} {a : Act} (h : Announced log c) (hdoes : c.Does a after) :
    Announced log after := by
  refine ⟨hdoes.opened h.opened, h.once, ?_⟩
  intro hconnected
  apply h.logon_notMem
  apply h.opened.state_eq_connected
  exact hconnected ▸ hdoes.rank_le h.opened

end Announced

end Progress

namespace Client

open Progress

variable {c₀ c : Client} {log : List Event}

/-- Calls on a client one after another, with all that observers were told in them, the latest
first. Between two calls and within a run anything may happen to the connection. -/
inductive Life (c₀ : Client) : List Event → Client → Prop
  | start : Life c₀ [] c₀
  /-- A send or a receive, of which no observer is told. -/
  | asked {log : List Event} {c after : Client} {a : Act} (h : Life c₀ log c)
      (hdoes : c.Does a after) : Life c₀ log after
  | ran {log : List Event} {c : Client} {around : Surroundings} {stop : StopRule} {id : Identity}
      {s : Scenario} {ended : Outcome Unit} {q : Progress} (h : Life c₀ log c)
      (hruns : Runs around stop id 0 s ⟨c, []⟩ ended q) : Life c₀ (q.log ++ log) q.client
  | moved {log : List Event} {c : Client} (h : Life c₀ log c) (connection : Connection) :
      Life c₀ log { c with connection := connection }

namespace Life

theorem announced (h : Life c₀ log c) (h₀ : c₀.Opened) : Announced log c := by
  induction h with
  | start => exact ⟨h₀, .of_notMem (by simp), by simp⟩
  | asked _ hdoes ih => exact ih.of_does hdoes
  | ran _ hruns ih => exact Announced.of_runs (p := ⟨_, []⟩) ih hruns
  | moved _ connection ih => exact ih.moved connection

theorem call (h : Life c₀ log c) (stop : StopRule) (id : Identity) (call : Call) :
    Life c₀ ((c.call stop id call).2.log ++ log) (c.call stop id call).2.client := by
  rcases hcall : c.call stop id call with ⟨answer, p⟩
  obtain ⟨acts, hcalls⟩ := exists_calls hcall
  cases hcalls with
  | sent hsend | unsent hsend => exact h.asked (.send hsend)
  | heard hopen hreceive => exact h.asked (.receive hopen rfl hreceive)
  | closed => exact h
  | ran _ hacts => exact h.ran (hacts.runs 0)

theorem perform {s : Stage} (h : Life c₀ s.log s.client) (observer : StopRule) (id : Identity)
    (m : Move) :
    Life c₀ (s.perform observer id m).2.log (s.perform observer id m).2.client := by
  cases m with
  | call call => exact h.call (s.stopRule observer) id call
  | arrive | breakWrites | stallWrites | breakFlush | mend => exact h.moved _
  | cancel => exact h

theorem play {s : Stage} (h : Life c₀ s.log s.client) (observer : StopRule) (id : Identity)
    (moves : List Move) :
    Life c₀ (s.play observer id moves).2.log (s.play observer id moves).2.client := by
  induction moves generalizing s with
  | nil => exact h
  | cons m moves ih => exact ih (h.perform observer id m)

end Life

/-- Whatever calls a client has behind it, and however its stream has behaved, one acknowledgement
is told of at most, with a chunk right after it. This holds at every point of every run from there,
be the run endless. A step of a run tells of the acknowledgement exactly if it logs the session on.
It is then a read, and the chunk told of is the one that it has given. Where nothing happens around
the client, the points are those that a call to run or to follow passes. -/
theorem logon_announced_once {settings : Settings} {connection : Connection}
    (hstart : start settings connection = .ok c₀) (h : Life c₀ log c) :
    (∀ (observer : StopRule) (id : Identity) (moves : List Move) (cancelled : Bool),
      Life c₀ (Stage.play observer id moves ⟨c, cancelled, log⟩).2.log
        (Stage.play observer id moves ⟨c, cancelled, log⟩).2.client) ∧
    Event.AnnouncesOnce log ∧
    (∀ stop id s n rest p, Passes .still stop id s ⟨c, []⟩ n rest p →
      p.run stop id rest = Progress.run stop id s ⟨c, []⟩ ∧
        ∀ call, call.scenario? = some s → c.call stop id call =
          (.ofOutcome (fun _ => .done) (p.run stop id rest).1, (p.run stop id rest).2)) ∧
    ∀ around stop id s n rest p, Passes around stop id s ⟨c, []⟩ n rest p →
      ∀ step outcome after, (p.amid around n).step stop id step = (outcome, after) →
        Event.AnnouncesOnce (after.log ++ log) ∧
          ∃ told, Announces step (p.amid around n) after told := by
  obtain ⟨-, hsession⟩ := of_start hstart
  have hannounced : Announced log c := h.announced (opened_of_connected hsession)
  refine ⟨?_, hannounced.once, ?_, ?_⟩
  · intro observer id moves cancelled
    exact Life.play (s := ⟨c, cancelled, log⟩) h observer id moves
  · intro stop id s n rest p hpasses
    refine ⟨hpasses.run_eq, ?_⟩
    intro call hcall
    rw [hpasses.run_eq, call_of_scenario? hcall]
  · intro around stop id s n rest p hpasses step outcome after hstep
    have hbegin : Announced ((⟨c, []⟩ : Progress).log ++ log) c := hannounced
    have hp : Announced (p.log ++ log) p.client := hbegin.of_passes hpasses
    have hopened : (p.amid around n).client.Opened := (hp.moved _).opened
    exact ⟨(hp.of_step hstep).once, (takes hstep).exists_announces hopened⟩

/-- A Logon that is acknowledged by the first of two reads. -/
theorem logon_announced_once_read : ∃ (c₀ c : Client) (log : List Event),
    start (Settings.standard "unix:/s") { arriving := [.data [0x41], .data [0x42]] } = .ok c₀ ∧
      Life c₀ log c ∧ log = [.frame [0x42], .frame [0x41], .logon] ∧
        Event.AnnouncesOnce log := by
  let c₀ : Client :=
    { settings := Settings.standard "unix:/s"
      settings_valid := by decide +kernel
      session := ⟨.connected, false⟩
      answer := []
      connection := { arriving := [.data [0x41], .data [0x42]] } }
  have hstart : start (Settings.standard "unix:/s")
      { arriving := [.data [0x41], .data [0x42]] } = .ok c₀ := rfl
  obtain ⟨hplay, -, -, -⟩ := logon_announced_once hstart .start
  have hlife := hplay StopRule.never { sender := ⟨"A", by decide⟩, target := ⟨"B", by decide⟩ }
    [.call (.send ⟨[⟨.beginString, .text "FIX.4.4"⟩, ⟨.msgType, .text "A"⟩]⟩),
      .call (.run { name := "", steps := [.receive, .receive] })] false
  obtain ⟨-, honce, -, -⟩ := logon_announced_once hstart hlife
  exact ⟨c₀, _, _, hstart, hlife, by decide +kernel, honce⟩

end Client

end FixClient
