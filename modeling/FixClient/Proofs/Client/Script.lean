import FixClient.Proofs.Client.Passage

/-!
# The acts of scripts

What a client does in a script can be read off the moves and their turns. A send is one act, and so
is a receive, except on a closed client. A run is a row of acts, one for each step that it takes.
Everything else that happens in a script is no act of the client. So a script takes every history
on, from whatever point it starts.
-/

namespace FixClient

namespace Progress

open Client

variable {stop : StopRule} {id : Identity} {s rest : Scenario} {p q after : Progress} {step : Step}
  {outcome : Outcome Bool} {ended : Outcome Unit} {acts : List Act} {n : Nat}

/-- The acts of a step. There are none once the run is to stop. -/
def stepActs (stop : StopRule) (id : Identity) (step : Step) (p : Progress) : List Act :=
  if stop p.log then []
  else
    match step with
    | .send r => [.sent (r.build id) (p.client.send (r.build id)).1]
    | .receive => p.client.receiveActs

theorem stepActs_of_stopped (h : stop p.log = true) : p.stepActs stop id step = [] := if_pos h

theorem stepActs_send {r : Request} (h : stop p.log = false) :
    p.stepActs stop id (.send r) = [.sent (r.build id) (p.client.send (r.build id)).1] := by
  simp [stepActs, h]

theorem stepActs_receive (h : stop p.log = false) :
    p.stepActs stop id .receive = p.client.receiveActs := by
  simp [stepActs, h]

theorem Takes.course (h : p.Takes stop id step outcome after) :
    p.client.Course (p.stepActs stop id step) after.client := by
  cases h with
  | stopped hstop =>
      rw [stepActs_of_stopped hstop]
      exact .start
  | sent hstop hsend | unsent hstop hsend =>
      rw [stepActs_send hstop, hsend]
      exact Course.start.next (.send hsend)
  | heard hstop hreceive | closed hstop hreceive | unheard hstop hreceive
  | waiting hstop hreceive =>
      have hcourse := Course.of_receive p.client
      rw [hreceive] at hcourse
      rw [stepActs_receive hstop]
      exact hcourse

/-- A run with its acts, the latest first. -/
inductive Enacts (stop : StopRule) (id : Identity) :
    Scenario → Progress → List Act → Outcome Unit → Progress → Prop
  | finished {s : Scenario} {p : Progress} (hnext : s.next? = none) :
      Enacts stop id s p [] (.done ()) p
  | last {s rest : Scenario} {p after : Progress} {step : Step} {outcome : Outcome Bool}
      (hnext : s.next? = some (step, rest)) (hstep : p.step stop id step = (outcome, after))
      (hlast : outcome ≠ .done true) :
      Enacts stop id s p (p.stepActs stop id step) outcome.ended after
  | next {s rest : Scenario} {p after ending : Progress} {step : Step} {acts : List Act}
      {ended : Outcome Unit} (hnext : s.next? = some (step, rest))
      (hstep : p.step stop id step = (.done true, after))
      (h : Enacts stop id rest after acts ended ending) :
      Enacts stop id s p (acts ++ p.stepActs stop id step) ended ending

theorem Enacts.runs (h : Enacts stop id s p acts ended q) (n : Nat) :
    Runs .still stop id n s p ended q := by
  induction h generalizing n with
  | finished hnext => exact .finished hnext
  | last hnext hstep hlast => exact .last hnext hstep hlast
  | next hnext hstep _ ih => exact .next hnext hstep (ih (n + 1))

theorem Enacts.course (h : Enacts stop id s p acts ended q) : p.client.Course acts q.client := by
  induction h with
  | finished => exact .start
  | last _ hstep => exact (takes hstep).course
  | next _ hstep _ ih => exact (takes hstep).course.append ih

theorem Runs.exists_enacts (h : Runs .still stop id n s p ended q) :
    ∃ acts, Enacts stop id s p acts ended q := by
  induction h with
  | finished hnext => exact ⟨_, .finished hnext⟩
  | last hnext hstep hlast => exact ⟨_, .last hnext hstep hlast⟩
  | next hnext hstep _ ih =>
      obtain ⟨acts, hacts⟩ := ih
      exact ⟨_, .next hnext hstep hacts⟩

end Progress

namespace Client

variable {c₀ c : Client} {stop : StopRule} {id : Identity} {call : Call} {acts : List Act}
  {answer : Answer} {p : Progress}

/-- What a call comes to, and the acts that it takes. -/
inductive Calls (stop : StopRule) (id : Identity) (c : Client) :
    Call → List Act → Answer → Progress → Prop
  | sent {m : Message} {frame : Bytes} {after : Client} (hsend : c.send m = (.ok frame, after)) :
      Calls stop id c (.send m) [.sent m (.ok frame)] (.frame frame) ⟨after, []⟩
  | unsent {m : Message} {e : Error} {after : Client} (hsend : c.send m = (.error e, after)) :
      Calls stop id c (.send m) [.sent m (.error e)] (.failed e) ⟨after, []⟩
  | heard {outcome : Outcome (Option Bytes)} {after : Client} (hopen : c.session.state ≠ .closed)
      (hreceive : c.receive = (outcome, after)) :
      Calls stop id c .receive [.heard c.nextReading outcome] (.ofOutcome .chunk outcome)
        ⟨after, []⟩
  | closed (hclosed : c.session.state = .closed) : Calls stop id c .receive [] (.chunk none) ⟨c, []⟩
  | ran {call : Call} {s : Scenario} {acts : List Act} {ended : Outcome Unit} {q : Progress}
      (hscenario : call.scenario? = some s)
      (hacts : Progress.Enacts stop id s ⟨c, []⟩ acts ended q) :
      Calls stop id c call acts (.ofOutcome (fun _ => .done) ended) q

theorem exists_calls_of_scenario? {s : Scenario} (h : call.scenario? = some s) (stop : StopRule)
    (id : Identity) (c : Client) :
    ∃ acts, c.Calls stop id call acts (c.call stop id call).1 (c.call stop id call).2 := by
  obtain ⟨acts, hacts⟩ := (Progress.runs_run stop id 0 s ⟨c, []⟩).exists_enacts
  rw [call_of_scenario? h]
  exact ⟨acts, .ran h hacts⟩

theorem exists_calls (h : c.call stop id call = (answer, p)) :
    ∃ acts, c.Calls stop id call acts answer p := by
  obtain ⟨rfl, rfl⟩ := Prod.mk.inj h
  cases call with
  | send m =>
      rcases hsend : c.send m with ⟨e | frame, after⟩
      · simp only [hsend]
        exact ⟨_, .unsent hsend⟩
      · simp only [hsend]
        exact ⟨_, .sent hsend⟩
  | receive =>
      by_cases hclosed : c.session.state = .closed
      · simp only [receive_of_closed hclosed]
        exact ⟨_, .closed hclosed⟩
      · exact ⟨_, .heard hclosed rfl⟩
  | follow => exact exists_calls_of_scenario? rfl stop id c
  | run s => exact exists_calls_of_scenario? rfl stop id c

theorem Calls.course (h : c.Calls stop id call acts answer p) : c.Course acts p.client := by
  cases h with
  | sent hsend | unsent hsend => exact Course.start.next (.send hsend)
  | heard hopen hreceive => exact Course.start.next (.receive hopen rfl hreceive)
  | closed => exact .start
  | ran _ hacts => exact hacts.course

end Client

namespace Stage

open Client

variable {c₀ : Client} {observer : StopRule} {id : Identity} {s last : Stage} {moves : List Move}
  {turns : List Turn} {acts later : List Act} {m : Move}

/-- A script with its turns and its acts, the latest act first. -/
inductive Plays (observer : StopRule) (id : Identity) :
    Stage → List Move → List Turn → List Act → Stage → Prop
  | finished {s : Stage} : Plays observer id s [] [] [] s
  | called {s last : Stage} {call : Call} {answer : Answer} {p : Progress} {moves : List Move}
      {turns : List Turn} {acts later : List Act}
      (hcall : s.client.Calls (s.stopRule observer) id call acts answer p)
      (h : Plays observer id { s with client := p.client, log := p.log ++ s.log } moves turns later
        last) :
      Plays observer id s (.call call :: moves)
        (⟨answer, p.client.session.state, p.log.reverse⟩ :: turns) (later ++ acts) last
  /-- Something happens around the client, or its runs are told to stop. -/
  | befell {s last : Stage} {m : Move} {moves : List Move} {turns : List Turn} {later : List Act}
      (hm : ∀ call, m ≠ .call call)
      (h : Plays observer id (s.perform observer id m).2 moves turns later last) :
      Plays observer id s (m :: moves) (⟨.done, s.client.session.state, []⟩ :: turns) later last

theorem exists_plays (observer : StopRule) (id : Identity) (moves : List Move) (s : Stage) :
    ∃ acts, s.Plays observer id moves (s.play observer id moves).1 acts
      (s.play observer id moves).2 := by
  induction moves generalizing s with
  | nil => exact ⟨_, .finished⟩
  | cons m moves ih =>
      obtain ⟨later, hlater⟩ := ih (s.perform observer id m).2
      cases m with
      | call call =>
          obtain ⟨acts, hacts⟩ := exists_calls (c := s.client) (Prod.ext rfl rfl)
          exact ⟨_, .called hacts hlater⟩
      | arrive | breakWrites | stallWrites | breakFlush | mend | cancel =>
          exact ⟨_, .befell (by simp) hlater⟩

/-- What is no call changes no more of a client than its connection, and leaves the records. -/
theorem history_perform (hm : ∀ call, m ≠ .call call) (h : History c₀ acts s.client) :
    History c₀ acts (s.perform observer id m).2.client := by
  cases m with
  | call call => exact absurd rfl (hm call)
  | arrive | breakWrites | breakFlush | mend => exact h.moved _ rfl rfl
  | stallWrites =>
      simp only [perform, mapConnection, Connection.stallWrites]
      split
      · exact h.moved _ rfl rfl
      · exact h.moved _ rfl rfl
  | cancel => exact h

theorem Plays.history (hplays : s.Plays observer id moves turns later last)
    (h : History c₀ acts s.client) : History c₀ (later ++ acts) last.client := by
  -- Each move starts from the acts of those before it.
  induction hplays generalizing acts with
  | finished => exact h
  | called hcall _ ih =>
      rw [List.append_assoc]
      exact ih (h.of_course hcall.course)
  | befell hm _ ih => exact ih (history_perform hm h)

theorem exists_history_play (observer : StopRule) (id : Identity) (moves : List Move)
    (h : History c₀ acts s.client) :
    ∃ later, s.Plays observer id moves (s.play observer id moves).1 later
        (s.play observer id moves).2 ∧
      History c₀ (later ++ acts) (s.play observer id moves).2.client := by
  obtain ⟨later, hlater⟩ := exists_plays observer id moves s
  exact ⟨later, hlater, hlater.history h⟩

end Stage

end FixClient
