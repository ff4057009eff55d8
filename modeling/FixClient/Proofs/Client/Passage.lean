import FixClient.Proofs.Client.History

/-!
# Runs, step by step

A run takes the steps of its scenario, then goes on reading if the scenario follows, and ends
with the first step that does not go on. What a step can come to is said once, by the rules of
`Takes`. The points a run passes and the way it ends are relations of their own, in which
something may happen to the connection before each step. The run of a client is the one in
surroundings where nothing does.
-/

namespace FixClient

def Step.request? : Step → Option Request
  | .send r => some r
  | .receive => none

namespace Scenario

variable {s rest : Scenario} {step : Step}

theorem requests_eq (s : Scenario) : s.requests = s.steps.filterMap Step.request? :=
  rfl

/-- The next step and the scenario after it. A scenario that follows never runs out of reads. -/
def next? (s : Scenario) : Option (Step × Scenario) :=
  match s.steps with
  | step :: rest => some (step, { s with steps := rest })
  | [] => if s.follows then some (.receive, s) else none

theorem next?_eq_none_iff : s.next? = none ↔ s.steps = [] ∧ s.follows = false := by
  unfold next?
  split
  · next hsteps => simp [hsteps]
  · next hsteps => simp [hsteps]

theorem next?_eq_some (h : s.next? = some (step, rest)) :
    s.steps = step :: rest.steps ∧ rest.follows = s.follows ∨
      s.steps = [] ∧ s.follows = true ∧ step = .receive ∧ rest = s := by
  unfold next? at h
  split at h
  · next hsteps =>
    cases h
    exact .inl ⟨hsteps, rfl⟩
  · next hsteps =>
    split at h
    · next hfollows =>
      cases h
      exact .inr ⟨hsteps, hfollows, rfl, rfl⟩
    · cases h

end Scenario

/-- What a run comes to by its last step. -/
def Outcome.ended {α : Type} : Outcome α → Outcome Unit
  | .done _ => .done ()
  | .failed e => .failed e
  | .waiting => .waiting

/-- What happens to the connection during a run, before each of its steps: anything may arrive, and
writes may go otherwise than before. Only what was written stays written. -/
structure Surroundings where
  change : Nat → Connection → Connection
  written_change : ∀ n c, (change n c).written = c.written

/-- Nothing happens. -/
def Surroundings.still : Surroundings := ⟨fun _ c => c, fun _ _ => rfl⟩

theorem Client.written_receive (c : Client) :
    c.receive.2.connection.written = c.connection.written := by
  unfold receive
  split
  · rfl
  · dsimp only
    rw [connection_hear]
    rfl

namespace Progress

variable {around : Surroundings} {stop : StopRule} {id : Identity} {s s₀ rest : Scenario}
  {p p₀ q q' after : Progress} {step : Step} {outcome : Outcome Bool} {ended ended' : Outcome Unit}
  {n : Nat}

/-- A run before its `n`-th step, after what happened to the connection. -/
def amid (around : Surroundings) (n : Nat) (p : Progress) : Progress :=
  ⟨{ p.client with connection := around.change n p.client.connection }, p.log⟩

theorem step_of_stopped (h : stop p.log = true) (step : Step) :
    p.step stop id step = (.done false, p) := by
  unfold Progress.step
  exact if_pos h

theorem step_receive : p.step stop id .receive = p.receiveOne stop := by
  unfold Progress.step
  split
  · next h => rw [receiveOne, if_pos h]
  · rfl

/-- How a step ends. -/
inductive Takes (stop : StopRule) (id : Identity) (p : Progress) :
    Step → Outcome Bool → Progress → Prop
  | stopped {step : Step} (h : stop p.log = true) : Takes stop id p step (.done false) p
  | sent {r : Request} {frame : Bytes} {after : Client} (h : stop p.log = false)
      (hsend : p.client.send (r.build id) = (.ok frame, after)) :
      Takes stop id p (.send r) (.done true) ⟨after, .sent frame :: p.log⟩
  | unsent {r : Request} {e : Error} {after : Client} (h : stop p.log = false)
      (hsend : p.client.send (r.build id) = (.error e, after)) :
      Takes stop id p (.send r) (.failed e) ⟨after, p.log⟩
  | heard {chunk : Bytes} {after : Client} (h : stop p.log = false)
      (hreceive : p.client.receive = (.done (some chunk), after)) :
      Takes stop id p .receive (.done true) (p.noteChunk after chunk)
  | closed {after : Client} (h : stop p.log = false)
      (hreceive : p.client.receive = (.done none, after)) :
      Takes stop id p .receive (.done false) ⟨after, .closed :: p.log⟩
  | unheard {e : Error} {after : Client} (h : stop p.log = false)
      (hreceive : p.client.receive = (.failed e, after)) :
      Takes stop id p .receive (.failed e) ⟨after, p.log⟩
  | waiting {after : Client} (h : stop p.log = false)
      (hreceive : p.client.receive = (.waiting, after)) :
      Takes stop id p .receive .waiting ⟨after, p.log⟩

theorem takes (h : p.step stop id step = (outcome, after)) :
    p.Takes stop id step outcome after := by
  cases hstop : stop p.log with
  | true =>
      rw [step_of_stopped hstop] at h
      cases h
      exact .stopped hstop
  | false =>
      cases step with
      | send r =>
          simp only [Progress.step, hstop, Bool.false_eq_true, if_false, sendOne] at h
          rcases hsend : p.client.send (r.build id) with ⟨e | frame, c⟩ <;>
            rw [hsend] at h <;> cases h
          · exact .unsent hstop hsend
          · exact .sent hstop hsend
      | receive =>
          rw [step_receive, receiveOne, hstop] at h
          rcases hreceive : p.client.receive with ⟨_ | e | _, c⟩
          · next chunk? =>
            rcases chunk? with _ | chunk <;> rw [hreceive] at h <;> cases h
            · exact .closed hstop hreceive
            · exact .heard hstop hreceive
          · rw [hreceive] at h
            cases h
            exact .unheard hstop hreceive
          · rw [hreceive] at h
            cases h
            exact .waiting hstop hreceive

theorem Takes.eq (h : p.Takes stop id step outcome after) :
    p.step stop id step = (outcome, after) := by
  cases h with
  | stopped hstop => exact step_of_stopped hstop step
  | sent hstop hsend => simp [Progress.step, hstop, sendOne, hsend]
  | unsent hstop hsend => simp [Progress.step, hstop, sendOne, hsend]
  | heard hstop hreceive | closed hstop hreceive | unheard hstop hreceive
  | waiting hstop hreceive => simp [Progress.step, hstop, receiveOne, hreceive]

/-- A chunk is noted alone, or behind the acknowledgement that it brought. -/
theorem log_noteChunk (before : Progress) (after : Client) (chunk : Bytes) :
    (before.noteChunk after chunk).log = .frame chunk :: before.log ∨
      (before.noteChunk after chunk).log = .frame chunk :: .logon :: before.log := by
  unfold noteChunk
  dsimp only
  split
  · exact .inr rfl
  · exact .inl rfl

theorem Takes.suffix_log (h : p.Takes stop id step outcome after) : p.log <:+ after.log := by
  cases h with
  | stopped | unsent | unheard | waiting => exact List.suffix_rfl
  | sent | closed => exact List.suffix_cons _ _
  | @heard chunk c =>
      rcases p.log_noteChunk c chunk with hlog | hlog
      · rw [hlog]
        exact List.suffix_cons _ _
      · rw [hlog]
        exact (List.suffix_cons _ _).trans (List.suffix_cons _ _)

theorem Takes.prefix_written (h : p.Takes stop id step outcome after) :
    p.client.connection.written <+: after.client.connection.written := by
  have hread : ∀ {outcome c}, p.client.receive = (outcome, c) →
      p.client.connection.written <+: c.connection.written := by
    intro outcome c hreceive
    have hwritten := Client.written_receive p.client
    rw [hreceive] at hwritten
    exact hwritten ▸ List.prefix_rfl
  cases h with
  | stopped => exact List.prefix_rfl
  | sent _ hsend | unsent _ hsend => exact (Client.Does.sends (.send hsend)).prefix_written
  | heard _ hreceive | closed _ hreceive | unheard _ hreceive | waiting _ hreceive =>
      exact hread hreceive

section Unfolding

theorem run_of_next?_eq_none (h : s.next? = none) : p.run stop id s = (.done (), p) := by
  obtain ⟨hsteps, hfollows⟩ := Scenario.next?_eq_none_iff.mp h
  simp [run, hsteps, steps, hfollows]

theorem follow_of_receiveOne (h : p.receiveOne stop = (.done true, after)) :
    p.follow stop = after.follow stop := by
  rw [follow]
  split <;> simp_all

theorem follow_of_last (h : p.receiveOne stop = (outcome, after)) (hlast : outcome ≠ .done true) :
    p.follow stop = (outcome.ended, after) := by
  rw [follow]
  split
  case h_1 hread => exact absurd (Prod.mk.inj (h.symm.trans hread)).1 hlast
  all_goals
    next hread =>
    obtain ⟨rfl, rfl⟩ := Prod.mk.inj (h.symm.trans hread)
    rfl

theorem run_of_step (hnext : s.next? = some (step, rest))
    (hstep : p.step stop id step = (.done true, after)) :
    p.run stop id s = after.run stop id rest := by
  rcases Scenario.next?_eq_some hnext with ⟨hsteps, hfollows⟩ | ⟨hsteps, hfollows, rfl, rfl⟩
  · simp only [run, hsteps, steps, hstep, hfollows]
  · rw [step_receive] at hstep
    simp only [run, hsteps, steps, hfollows, if_true]
    exact follow_of_receiveOne hstep

theorem run_of_last (hnext : s.next? = some (step, rest))
    (hstep : p.step stop id step = (outcome, after)) (hlast : outcome ≠ .done true) :
    p.run stop id s = (outcome.ended, after) := by
  rcases Scenario.next?_eq_some hnext with ⟨hsteps, -⟩ | ⟨hsteps, hfollows, rfl, rfl⟩
  · rcases outcome with (_ | _) | e | _
    · simp only [run, hsteps, steps, hstep, Outcome.ended]
    · exact absurd rfl hlast
    · simp only [run, hsteps, steps, hstep, Outcome.ended]
    · simp only [run, hsteps, steps, hstep, Outcome.ended]
  · rw [step_receive] at hstep
    simp only [run, hsteps, steps, hfollows, if_true]
    exact follow_of_last hstep hlast

/-- Runs can be proved about from behind: by the steps that are left, then by the bytes that are
left to read. -/
theorem run_induction (stop : StopRule) (id : Identity) {motive : Scenario → Progress → Prop}
    (h : ∀ s p, (∀ step rest after, s.next? = some (step, rest) →
      p.step stop id step = (.done true, after) → motive rest after) → motive s p)
    (s : Scenario) (p : Progress) : motive s p := by
  generalize hsteps : s.steps = steps
  induction steps generalizing s p with
  | nil =>
      induction hn : p.client.connection.backlog using Nat.strongRecOn generalizing p with
      | ind n ih =>
          apply h
          intro step rest after hnext hstep
          rcases Scenario.next?_eq_some hnext with ⟨hcons, -⟩ | ⟨-, -, rfl, rfl⟩
          · rw [hsteps] at hcons
            cases hcons
          · rw [step_receive] at hstep
            exact ih _ (hn ▸ backlog_lt_of_receiveOne hstep) after rfl
  | cons first left ih =>
      apply h
      intro step rest after hnext _
      rcases Scenario.next?_eq_some hnext with ⟨hcons, -⟩ | ⟨hnil, -⟩
      · rw [hsteps] at hcons
        exact ih rest after (List.cons.inj hcons).2.symm
      · rw [hsteps] at hnil
        cases hnil

end Unfolding

/-- The points of a run: how many steps it has taken, what is left of its scenario and how far it
has come. -/
inductive Passes (around : Surroundings) (stop : StopRule) (id : Identity) (s₀ : Scenario)
    (p₀ : Progress) : Nat → Scenario → Progress → Prop
  | start : Passes around stop id s₀ p₀ 0 s₀ p₀
  | next {n : Nat} {s rest : Scenario} {p after : Progress} {step : Step}
      (h : Passes around stop id s₀ p₀ n s p) (hnext : s.next? = some (step, rest))
      (hstep : (p.amid around n).step stop id step = (.done true, after)) :
      Passes around stop id s₀ p₀ (n + 1) rest after

/-- How a run ends that has taken `n` steps. -/
inductive Runs (around : Surroundings) (stop : StopRule) (id : Identity) :
    Nat → Scenario → Progress → Outcome Unit → Progress → Prop
  | finished {n : Nat} {s : Scenario} {p : Progress} (hnext : s.next? = none) :
      Runs around stop id n s p (.done ()) p
  | last {n : Nat} {s rest : Scenario} {p after : Progress} {step : Step} {outcome : Outcome Bool}
      (hnext : s.next? = some (step, rest))
      (hstep : (p.amid around n).step stop id step = (outcome, after))
      (hlast : outcome ≠ .done true) : Runs around stop id n s p outcome.ended after
  | next {n : Nat} {s rest : Scenario} {p after ending : Progress} {step : Step}
      {outcome : Outcome Unit} (hnext : s.next? = some (step, rest))
      (hstep : (p.amid around n).step stop id step = (.done true, after))
      (h : Runs around stop id (n + 1) rest after outcome ending) :
      Runs around stop id n s p outcome ending

namespace Runs

theorem eq_of_last (h : Runs around stop id n s p ended q) (hnext : s.next? = some (step, rest))
    (hstep : (p.amid around n).step stop id step = (outcome, after))
    (hlast : outcome ≠ .done true) : ended = outcome.ended ∧ q = after := by
  cases h with
  | finished hnone =>
      rw [hnext] at hnone
      cases hnone
  | last hnext' hstep' =>
      obtain ⟨rfl, rfl⟩ := Prod.mk.inj (Option.some.inj (hnext.symm.trans hnext'))
      obtain ⟨rfl, rfl⟩ := Prod.mk.inj (hstep.symm.trans hstep')
      exact ⟨rfl, rfl⟩
  | next hnext' hstep' =>
      obtain ⟨rfl, rfl⟩ := Prod.mk.inj (Option.some.inj (hnext.symm.trans hnext'))
      exact absurd (Prod.mk.inj (hstep.symm.trans hstep')).1 hlast

theorem after_step (h : Runs around stop id n s p ended q) (hnext : s.next? = some (step, rest))
    (hstep : (p.amid around n).step stop id step = (.done true, after)) :
    Runs around stop id (n + 1) rest after ended q := by
  cases h with
  | finished hnone =>
      rw [hnext] at hnone
      cases hnone
  | last hnext' hstep' hlast =>
      obtain ⟨rfl, rfl⟩ := Prod.mk.inj (Option.some.inj (hnext.symm.trans hnext'))
      exact absurd (Prod.mk.inj (hstep'.symm.trans hstep)).1 hlast
  | next hnext' hstep' hrest =>
      obtain ⟨rfl, rfl⟩ := Prod.mk.inj (Option.some.inj (hnext.symm.trans hnext'))
      obtain ⟨-, rfl⟩ := Prod.mk.inj (hstep.symm.trans hstep')
      exact hrest

theorem unique (h : Runs around stop id n s p ended q) (h' : Runs around stop id n s p ended' q') :
    ended' = ended ∧ q' = q := by
  induction h with
  | finished hnone =>
      cases h' with
      | finished => exact ⟨rfl, rfl⟩
      | last hnext | next hnext =>
          rw [hnone] at hnext
          cases hnext
  | last hnext hstep hlast => exact h'.eq_of_last hnext hstep hlast
  | next hnext hstep _ ih => exact ih (h'.after_step hnext hstep)

theorem suffix_log (h : Runs around stop id n s p ended q) : p.log <:+ q.log := by
  induction h with
  | finished => exact List.suffix_rfl
  | last _ hstep => exact (takes hstep).suffix_log
  | next _ hstep _ ih => exact (takes hstep).suffix_log.trans ih

theorem prefix_written (h : Runs around stop id n s p ended q) :
    p.client.connection.written <+: q.client.connection.written := by
  have hamid : ∀ n (p : Progress),
      (p.amid around n).client.connection.written = p.client.connection.written :=
    fun n p => around.written_change n p.client.connection
  induction h with
  | finished => exact List.prefix_rfl
  | @last n _ _ p _ _ _ _ hstep =>
      rw [← hamid n p]
      exact (takes hstep).prefix_written
  | @next n _ _ p _ _ _ _ _ hstep _ ih =>
      rw [← hamid n p]
      exact (takes hstep).prefix_written.trans ih

end Runs

/-- The run that is left at a point is the rest of the whole run. -/
theorem Passes.run_eq (h : Passes .still stop id s₀ p₀ n s p) :
    p.run stop id s = p₀.run stop id s₀ := by
  induction h with
  | start => rfl
  | next _ hnext hstep ih => exact (run_of_step hnext hstep).symm.trans ih

theorem runs_run (stop : StopRule) (id : Identity) (n : Nat) (s : Scenario) (p : Progress) :
    Runs .still stop id n s p (p.run stop id s).1 (p.run stop id s).2 := by
  refine run_induction stop id (motive := fun s p => ∀ n,
    Runs .still stop id n s p (p.run stop id s).1 (p.run stop id s).2) ?_ s p n
  intro s p ih n
  rcases hnext : s.next? with _ | ⟨step, rest⟩
  · rw [run_of_next?_eq_none hnext]
    exact .finished hnext
  · rcases hstep : p.step stop id step with ⟨outcome, after⟩
    by_cases hlast : outcome = .done true
    · subst hlast
      rw [run_of_step hnext hstep]
      exact .next hnext hstep (ih step rest after hnext hstep (n + 1))
    · rw [run_of_last hnext hstep hlast]
      exact .last hnext hstep hlast

end Progress

namespace Event

def chunk? : Event → Option Bytes
  | .frame chunk => some chunk
  | .sent _ | .logon | .closed => none

/-- The chunks that were told of, in order. The events come latest first. -/
def chunks (log : List Event) : List Bytes := log.reverse.filterMap chunk?

def received (log : List Event) : Bytes := (chunks log).flatten

theorem chunks_cons (e : Event) (log : List Event) :
    chunks (e :: log) = chunks log ++ e.chunk?.toList := by
  rw [chunks, chunks, List.reverse_cons, List.filterMap_append]
  cases e <;> rfl

theorem chunks_noteChunk (before : Progress) (after : Client) (chunk : Bytes) :
    chunks (before.noteChunk after chunk).log = chunks before.log ++ [chunk] := by
  rcases before.log_noteChunk after chunk with hlog | hlog
  · rw [hlog, chunks_cons]
    rfl
  · rw [hlog, chunks_cons, chunks_cons]
    exact congrArg (· ++ [chunk]) (List.append_nil _)

theorem received_sent (frame : Bytes) (log : List Event) :
    received (.sent frame :: log) = received log := by
  rw [received, chunks_cons]
  exact congrArg List.flatten (List.append_nil _)

theorem received_noteChunk (before : Progress) (after : Client) (chunk : Bytes) :
    received (before.noteChunk after chunk).log = received before.log ++ chunk := by
  rw [received, chunks_noteChunk, List.flatten_append, List.flatten_singleton]
  rfl

end Event

/-- The scenario that a call runs. To follow is to run one without steps. -/
def Call.scenario? : Call → Option Scenario
  | .send _ | .receive => none
  | .follow => some { name := "", follows := true }
  | .run s => some s

namespace Client

variable {call : Call}

theorem call_of_scenario? {s : Scenario} (h : call.scenario? = some s) (stop : StopRule)
    (id : Identity) (c : Client) :
    c.call stop id call =
      (.ofOutcome (fun _ => .done) (Progress.run stop id s ⟨c, []⟩).1,
        (Progress.run stop id s ⟨c, []⟩).2) := by
  cases call with
  | send | receive => cases h
  | follow | run =>
      cases h
      rfl

end Client

end FixClient
