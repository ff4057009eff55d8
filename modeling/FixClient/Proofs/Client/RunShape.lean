import FixClient.Peer
import FixClient.Proofs.Client.Lifecycle
import FixClient.Proofs.Client.Passage

/-!
# The shape of a run

What a run tells follows its scenario step by step, and it writes the frames of the requests
in their order, each as a whole. Only a send that fails may leave a part of its frame behind
them. So wherever a run stops, what it has told and written belongs to a front of the scenario.
-/

namespace FixClient

/-- The events of steps that are taken one after another. A send tells of its frame, a read of
its chunk, and of the acknowledgement in front of it if this chunk brought it. -/
inductive Event.Tells (id : Identity) : List Step → List Event → Prop
  | start : Tells id [] []
  | sent {steps : List Step} {events : List Event} {r : Request} {frame : Bytes}
      (h : Tells id steps events) (hencode : (r.build id).encode = .ok frame) :
      Tells id (steps ++ [.send r]) (events ++ [.sent frame])
  | heard {steps : List Step} {events : List Event} (h : Tells id steps events) (chunk : Bytes) :
      Tells id (steps ++ [.receive]) (events ++ [.frame chunk])
  | acknowledged {steps : List Step} {events : List Event} (h : Tells id steps events)
      (chunk : Bytes) : Tells id (steps ++ [.receive]) (events ++ [.logon, .frame chunk])

namespace Event

variable {id : Identity} {steps : List Step} {events : List Event}

theorem sentFrames_append (l r : List Event) :
    sentFrames (l ++ r) = sentFrames l ++ sentFrames r :=
  List.filterMap_append

theorem Tells.encode_eq (h : Tells id steps events) :
    (steps.filterMap Step.request?).map (fun r => (r.build id).encode) =
      (sentFrames events).map .ok := by
  induction h with
  | start => rfl
  | @sent steps events r frame _ hencode ih =>
      rw [List.filterMap_append, List.map_append, ih, sentFrames_append, List.map_append]
      exact congrArg _ (congrArg (· :: []) hencode)
  | heard _ chunk ih | acknowledged _ chunk ih =>
      rw [List.filterMap_append, List.map_append, ih, sentFrames_append, List.map_append]
      rfl

theorem Tells.closed_notMem (h : Tells id steps events) : .closed ∉ events := by
  induction h with
  | start => simp
  | sent _ _ ih | heard _ _ ih | acknowledged _ _ ih => simp [ih]

end Event

namespace Client

variable {c after : Client} {m : Message} {e : Error}

/-- What a send that fails leaves on the stream. -/
theorem exists_part_of_send (h : c.send m = (.error e, after)) :
    ∃ part, after.connection.written = c.connection.written ++ part ∧
      (part ≠ [] → ∃ frame reason, m.encode = .ok frame ∧ part <+: frame ∧
        e = .session (.connection reason)) := by
  have hsends : c.Sends m (.error e) after := Does.sends (.send h)
  cases hsends with
  | refused | unwritable => exact ⟨[], (List.append_nil _).symm, fun hne => absurd rfl hne⟩
  | broken _ hencode hdeliver =>
      obtain ⟨part, hpart, hwritten⟩ := Connection.deliver_eq_error hdeliver
      exact ⟨part, hwritten, fun _ => ⟨_, _, hencode, hpart, rfl⟩⟩

end Client

namespace Progress

variable {around : Surroundings} {stop : StopRule} {id : Identity} {s later rest : Scenario}
  {c : Client} {p q after : Progress} {step : Step} {outcome : Outcome Unit} {steps : List Step}
  {n reads : Nat}

/-- A step that goes on tells of itself, and writes what it tells to have sent. -/
theorem Takes.exists_tells (h : p.Takes stop id step (.done true) after) :
    ∃ events, after.log.reverse = p.log.reverse ++ events ∧
      after.client.connection.written =
        p.client.connection.written ++ (Event.sentFrames events).flatten ∧
      ∀ {steps told}, Event.Tells id steps told →
        Event.Tells id (steps ++ [step]) (told ++ events) := by
  cases h with
  | @sent r frame c _ hsend =>
      obtain ⟨hencode, hwritten, -⟩ := Client.Does.delivered (.send hsend)
      refine ⟨[.sent frame], List.reverse_cons, ?_, fun htells => htells.sent hencode⟩
      rw [hwritten]
      exact congrArg _ (List.append_nil frame).symm
  | @heard chunk c _ hreceive =>
      have hwritten : c.connection.written = p.client.connection.written := by
        rw [← Client.written_receive p.client, hreceive]
      have hwritten' : (p.noteChunk c chunk).client.connection.written =
          p.client.connection.written ++ [] := hwritten.trans (List.append_nil _).symm
      rcases p.log_noteChunk c chunk with hlog | hlog
      · refine ⟨[.frame chunk], ?_, hwritten', fun htells => htells.heard chunk⟩
        rw [hlog, List.reverse_cons]
      · refine ⟨[.logon, .frame chunk], ?_, hwritten', fun htells => htells.acknowledged chunk⟩
        rw [hlog, List.reverse_cons, List.reverse_cons, List.append_assoc]
        rfl

/-- A step that does not go on tells at most that the stream was closed, and writes only if it
is a send that fails. -/
theorem Takes.exists_last {outcome : Outcome Bool} (h : p.Takes stop id step outcome after)
    (hne : outcome ≠ .done true) :
    ∃ last part, after.log = last ++ p.log ∧
      (last = [] ∨ last = [.closed] ∧ outcome.ended = .done ()) ∧
      after.client.connection.written = p.client.connection.written ++ part ∧
      (part ≠ [] → ∃ r frame reason, step = .send r ∧ (r.build id).encode = .ok frame ∧
        part <+: frame ∧ outcome.ended = .failed (.session (.connection reason))) ∧
      (outcome.ended = .done () → last = [] → stop after.log = true) := by
  have hread : ∀ {outcome c}, p.client.receive = (outcome, c) →
      c.connection.written = p.client.connection.written ++ [] := by
    intro outcome c hreceive
    rw [List.append_nil, ← Client.written_receive p.client, hreceive]
  cases h with
  | stopped hstop =>
      exact ⟨[], [], rfl, .inl rfl, (List.append_nil _).symm, by simp, fun _ _ => hstop⟩
  | sent | heard => exact absurd rfl hne
  | @unsent r e c _ hsend =>
      obtain ⟨part, hwritten, hpart⟩ := Client.exists_part_of_send hsend
      refine ⟨[], part, rfl, .inl rfl, hwritten, ?_, fun hdone => by cases hdone⟩
      intro hne
      obtain ⟨frame, reason, hencode, hprefix, rfl⟩ := hpart hne
      exact ⟨r, frame, reason, rfl, hencode, hprefix, rfl⟩
  | closed _ hreceive =>
      exact ⟨[.closed], [], rfl, .inr ⟨rfl, rfl⟩, hread hreceive, by simp, by simp⟩
  | unheard _ hreceive | waiting _ hreceive =>
      exact ⟨[], [], rfl, .inl rfl, hread hreceive, by simp, fun hdone => by cases hdone⟩

/-- What a run has told and written when it has taken these steps and has then read on so many
times. -/
structure Told (id : Identity) (s : Scenario) (c : Client) (later : Scenario) (q : Progress)
    (steps : List Step) (reads : Nat) : Prop where
  steps_eq : s.steps = steps ++ later.steps
  follows_eq : later.follows = s.follows
  reads_follow : reads ≠ 0 → later.steps = [] ∧ s.follows = true
  tells : Event.Tells id (steps ++ List.replicate reads .receive) q.log.reverse
  written_eq : q.client.connection.written =
    c.connection.written ++ (Event.sentFrames q.log.reverse).flatten

theorem Told.of_takes (h : Told id s c later q steps reads)
    (hnext : later.next? = some (step, rest)) (htakes : q.Takes stop id step (.done true) after) :
    ∃ steps' reads', Told id s c rest after steps' reads' := by
  obtain ⟨events, hlog, hwritten, htells⟩ := htakes.exists_tells
  have hwritten' : after.client.connection.written =
      c.connection.written ++ (Event.sentFrames after.log.reverse).flatten := by
    rw [hwritten, h.written_eq, hlog, Event.sentFrames_append, List.flatten_append,
      List.append_assoc]
  have htells' := htells h.tells
  rw [← hlog] at htells'
  rcases Scenario.next?_eq_some hnext with ⟨hsteps, hfollows⟩ | ⟨hsteps, hfollows, rfl, rfl⟩
  · -- There is a step left, so nothing was read behind the steps.
    have hreads : reads = 0 := by
      by_contra hne
      rw [(h.reads_follow hne).1] at hsteps
      cases hsteps
    subst hreads
    refine ⟨steps ++ [step], 0, ?_, hfollows.trans h.follows_eq, fun hne => absurd rfl hne, ?_,
      hwritten'⟩
    · rw [h.steps_eq, hsteps, List.append_assoc, List.singleton_append]
    · simpa using htells'
  · refine ⟨steps, reads + 1, h.steps_eq, h.follows_eq, ?_, ?_, hwritten'⟩
    · intro _
      exact ⟨hsteps, h.follows_eq ▸ hfollows⟩
    · rwa [List.replicate_succ', ← List.append_assoc]

theorem Told.amid (h : Told id s c later q steps reads) (around : Surroundings) (n : Nat) :
    Told id s c later (q.amid around n) steps reads := by
  refine ⟨h.steps_eq, h.follows_eq, h.reads_follow, h.tells, ?_⟩
  exact (around.written_change n _).trans h.written_eq

theorem Told.requests_eq (h : Told id s c later q steps reads) :
    s.requests = steps.filterMap Step.request? ++ later.steps.filterMap Step.request? := by
  rw [s.requests_eq, h.steps_eq, List.filterMap_append]

theorem Told.encode_eq (h : Told id s c later q steps reads) :
    (steps.filterMap Step.request?).map (fun r => (r.build id).encode) =
      (Event.sentFrames q.log.reverse).map .ok := by
  rw [← h.tells.encode_eq, List.filterMap_append, List.filterMap_replicate_of_none rfl,
    List.append_nil]

theorem Told.length_requests (h : Told id s c later q steps reads) :
    (steps.filterMap Step.request?).length = (Event.sentFrames q.log.reverse).length := by
  simpa using congrArg List.length h.encode_eq

/-- What holds at the end of a run that has taken the steps `taken`, has then read on `reads`
times, has told `last` of its end and has left `part` of a frame on the stream. -/
structure Shape (stop : StopRule) (id : Identity) (s : Scenario) (c : Client)
    (outcome : Outcome Unit) (after : Progress) (taken left : List Step) (reads : Nat)
    (last : List Event) (part : Bytes) : Prop where
  steps_eq : s.steps = taken ++ left
  reads_follow : reads ≠ 0 → left = [] ∧ s.follows = true
  events_eq : ∃ told, Event.Tells id (taken ++ List.replicate reads .receive) told ∧
    after.log.reverse = told ++ last ∧ .closed ∉ told
  last_eq : last = [] ∨ last = [.closed] ∧ outcome = .done ()
  /-- The frames told of as sent are those of as many of the first requests. -/
  sent_eq : (s.requests.take (Event.sentFrames after.log.reverse).length).map
    (fun r => (r.build id).encode) = (Event.sentFrames after.log.reverse).map .ok
  written_eq : after.client.connection.written =
    c.connection.written ++ (Event.sentFrames after.log.reverse).flatten ++ part
  /-- A part is left only by a send that fails, and it is one of the next request. -/
  part_sent : part ≠ [] → ∃ r frame reason, left.head? = some (.send r) ∧
    s.requests[(Event.sentFrames after.log.reverse).length]? = some r ∧
      (r.build id).encode = .ok frame ∧ part <+: frame ∧
        outcome = .failed (.session (.connection reason))
  complete : outcome = .done () → last = [] → stop after.log = false →
    left = [] ∧ s.follows = false

theorem Told.shape {last : List Event} {part : Bytes} (h : Told id s c later q steps reads)
    (hlog : after.log = last ++ q.log) (hlast : last = [] ∨ last = [.closed] ∧ outcome = .done ())
    (hwritten : after.client.connection.written = q.client.connection.written ++ part)
    (hpart : part ≠ [] → ∃ r frame reason, later.steps.head? = some (.send r) ∧
      (r.build id).encode = .ok frame ∧ part <+: frame ∧
        outcome = .failed (.session (.connection reason)))
    (hcomplete : outcome = .done () → last = [] → stop after.log = false →
      later.steps = [] ∧ later.follows = false) :
    Shape stop id s c outcome after steps later.steps reads last part := by
  have hlast' : last.reverse = last := by
    rcases hlast with rfl | ⟨rfl, -⟩ <;> rfl
  have hevents : after.log.reverse = q.log.reverse ++ last := by
    rw [hlog, List.reverse_append, hlast']
  have hsent : Event.sentFrames after.log.reverse = Event.sentFrames q.log.reverse := by
    rw [hevents, Event.sentFrames_append]
    rcases hlast with rfl | ⟨rfl, -⟩ <;> exact List.append_nil _
  constructor
  case steps_eq => exact h.steps_eq
  case reads_follow => exact h.reads_follow
  case events_eq => exact ⟨_, h.tells, hevents, h.tells.closed_notMem⟩
  case last_eq => exact hlast
  case sent_eq =>
    rw [hsent, h.requests_eq, ← h.length_requests, List.take_left, h.encode_eq]
  case written_eq => rw [hwritten, h.written_eq, hsent]
  case part_sent =>
    intro hne
    obtain ⟨r, frame, reason, hhead, hencode, hprefix, houtcome⟩ := hpart hne
    refine ⟨r, frame, reason, hhead, ?_, hencode, hprefix, houtcome⟩
    obtain ⟨left, hleft⟩ := List.head?_eq_some_iff.mp hhead
    rw [hsent, h.requests_eq, ← h.length_requests, hleft]
    rw [List.getElem?_append_right (Nat.le_refl _), Nat.sub_self]
    rfl
  case complete =>
    intro hdone hnil hstop
    rw [← h.follows_eq]
    exact hcomplete hdone hnil hstop

theorem Runs.exists_shape (h : Runs around stop id n later q outcome after)
    (htold : Told id s c later q steps reads) :
    ∃ taken left reads last part, Shape stop id s c outcome after taken left reads last part := by
  induction h generalizing steps reads with
  | finished hnext =>
      refine ⟨steps, _, reads, [], [], htold.shape rfl (.inl rfl) (List.append_nil _).symm ?_ ?_⟩
      · exact fun hne => absurd rfl hne
      · intro _ _ _
        exact Scenario.next?_eq_none_iff.mp hnext
  | @last n _ _ _ _ _ _ hnext hstep hlast =>
      obtain ⟨last, part, hlog, hend, hwritten, hpart, hstopped⟩ := (takes hstep).exists_last hlast
      refine ⟨steps, _, reads, last, part,
        (htold.amid around n).shape hlog hend hwritten ?_ ?_⟩
      · intro hne
        obtain ⟨r, frame, reason, rfl, hsent⟩ := hpart hne
        rcases Scenario.next?_eq_some hnext with ⟨hsteps, -⟩ | ⟨-, -, hreceive, -⟩
        · exact ⟨r, frame, reason, hsteps ▸ rfl, hsent⟩
        · cases hreceive
      · intro hdone hnil hstop
        rw [hstopped hdone hnil] at hstop
        cases hstop
  | @next n _ _ _ _ _ _ _ hnext hstep _ ih =>
      obtain ⟨steps', reads', htold'⟩ := (htold.amid around n).of_takes hnext (takes hstep)
      exact ih htold'

theorem Told.start (id : Identity) (s : Scenario) (c : Client) : Told id s c s ⟨c, []⟩ [] 0 := by
  refine ⟨rfl, rfl, fun hne => absurd rfl hne, .start, ?_⟩
  exact (List.append_nil _).symm

/-- The shape of every run, whatever happens to the connection meanwhile. The bytes it adds to the
stream are the frames of the first requests, as many as it tells to have sent, and behind them
at most a part of the next frame, if sending this failed. Its events follow the steps taken and
then the further reads, and nothing but the end of the stream is told after them. A run that is
done, though neither the stream has ended nor the observer has stopped it, has taken all steps
of a scenario that does not follow. -/
theorem run_shape (stop : StopRule) (id : Identity) (s : Scenario) (c : Client) :
    Runs .still stop id 0 s ⟨c, []⟩ (Progress.run stop id s ⟨c, []⟩).1
        (Progress.run stop id s ⟨c, []⟩).2 ∧
      ∀ around outcome after, Runs around stop id 0 s ⟨c, []⟩ outcome after →
        ∃ taken left reads last part,
          Shape stop id s c outcome after taken left reads last part := by
  constructor
  · exact runs_run stop id 0 s ⟨c, []⟩
  · intro around outcome after hruns
    exact hruns.exists_shape (.start id s c)

end Progress

end FixClient
