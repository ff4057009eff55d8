import FixClient.Client.Script
import FixClient.Proofs.Client.Passage

/-!
# Runs that are stopped at a chunk

An observer may stop a run at its `n`-th chunk. Up to there nothing asks the run to stop, so it
takes the steps that it takes when nobody stops it. From there on it takes none: it is done, with
the client as this chunk has left it. A run with fewer chunks is not touched at all.
-/

namespace FixClient

namespace Event

theorem chunkCount_frame (chunk : Bytes) (log : List Event) :
    chunkCount (.frame chunk :: log) = chunkCount log + 1 :=
  List.countP_cons_of_pos rfl

theorem chunkCount_cons_of_ne {e : Event} (h : ∀ chunk, e ≠ .frame chunk) (log : List Event) :
    chunkCount (e :: log) = chunkCount log := by
  cases e with
  | frame chunk => exact absurd rfl (h chunk)
  | sent | logon | closed => rfl

theorem chunkCount_le_of_suffix {log log' : List Event} (h : log <:+ log') :
    chunkCount log ≤ chunkCount log' :=
  h.sublist.countP_le

end Event

namespace StopRule

variable {n : Nat} {log : List Event}

theorem afterChunks_of_lt (h : Event.chunkCount log < n) : afterChunks n log = false := by
  simp [afterChunks, Nat.not_le.mpr h]

theorem afterChunks_of_eq (hn : 0 < n) (h : Event.chunkCount log = n) :
    afterChunks n log = true := by
  simp [afterChunks, hn, h]

end StopRule

namespace Progress

variable {around : Surroundings} {stop stop' : StopRule} {id : Identity} {s later rest : Scenario}
  {p p₀ q after : Progress} {step : Step} {ended : Outcome Unit} {n k : Nat}

/-- A step asks only once whether to stop, in front of all that it does. -/
theorem step_congr (h : stop p.log = stop' p.log) : p.step stop id step = p.step stop' id step := by
  cases step with
  | send r => simp only [Progress.step, h]
  | receive => simp only [step_receive, receiveOne, h]

theorem Takes.chunkCount_of_send {r : Request} (h : p.Takes stop id (.send r) (.done true) after) :
    Event.chunkCount after.log = Event.chunkCount p.log := by
  cases h with
  | sent => exact Event.chunkCount_cons_of_ne (by simp) _

theorem Takes.exists_frame_of_receive (h : p.Takes stop id .receive (.done true) after) :
    (∃ chunk log, after.log = .frame chunk :: log) ∧
      Event.chunkCount after.log = Event.chunkCount p.log + 1 := by
  cases h with
  | @heard chunk c =>
      rcases p.log_noteChunk c chunk with hlog | hlog
      · rw [hlog, Event.chunkCount_frame]
        exact ⟨⟨chunk, _, rfl⟩, rfl⟩
      · rw [hlog, Event.chunkCount_frame]
        exact ⟨⟨chunk, _, rfl⟩, congrArg (· + 1) (Event.chunkCount_cons_of_ne (by simp) _)⟩

theorem Takes.chunkCount_of_last {outcome : Outcome Bool} (h : p.Takes stop id step outcome after)
    (hlast : outcome ≠ .done true) : Event.chunkCount after.log = Event.chunkCount p.log := by
  cases h with
  | stopped | unsent | unheard | waiting => rfl
  | sent | heard => exact absurd rfl hlast
  | closed => exact Event.chunkCount_cons_of_ne (by simp) _

/-- A step that goes on leaves fewer steps to take or fewer chunks to wait for, or it has brought
the chunk at which to stop. -/
theorem Takes.nearer_or_frame (h : p.Takes stop id step (.done true) after)
    (hnext : later.next? = some (step, rest)) (hlt : Event.chunkCount p.log < n) :
    Event.chunkCount after.log < n ∧ n - Event.chunkCount after.log + rest.steps.length <
        n - Event.chunkCount p.log + later.steps.length ∨
      (∃ chunk log, after.log = .frame chunk :: log) ∧ Event.chunkCount after.log = n := by
  have hleft := Scenario.next?_eq_some hnext
  cases step with
  | send r =>
      have hcount := h.chunkCount_of_send
      rcases hleft with ⟨hsteps, -⟩ | ⟨-, -, hreceive, -⟩
      · rw [hcount, hsteps, List.length_cons]
        exact .inl ⟨hlt, by omega⟩
      · cases hreceive
  | receive =>
      obtain ⟨hframe, hcount⟩ := h.exists_frame_of_receive
      have hsteps : rest.steps.length ≤ later.steps.length := by
        rcases hleft with ⟨hsteps, -⟩ | ⟨-, -, -, rfl⟩
        · exact hsteps ▸ Nat.le_succ _
        · exact Nat.le_refl _
      by_cases hmore : Event.chunkCount after.log < n
      · exact .inl ⟨hmore, by omega⟩
      · exact .inr ⟨hframe, by omega⟩

section Points

theorem Passes.runs (h : Passes around stop id s p₀ k later p)
    (hruns : Runs around stop id k later p ended q) : Runs around stop id 0 s p₀ ended q := by
  induction h with
  | start => exact hruns
  | next _ hnext hstep ih => exact ih (.next hnext hstep hruns)

theorem Passes.runs_of_runs (h : Passes around stop id s p₀ k later p)
    (hruns : Runs around stop id 0 s p₀ ended q) : Runs around stop id k later p ended q := by
  induction h with
  | start => exact hruns
  | next _ hnext hstep ih => exact ih.after_step hnext hstep

/-- A run that is told to stop is done. Only what happens around it can still change. -/
theorem exists_runs_of_stopped (h : stop p.log = true) :
    ∃ q, Runs around stop id k later p (.done ()) q ∧ (q = p ∨ q = p.amid around k) := by
  rcases hnext : later.next? with _ | ⟨step, rest⟩
  · exact ⟨p, .finished hnext, .inl rfl⟩
  · have hstep : (p.amid around k).step stop id step = (.done false, p.amid around k) :=
      step_of_stopped (p := p.amid around k) h step
    exact ⟨_, .last hnext hstep (by simp), .inr rfl⟩

end Points

/-- The point of a run that nobody stops at which the `n`-th chunk has just been told of. -/
structure CutPoint (around : Surroundings) (id : Identity) (s : Scenario) (p₀ : Progress)
    (n k : Nat) (later : Scenario) (p : Progress) : Prop where
  passes : Passes around .never id s p₀ k later p
  frame : ∃ chunk log, p.log = .frame chunk :: log
  chunkCount_eq : Event.chunkCount p.log = n

/-- From a point before the `n`-th chunk, both runs come to the same end before it, or both come
to the point of this chunk. The steps left and the chunks still missing bound the way there. -/
theorem Passes.exists_cut (h : Passes around .never id s p₀ k later p)
    (h' : Passes around (.afterChunks n) id s p₀ k later p)
    (hlt : Event.chunkCount p.log < n) :
    (∃ ended q, Runs around .never id 0 s p₀ ended q ∧ Event.chunkCount q.log < n ∧
        Runs around (.afterChunks n) id 0 s p₀ ended q) ∨
      ∃ k later p, CutPoint around id s p₀ n k later p ∧
        Passes around (.afterChunks n) id s p₀ k later p := by
  induction hbound : n - Event.chunkCount p.log + later.steps.length
    using Nat.strongRecOn generalizing k later p with
  | ind bound ih =>
      rcases hnext : later.next? with _ | ⟨step, rest⟩
      · exact .inl ⟨_, p, h.runs (.finished hnext), hlt, h'.runs (.finished hnext)⟩
      rcases hstep : (p.amid around k).step .never id step with ⟨outcome, after⟩
      -- Neither run is told to stop here.
      have hstep' : (p.amid around k).step (.afterChunks n) id step = (outcome, after) :=
        (step_congr (StopRule.afterChunks_of_lt hlt)).trans hstep
      by_cases hlast : outcome = .done true
      · subst hlast
        rcases (takes hstep).nearer_or_frame hnext hlt with ⟨hmore, hless⟩ | ⟨hframe, hcount⟩
        · exact ih _ (hbound ▸ hless) (h.next hnext hstep) (h'.next hnext hstep') hmore rfl
        · exact .inr ⟨_, _, after, ⟨h.next hnext hstep, hframe, hcount⟩, h'.next hnext hstep'⟩
      · have hcount := (takes hstep).chunkCount_of_last hlast
        exact .inl ⟨_, after, h.runs (.last hnext hstep hlast), hcount ▸ hlt,
          h'.runs (.last hnext hstep' hlast)⟩

theorem exists_cut (hn : 0 < n) (around : Surroundings) (id : Identity) (s : Scenario)
    (c : Client) :
    (∃ ended q, Runs around .never id 0 s ⟨c, []⟩ ended q ∧ Event.chunkCount q.log < n ∧
        Runs around (.afterChunks n) id 0 s ⟨c, []⟩ ended q) ∨
      ∃ k later p q, CutPoint around id s ⟨c, []⟩ n k later p ∧
        Runs around (.afterChunks n) id 0 s ⟨c, []⟩ (.done ()) q ∧ (q = p ∨ q = p.amid around k) ∧
          ∀ ended' q', Runs around .never id 0 s ⟨c, []⟩ ended' q' → p.log <:+ q'.log := by
  have hstart : ∀ stop, Passes around stop id s ⟨c, []⟩ 0 s ⟨c, []⟩ := fun _ => .start
  rcases (hstart .never).exists_cut (hstart (.afterChunks n)) hn with
    hends | ⟨k, later, p, hcut, hpasses⟩
  · exact .inl hends
  · obtain ⟨q, hruns, hq⟩ : ∃ q, Runs around (.afterChunks n) id k later p (.done ()) q ∧
        (q = p ∨ q = p.amid around k) :=
      exists_runs_of_stopped (StopRule.afterChunks_of_eq hn hcut.chunkCount_eq)
    refine .inr ⟨k, later, p, q, hcut, hpasses.runs hruns, hq, ?_⟩
    intro ended' q' hruns'
    exact (hcut.passes.runs_of_runs hruns').suffix_log

section Run

variable {c : Client}

theorem run_eq_of_chunkCount_lt (hn : 0 < n)
    (hlt : Event.chunkCount (Progress.run .never id s ⟨c, []⟩).2.log < n) :
    Progress.run (.afterChunks n) id s ⟨c, []⟩ = Progress.run .never id s ⟨c, []⟩ := by
  have hfull := runs_run .never id 0 s ⟨c, []⟩
  have hstopped := runs_run (.afterChunks n) id 0 s ⟨c, []⟩
  rcases exists_cut hn .still id s c with
    ⟨ended, q, hruns, -, hruns'⟩ | ⟨k, later, p, q, hcut, -, -, hsuffix⟩
  · obtain ⟨houtcome, hend⟩ := hruns.unique hfull
    obtain ⟨houtcome', hend'⟩ := hruns'.unique hstopped
    exact Prod.ext (houtcome'.trans houtcome.symm) (hend'.trans hend.symm)
  · have hle := Event.chunkCount_le_of_suffix (hsuffix _ _ hfull)
    rw [hcut.chunkCount_eq] at hle
    omega

theorem exists_cutPoint_run (hn : 0 < n)
    (hle : n ≤ Event.chunkCount (Progress.run .never id s ⟨c, []⟩).2.log) :
    ∃ k later p, CutPoint .still id s ⟨c, []⟩ n k later p ∧
      p.log <:+ (Progress.run .never id s ⟨c, []⟩).2.log ∧
        Progress.run (.afterChunks n) id s ⟨c, []⟩ = (.done (), p) := by
  have hfull := runs_run .never id 0 s ⟨c, []⟩
  have hstopped := runs_run (.afterChunks n) id 0 s ⟨c, []⟩
  rcases exists_cut hn .still id s c with
    ⟨ended, q, hruns, hlt, -⟩ | ⟨k, later, p, q, hcut, hruns, hq, hsuffix⟩
  · obtain ⟨-, hend⟩ := hruns.unique hfull
    rw [hend] at hle
    omega
  · obtain ⟨houtcome, hend⟩ := hruns.unique hstopped
    -- Nothing happens around this run, so it ends at the point itself.
    have hp : q = p := by
      rcases hq with hq | hq
      · exact hq
      · exact hq
    exact ⟨k, later, p, hcut, hsuffix _ _ hfull, Prod.ext houtcome (hend.trans hp)⟩

end Run

end Progress

namespace Client

open Progress

variable {n : Nat} {call : Call} {s : Scenario}

/-- Stopping a run, or a follow, at its `n`-th chunk cuts it there. If it has fewer chunks when
nobody stops it, nothing changes. Otherwise it is done at the point where the chunk has been told
of: it has the events up to this one, and its client is the one of that point, so nothing more was
read or written. The same holds whatever happens to the connection meanwhile, also where the run
that nobody stops never ends. -/
theorem call_cut_at_chunk (hn : 0 < n) (hcall : call.scenario? = some s) (id : Identity)
    (c : Client) :
    (Event.chunkCount (c.call .never id call).2.log < n →
      c.call (.afterChunks n) id call = c.call .never id call) ∧
    (n ≤ Event.chunkCount (c.call .never id call).2.log →
      ∃ k later p, CutPoint .still id s ⟨c, []⟩ n k later p ∧
        p.log <:+ (c.call .never id call).2.log ∧
          c.call (.afterChunks n) id call = (.done, p)) ∧
    ∀ around,
      (∃ ended q, Runs around .never id 0 s ⟨c, []⟩ ended q ∧ Event.chunkCount q.log < n ∧
          Runs around (.afterChunks n) id 0 s ⟨c, []⟩ ended q) ∨
        ∃ k later p q, CutPoint around id s ⟨c, []⟩ n k later p ∧
          Runs around (.afterChunks n) id 0 s ⟨c, []⟩ (.done ()) q ∧
            (q = p ∨ q = p.amid around k) ∧
              ∀ ended' q', Runs around .never id 0 s ⟨c, []⟩ ended' q' → p.log <:+ q'.log := by
  rw [call_of_scenario? hcall, call_of_scenario? hcall]
  refine ⟨?_, ?_, fun around => exists_cut hn around id s c⟩
  · intro hlt
    rw [run_eq_of_chunkCount_lt hn hlt]
  · intro hle
    obtain ⟨k, later, p, hcut, hsuffix, hrun⟩ := exists_cutPoint_run hn hle
    refine ⟨k, later, p, hcut, hsuffix, ?_⟩
    rw [hrun]
    rfl

/-- A scenario that reads once and then follows, over two chunks. It is stopped between the two. -/
theorem call_cut_at_chunk_first : ∃ (id : Identity) (s : Scenario) (c : Client) (p : Progress),
    start (Settings.standard "unix:/s") { arriving := [.data [0x31], .data [0x32]] } = .ok c ∧
      c.call (.afterChunks 1) id (.run s) = (.done, p) ∧ p.log = [.frame [0x31]] ∧
      p.client.connection.arriving = [.data [0x32]] ∧
      (c.call .never id (.run s)).2.log = [.frame [0x32], .frame [0x31]] := by
  let id : Identity := { sender := ⟨"A", by decide⟩, target := ⟨"B", by decide⟩ }
  let s : Scenario := { name := "watch", steps := [.receive], follows := true }
  let c : Client :=
    { settings := Settings.standard "unix:/s"
      settings_valid := by decide +kernel
      session := ⟨.connected, false⟩
      answer := []
      connection := { arriving := [.data [0x31], .data [0x32]] } }
  obtain ⟨-, hcut, -⟩ :=
    call_cut_at_chunk (n := 1) (by decide) (show Call.scenario? (.run s) = some s from rfl) id c
  obtain ⟨-, -, p, -, -, hcall⟩ := hcut (by decide +kernel)
  have hp : p = (c.call (.afterChunks 1) id (.run s)).2 := (congrArg Prod.snd hcall).symm
  refine ⟨id, s, c, p, rfl, hcall, ?_⟩
  rw [hp]
  decide +kernel

end Client

end FixClient
