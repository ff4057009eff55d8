import FixClient.Proofs.Client.AnswerSplit
import FixClient.Proofs.Client.Lifecycle
import FixClient.Proofs.Client.Passage
import FixClient.Scenario.Builtin
import Mathlib.Data.Prod.Basic

/-!
# Sending after a Logon

Every built-in scenario logs on first and then waits for one read, not for the whole answer.
So when the answer is checked, what follows the Logon is sent either with the Logon
acknowledged, or while all that has been read is the front of an answer which does not show
its type yet. It is never sent after an answer that has shown another type.
-/

namespace FixClient

theorem Request.msgType?_build (id : Identity) (r : Request) :
    (r.build id).msgType? = some r.msgType := by
  have hget : (r.build id).get? .msgType = some (.text r.msgType.code) := rfl
  have hcode : MsgType.ofCode r.msgType.code = r.msgType := by
    cases r <;> rfl
  rw [Message.msgType?, hget]
  simp [Value.display, Value.shown, hcode]

namespace Scenario

/-- A scenario that sends a Logon, waits for one read and never sends a Logon again. -/
def LogsOnFirst (logon : Logon) (tail : List Step) (s : Scenario) : Prop :=
  s.steps = .send (.logon logon) :: .receive :: tail ∧
    ∀ r, .send r ∈ tail → r.msgType ≠ .logon

theorem exists_logsOnFirst {name : String} {logon : Logon} {s : Scenario}
    (h : builtin? name logon = some s) : ∃ tail, s.LogsOnFirst logon tail := by
  obtain ⟨follow, hfollow, rfl⟩ := Option.map_eq_some_iff.mp h
  unfold builtinTail at hfollow
  -- Apart from the Logon, a built-in scenario has closed steps.
  have hclosed : ∀ {tail : List Step}, (∀ r ∈ tail.filterMap Step.request?, r.msgType ≠ .logon) →
      ∀ r, .send r ∈ tail → r.msgType ≠ .logon :=
    fun htail r hr => htail r (List.mem_filterMap.mpr ⟨_, hr, rfl⟩)
  split at hfollow <;> cases hfollow
  all_goals exact ⟨_, rfl, hclosed (by decide)⟩

end Scenario

namespace Client

variable {c after : Client} {m : Message} {frame heard chunk : Bytes}

/-- A client that has read so much since its Logon and has found nothing but a Logon in it. -/
inductive Trusts (heard : Bytes) (c : Client) : Prop
  | waits (hawaits : Awaits heard c) (hpeek : Frame.peekMsgType heard = .ok none)
      (hlen : heard.length ≤ logonAnswerLimit)
  | loggedOn (hsession : c.session = ⟨.loggedOn, false⟩)
      (hpeek : Frame.peekMsgType heard = .ok (some .logon))

namespace Trusts

theorem opened (h : Trusts heard c) : c.Opened := by
  cases h with
  | waits hawaits => exact hawaits.opened
  | loggedOn hsession => constructor <;> simp [hsession]

theorem of_send (h : Trusts heard c) (hm : m.msgType? ≠ some .logon)
    (hsend : c.send m = (.ok frame, after)) : Trusts heard after := by
  have hdoes : c.Does (.sent m (.ok frame)) after := .send hsend
  cases h with
  | waits hawaits hpeek hlen => exact .waits (hawaits.of_sent hdoes hm) hpeek hlen
  | loggedOn hsession hpeek =>
      cases hdoes.sends with
      | plain => exact .loggedOn hsession hpeek
      | logon _ _ _ hm' => exact absurd hm' hm

theorem of_receive (h : Trusts heard c) (hreceive : c.receive = (.done (some chunk), after)) :
    Trusts (heard ++ chunk) after := by
  have hdoes := Does.of_receive h.opened hreceive
  cases h with
  | waits hawaits hpeek hlen =>
      have hchunk := hawaits.of_chunk hdoes
      cases hcheck : LogonCheck.ofAnswer (heard ++ chunk) with
      | undecided =>
          rw [hcheck] at hchunk
          obtain ⟨hpeek', hlen'⟩ := LogonCheck.peekMsgType_of_undecided hcheck
          exact .waits hchunk.2 hpeek' hlen'
      | accepted =>
          rw [hcheck] at hchunk
          exact .loggedOn hchunk.2 (LogonCheck.peekMsgType_of_accepted hcheck)
      | refused received =>
          rw [hcheck] at hchunk
          cases hchunk.1
  | loggedOn hsession hpeek =>
      have hpeek' : Frame.peekMsgType (heard ++ chunk) = .ok (some .logon) := by
        rw [Frame.peekMsgType_of_prefix (List.prefix_append _ _) (by simp [hpeek]), hpeek]
      have hnot : c.afterRead.session.logonPending ≠ true := by simp [afterRead, hsession]
      cases hdoes.hears (Trusts.loggedOn hsession hpeek).opened with
      | plain => exact .loggedOn hsession hpeek'
      | trusted hpending | undecided hpending | accepted hpending => exact absurd hpending hnot

theorem moved (h : Trusts heard c) (connection : Connection) :
    Trusts heard { c with connection := connection } := by
  cases h with
  | waits hawaits hpeek hlen =>
      have hawaits' : Awaits heard { c with connection := connection } :=
        ⟨hawaits.verifyLogon, hawaits.session_eq, hawaits.answer_eq⟩
      exact .waits hawaits' hpeek hlen
  | loggedOn hsession hpeek => exact .loggedOn hsession hpeek

end Trusts

end Client

namespace Progress

open Client

variable {around : Surroundings} {stop : StopRule} {id : Identity} {logon : Logon}
  {tail : List Step} {s later rest : Scenario} {p q after : Progress} {step : Step} {n : Nat}

/-- How far a run has come that logs on first. -/
inductive Stands (logon : Logon) (tail : List Step) (later : Scenario) (q : Progress) : Prop
  | begins (hsteps : later.steps = .send (.logon logon) :: .receive :: tail) (hlog : q.log = [])
      (hverify : q.client.settings.verifyLogon = true)
      (hsession : q.client.session = ⟨.connected, false⟩)
  | asks (hsteps : later.steps = .receive :: tail)
      (htrusts : Trusts (Event.received q.log) q.client)
  | goesOn (hsteps : later.steps <:+ tail) (htrusts : Trusts (Event.received q.log) q.client)
      (hne : Event.received q.log ≠ [])

/-- A chunk is trusted, or it is not received. -/
theorem Takes.trusts_receive (h : p.Takes stop id .receive (.done true) after)
    (htrusts : Trusts (Event.received p.log) p.client) :
    Trusts (Event.received after.log) after.client ∧ Event.received after.log ≠ [] := by
  cases h with
  | @heard chunk c _ hreceive =>
      have hchunk : chunk ≠ [] := (Does.of_receive htrusts.opened hreceive).chunk_ne_nil
      rw [Event.received_noteChunk]
      constructor
      · exact htrusts.of_receive hreceive
      · exact List.append_ne_nil_of_right_ne_nil _ hchunk

theorem Takes.trusts_send {r : Request} (h : p.Takes stop id (.send r) (.done true) after)
    (hr : r.msgType ≠ .logon) (htrusts : Trusts (Event.received p.log) p.client) :
    Trusts (Event.received after.log) after.client ∧
      Event.received after.log = Event.received p.log := by
  cases h with
  | @sent _ frame c _ hsend =>
      rw [Event.received_sent]
      refine ⟨htrusts.of_send ?_ hsend, rfl⟩
      rw [r.msgType?_build id]
      exact fun heq => hr (Option.some.inj heq)

theorem Takes.exists_sent {r : Request} (h : p.Takes stop id (.send r) (.done true) after) :
    ∃ frame, .sent frame ∈ after.log := by
  cases h with
  | sent => exact ⟨_, List.mem_cons_self⟩

theorem Stands.of_takes (h : Stands logon tail later q)
    (htail : ∀ r, .send r ∈ tail → r.msgType ≠ .logon) (hnext : later.next? = some (step, rest))
    (htakes : q.Takes stop id step (.done true) after) : Stands logon tail rest after := by
  -- The first two steps are known, so a run that follows is met in the last case only.
  have hleft := Scenario.next?_eq_some hnext
  cases h with
  | begins hsteps hlog hverify hsession =>
      rw [hsteps] at hleft
      rcases hleft with ⟨hcons, -⟩ | ⟨hnil, -⟩
      · obtain ⟨rfl, hrest⟩ := List.cons.inj hcons
        cases htakes with
        | @sent _ frame c _ hsend =>
            have hawaits : Awaits [] c :=
              .of_logon hverify hsession ((Request.logon logon).msgType?_build id) hsend
            refine .asks hrest.symm ?_
            rw [hlog]
            exact .waits hawaits rfl (Nat.zero_le _)
      · cases hnil
  | asks hsteps htrusts =>
      rw [hsteps] at hleft
      rcases hleft with ⟨hcons, -⟩ | ⟨hnil, -⟩
      · obtain ⟨rfl, hrest⟩ := List.cons.inj hcons
        obtain ⟨htrusts', hne⟩ := htakes.trusts_receive htrusts
        exact .goesOn (hrest ▸ List.suffix_rfl) htrusts' hne
      · cases hnil
  | goesOn hsteps htrusts hne =>
      rcases hleft with ⟨hcons, -⟩ | ⟨hnil, -, rfl, rfl⟩
      · rw [hcons] at hsteps
        have hrest : rest.steps <:+ tail := (List.suffix_cons _ _).trans hsteps
        cases step with
        | send r =>
            have hr : r.msgType ≠ .logon := htail r (hsteps.subset List.mem_cons_self)
            obtain ⟨htrusts', hsame⟩ := htakes.trusts_send hr htrusts
            exact .goesOn hrest htrusts' (hsame ▸ hne)
        | receive =>
            obtain ⟨htrusts', hne'⟩ := htakes.trusts_receive htrusts
            exact .goesOn hrest htrusts' hne'
      · obtain ⟨htrusts', hne'⟩ := htakes.trusts_receive htrusts
        exact .goesOn hsteps htrusts' hne'

theorem Stands.amid (h : Stands logon tail later q) (around : Surroundings) (n : Nat) :
    Stands logon tail later (q.amid around n) := by
  cases h with
  | begins hsteps hlog hverify hsession => exact .begins hsteps hlog hverify hsession
  | asks hsteps htrusts => exact .asks hsteps (htrusts.moved _)
  | goesOn hsteps htrusts hne => exact .goesOn hsteps (htrusts.moved _) hne

theorem Passes.stands {c : Client} (h : Passes around stop id s ⟨c, []⟩ n later q)
    (hs : s.LogsOnFirst logon tail) (hverify : c.settings.verifyLogon = true)
    (hsession : c.session = ⟨.connected, false⟩) : Stands logon tail later q := by
  obtain ⟨hsteps, htail⟩ := hs
  induction h with
  | start => exact .begins hsteps rfl hverify hsession
  | @next n _ _ _ _ _ _ hnext hstep ih =>
      exact (ih.amid around n).of_takes htail hnext (takes hstep)

/-- A run of a built-in scenario that checks the answer to its Logon, over any connection and
whatever happens to this meanwhile. When it sends something after the Logon, it has read something
before. Either the session is logged on and all that was read shows the type of a Logon, or the
answer is still awaited: at most 256 bytes of it were read, and its type is not among them. -/
theorem builtin_run_sends {name : String} {settings : Settings}
    (hs : Scenario.builtin? name logon = some s) (hvalid : settings.fault? = none)
    (hverify : settings.verifyLogon = true) (connection : Connection) (stop : StopRule)
    (id : Identity) :
    ∃ c₀, Client.start settings connection = .ok c₀ ∧
      (∀ n later q, Passes .still stop id s ⟨c₀, []⟩ n later q →
        q.run stop id later = Progress.run stop id s ⟨c₀, []⟩) ∧
      ∀ around n later rest q r frame, Passes around stop id s ⟨c₀, []⟩ n later q →
        later.next? = some (.send r, rest) → .sent frame ∈ q.log →
          Event.received q.log ≠ [] ∧
            (q.client.session.state = .loggedOn ∧
                Frame.peekMsgType (Event.received q.log) = .ok (some .logon) ∨
              q.client.session = ⟨.connected, true⟩ ∧
                Frame.peekMsgType (Event.received q.log) = .ok none ∧
                  (Event.received q.log).length ≤ 256) := by
  obtain ⟨c₀, hstart⟩ := Client.exists_start hvalid connection
  obtain ⟨hsettings, hsession⟩ := Client.of_start hstart
  obtain ⟨tail, hlogsOn⟩ := Scenario.exists_logsOnFirst hs
  refine ⟨c₀, hstart, fun n later q hpasses => hpasses.run_eq, ?_⟩
  intro around n later rest q r frame hpasses hnext hsent
  have hcons : later.steps = .send r :: rest.steps := by
    rcases Scenario.next?_eq_some hnext with ⟨hcons, -⟩ | ⟨-, -, hreceive, -⟩
    · exact hcons
    · cases hreceive
  cases hpasses.stands hlogsOn (hsettings ▸ hverify) hsession with
  | begins _ hlog =>
      rw [hlog] at hsent
      cases hsent
  | asks hsteps =>
      rw [hcons] at hsteps
      cases hsteps
  | goesOn _ htrusts hne =>
      refine ⟨hne, ?_⟩
      cases htrusts with
      | loggedOn hsession' hpeek => exact .inl ⟨congrArg Session.state hsession', hpeek⟩
      | waits hawaits hpeek hlen => exact .inr ⟨hawaits.session_eq, hpeek, hlen⟩

/-- A Logon that is answered at once, and the Logout after it. -/
theorem builtin_run_sends_loggedOn :
    ∃ (s later rest : Scenario) (n : Nat) (q : Progress) (id : Identity) (c₀ : Client),
      Scenario.builtin? "logout" ⟨"trader", "secret", 5, .noEncryption, true⟩ = some s ∧
        Client.start { Settings.standard "unix:/s" with verifyLogon := true }
          { arriving := [.data (Utf8.encode "8=FIX.4.4\x019=5\x0135=A\x01")] } = .ok c₀ ∧
        Passes .still StopRule.never id s ⟨c₀, []⟩ n later q ∧
        later.next? = some (.send .logout, rest) ∧ q.client.session.state = .loggedOn := by
  let id : Identity := { sender := ⟨"A", by decide⟩, target := ⟨"B", by decide⟩ }
  let logon : Logon := ⟨"trader", "secret", 5, .noEncryption, true⟩
  let s : Scenario :=
    { name := "logout", steps := [.send (.logon logon), .receive, .send .logout, .receive] }
  let c₀ : Client :=
    { settings := { Settings.standard "unix:/s" with verifyLogon := true }
      settings_valid := by decide +kernel
      session := ⟨.connected, false⟩
      answer := []
      connection := { arriving := [.data (Utf8.encode "8=FIX.4.4\x019=5\x0135=A\x01")] } }
  have hs : Scenario.builtin? "logout" logon = some s := rfl
  obtain ⟨c, hstart, -, hsends⟩ :=
    builtin_run_sends hs c₀.settings_valid rfl c₀.connection StopRule.never id
  obtain rfl : c₀ = c :=
    Except.ok.inj ((Client.start_eq c₀.settings_valid c₀.connection).symm.trans hstart)
  obtain ⟨q₁, q₂, hlogon, hanswer, hconnected⟩ : ∃ q₁ q₂ : Progress,
      Progress.step .never id (.send (.logon logon)) ⟨c₀, []⟩ = (.done true, q₁) ∧
        q₁.step .never id .receive = (.done true, q₂) ∧ q₂.client.session.state ≠ .connected :=
    ⟨_, _, Prod.fst_eq_iff.mp (by decide +kernel), Prod.fst_eq_iff.mp (by decide +kernel),
      by decide +kernel⟩
  obtain ⟨frame, hframe⟩ := (takes hlogon).exists_sent
  have hbegin : Passes .still StopRule.never id s ⟨c₀, []⟩ 0 s ⟨c₀, []⟩ := .start
  have hpasses := (hbegin.next rfl hlogon).next rfl hanswer
  refine ⟨s, _, _, _, _, id, c₀, rfl, hstart, hpasses, rfl, ?_⟩
  obtain ⟨-, ⟨hstate, -⟩ | ⟨hsession, -⟩⟩ := hsends _ _ _ _ _ _ _ hpasses rfl
    ((takes hanswer).suffix_log.subset hframe)
  · exact hstate
  · exact absurd (congrArg Session.state hsession) hconnected

/-- A Logon of whose answer the front is read. The Logout after it is sent all the same. -/
theorem builtin_run_sends_while_connected :
    ∃ (s later rest : Scenario) (n : Nat) (q after : Progress) (frame : Bytes) (id : Identity)
      (c₀ : Client),
      Scenario.builtin? "logout" ⟨"trader", "secret", 5, .noEncryption, true⟩ = some s ∧
        Client.start { Settings.standard "unix:/s" with verifyLogon := true }
          { arriving := [.data (Utf8.encode "8=FIX.4.4\x019=61\x013")] } = .ok c₀ ∧
        Passes .still StopRule.never id s ⟨c₀, []⟩ n later q ∧
        later.next? = some (.send .logout, rest) ∧ .sent frame ∈ q.log ∧
        q.step StopRule.never id (.send .logout) = (.done true, after) ∧
        q.client.session.state ≠ .loggedOn := by
  let id : Identity := { sender := ⟨"A", by decide⟩, target := ⟨"B", by decide⟩ }
  let logon : Logon := ⟨"trader", "secret", 5, .noEncryption, true⟩
  let s : Scenario :=
    { name := "logout", steps := [.send (.logon logon), .receive, .send .logout, .receive] }
  let c₀ : Client :=
    { settings := { Settings.standard "unix:/s" with verifyLogon := true }
      settings_valid := by decide +kernel
      session := ⟨.connected, false⟩
      answer := []
      connection := { arriving := [.data (Utf8.encode "8=FIX.4.4\x019=61\x013")] } }
  obtain ⟨q₁, q₂, q₃, hlogon, hfront, hlogout, hstate⟩ : ∃ q₁ q₂ q₃ : Progress,
      Progress.step .never id (.send (.logon logon)) ⟨c₀, []⟩ = (.done true, q₁) ∧
        q₁.step .never id .receive = (.done true, q₂) ∧
        q₂.step .never id (.send .logout) = (.done true, q₃) ∧
        q₂.client.session.state ≠ .loggedOn :=
    ⟨_, _, _, Prod.fst_eq_iff.mp (by decide +kernel), Prod.fst_eq_iff.mp (by decide +kernel),
      Prod.fst_eq_iff.mp (by decide +kernel), by decide +kernel⟩
  obtain ⟨frame, hframe⟩ := (takes hlogon).exists_sent
  have hbegin : Passes .still StopRule.never id s ⟨c₀, []⟩ 0 s ⟨c₀, []⟩ := .start
  exact ⟨s, _, _, _, q₂, q₃, frame, id, c₀, rfl, Client.start_eq c₀.settings_valid c₀.connection,
    (hbegin.next rfl hlogon).next rfl hfront, rfl, (takes hfront).suffix_log.subset hframe, hlogout,
    hstate⟩

end Progress

end FixClient
