import FixClient.Proofs.Client.Reception

/-!
# The answer that is kept

While a Logon is pending and its answer is checked, what has been read of the answer is kept. It
is added to by undecided chunks, and given up by a Logon that is sent and by a check that accepts
or refuses. The end of the stream leaves it as it is. So between any two acts it is empty or it is
all that was read since the answer began: too little to show a type, and not more than the limit.
-/

namespace FixClient

namespace Act

variable {a : Act} {acts : List Act}

/-- An answer is the end of what was read. -/
theorem answer_suffix (acts : List Act) : answer acts <:+ bytesRead acts := by
  have hacts : (acts.takeWhile fun a => !a.restarts).reverse <:+ acts.reverse :=
    List.reverse_suffix.mpr (List.takeWhile_prefix _)
  obtain ⟨earlier, hearlier⟩ := hacts
  exact ⟨earlier.flatMap bytes, by rw [answer, bytesRead, ← hearlier, List.flatMap_append]⟩

end Act

namespace Client

variable {c₀ c after : Client} {a : Act} {acts : List Act} {m : Message}
  {result : Except Error Bytes} {reading : Reading} {outcome : Outcome (Option Bytes)}

theorem Does.bytesRead_eq (hc : c.Opened) (h : c.Does a after) :
    after.connection.bytesRead = c.connection.bytesRead ++ a.bytes := by
  cases a with
  | sent m result =>
      rw [Connection.bytesRead, h.sends.readings_eq]
      exact (List.append_nil _).symm
  | heard reading outcome =>
      rw [(h.hears hc).connection_eq]
      cases h with
      | receive hopen hreading => exact hreading ▸ Connection.bytesRead_read _ _

theorem History.bytesRead_eq (h : History c₀ acts c) (h₀ : c₀.Opened) :
    c.connection.bytesRead = c₀.connection.bytesRead ++ Act.bytesRead acts := by
  induction h with
  | start => exact (List.append_nil _).symm
  | next h hdoes ih =>
      rw [hdoes.bytesRead_eq (h.opened h₀), ih, Act.bytesRead_cons, List.append_assoc]
  | moved _ _ _ hreadings ih => rwa [Connection.bytesRead, hreadings]

/-- The kept part of an answer: all of it so far, and the check of it is open. -/
structure Keeps (acts : List Act) (c : Client) : Prop where
  verifyLogon : c.settings.verifyLogon = true
  awaited : c.session.state = .connected ∧ c.session.logonPending = true ∨
    c.session.state = .closed
  undecided : LogonCheck.ofAnswer c.answer = .undecided
  answer_eq : c.answer = Act.answer acts

namespace Keeps

theorem moved (h : Keeps acts c) (connection : Connection) :
    Keeps acts { c with connection := connection } :=
  ⟨h.verifyLogon, h.awaited, h.undecided, h.answer_eq⟩

theorem cons (h : Keeps acts c) (ha : a.restarts = false) (hbytes : a.bytes = []) :
    Keeps (a :: acts) c := by
  refine ⟨h.verifyLogon, h.awaited, h.undecided, ?_⟩
  rw [Act.answer_cons ha, hbytes, List.append_nil]
  exact h.answer_eq

theorem logonPending (h : Keeps acts c) (hopen : c.session.state ≠ .closed) :
    c.session.logonPending = true :=
  (h.awaited.resolve_right hopen).2

end Keeps

/-- A send leaves what is kept, or gives it up for a new answer. -/
theorem Sends.keeps (hsends : c.Sends m result after) (h : c.answer = [] ∨ Keeps acts c) :
    after.answer = [] ∨ Keeps (.sent m result :: acts) after := by
  cases hsends with
  | refused | unwritable => exact h.imp id fun h => h.cons rfl rfl
  | broken => exact h.imp id fun h => (h.cons rfl rfl).moved _
  | @plain frame _ _ _ _ hm =>
      have hrestarts : (Act.sent m (.ok frame)).restarts = false := by
        simp [Act.restarts, Act.isLogonSent, Act.isViolation, hm]
      exact h.imp id fun h => (h.cons hrestarts rfl).moved _
  | logon => exact .inl rfl

/-- A read adds to what is kept while the check is open, and gives it up with the verdict. Where no
answer is checked, nothing is kept to begin with. -/
theorem Hears.keeps (hhears : c.Hears reading outcome after) (hc : c.Opened)
    (hopen : c.session.state ≠ .closed) (htracked : Tracked acts c)
    (h : c.answer = [] ∨ Keeps acts c) :
    after.answer = [] ∨ Keeps (.heard reading outcome :: acts) after := by
  cases hhears with
  | failure | timeout | waiting => exact h.imp id fun h => h.cons rfl rfl
  | ended =>
      have hended : Keeps acts c → Keeps (.heard .endOfStream (.done none) :: acts) c :=
        fun h => h.cons rfl rfl
      exact h.imp id fun h => ⟨h.verifyLogon, .inr rfl, h.undecided, (hended h).answer_eq⟩
  | plain hpending =>
      refine .inl (h.resolve_right fun h => ?_)
      exact absurd (h.logonPending hopen) (by simp [hpending])
  | trusted _ hverify =>
      refine .inl (h.resolve_right fun h => ?_)
      exact absurd h.verifyLogon (by simp [hverify])
  | undecided hpending hverify hcheck =>
      -- Nothing need have been kept before, so where the answer began is known from the acts.
      refine .inr ⟨hverify, .inl ⟨hc.state_of_pending hpending, hpending⟩, hcheck, ?_⟩
      rw [Act.answer_cons rfl, ← htracked.answer_eq hpending hverify]
      rfl
  | accepted | refused => exact .inl rfl

theorem Does.keeps (hdoes : c.Does a after) (hc : c.Opened) (htracked : Tracked acts c)
    (h : c.answer = [] ∨ Keeps acts c) : after.answer = [] ∨ Keeps (a :: acts) after := by
  cases a with
  | sent m result => exact hdoes.sends.keeps h
  | heard reading outcome =>
      have hopen : c.session.state ≠ .closed := by
        cases hdoes with
        | receive hopen => exact hopen
      have htracked' : Tracked acts c.afterRead := ⟨htracked.logon_mem, htracked.answer_eq⟩
      have h' : c.afterRead.answer = [] ∨ Keeps acts c.afterRead := h.imp id fun h => h.moved _
      exact (hdoes.hears hc).keeps (hc.of_session_eq rfl) hopen htracked' h'

theorem History.keeps (h : History c₀ acts c) (h₀ : c₀.Opened)
    (hpending : c₀.session.logonPending = false) (hanswer : c₀.answer = []) :
    c.answer = [] ∨ Keeps acts c := by
  induction h with
  | start => exact .inl hanswer
  | next h hdoes ih => exact hdoes.keeps (h.opened h₀) (h.tracked h₀ hpending) ih
  | moved _ connection _ _ ih => exact ih.imp id fun h => h.moved connection

/-- A client with valid settings can be started over every connection. Every script of sends,
receives, follows and runs, however the stream behaves between and during them, takes every history
on by the acts that its moves and their turns show. At every point of every history the kept answer
is empty, or it is checked, the Logon is pending or the stream has ended, the answer is at most 256
bytes, the peek into it is open, and it is the end of what was read so far: all since the Logon was
sent or an answer refused. -/
theorem exists_start_keeps {settings : Settings} (h : settings.fault? = none)
    (connection : Connection) :
    ∃ c₀, start settings connection = .ok c₀ ∧
      (∀ (observer : StopRule) (id : Identity) (moves : List Move) (s : Stage) (acts : List Act),
        History c₀ acts s.client →
          ∃ later, s.Plays observer id moves (s.play observer id moves).1 later
              (s.play observer id moves).2 ∧
            History c₀ (later ++ acts) (s.play observer id moves).2.client) ∧
      ∀ acts c, History c₀ acts c →
        c.connection.bytesRead = connection.bytesRead ++ Act.bytesRead acts ∧
          (c.answer = [] ∨ settings.verifyLogon = true ∧
            (c.session.state = .connected ∧ c.session.logonPending = true ∨
              c.session.state = .closed) ∧
            c.answer.length ≤ 256 ∧ Frame.peekMsgType c.answer = .ok none ∧
            c.answer = Act.answer acts ∧ c.answer <:+ Act.bytesRead acts) := by
  let c₀ : Client :=
    { settings := settings, settings_valid := h, session := ⟨.connected, false⟩, answer := [],
      connection := connection }
  have h₀ : c₀.Opened := opened_of_connected rfl
  refine ⟨c₀, start_eq h connection, ?_, ?_⟩
  · intro observer id moves s acts hhistory
    exact Stage.exists_history_play observer id moves hhistory
  · intro acts c hhistory
    refine ⟨hhistory.bytesRead_eq h₀, (hhistory.keeps h₀ rfl rfl).imp id ?_⟩
    intro hkeeps
    have hsettings : c.settings = settings := hhistory.settings_eq h₀
    obtain ⟨hpeek, hlen⟩ := LogonCheck.peekMsgType_of_undecided hkeeps.undecided
    have hsuffix : c.answer <:+ Act.bytesRead acts := hkeeps.answer_eq ▸ Act.answer_suffix acts
    exact ⟨hsettings ▸ hkeeps.verifyLogon, hkeeps.awaited, hlen, hpeek, hkeeps.answer_eq, hsuffix⟩

/-- The end of the stream in the middle of a checked answer. What was kept of it stays. -/
theorem exists_start_keeps_ended : ∃ (acts : List Act) (c₀ c : Client),
    start { Settings.standard "unix:/s" with verifyLogon := true }
      { arriving := [.data (Utf8.encode "8=FIX.4.4\x019=5\x013"), .endOfStream] } = .ok c₀ ∧
      History c₀ acts c ∧ c.session.state = .closed ∧
      c.answer = Utf8.encode "8=FIX.4.4\x019=5\x013" ∧ c.answer.length ≤ 256 ∧
        Frame.peekMsgType c.answer = .ok none ∧ c.answer <:+ Act.bytesRead acts := by
  obtain ⟨c₀, hstart, hplay, hkept⟩ := exists_start_keeps
    (show Settings.fault? { Settings.standard "unix:/s" with verifyLogon := true } = none by
      decide +kernel)
    { arriving := [.data (Utf8.encode "8=FIX.4.4\x019=5\x013"), .endOfStream] }
  obtain ⟨acts, -, hacts⟩ := hplay StopRule.never
    { sender := ⟨"A", by decide⟩, target := ⟨"B", by decide⟩ }
    [.call (.send ⟨[⟨.beginString, .text "FIX.4.4"⟩, ⟨.msgType, .text "A"⟩]⟩), .call .receive,
      .call .receive] ⟨c₀, false, []⟩ [] .start
  obtain ⟨-, hempty | ⟨-, -, hlen, hpeek, -, hsuffix⟩⟩ := hkept _ _ hacts
  · cases hstart
    exact absurd hempty (by decide +kernel)
  · refine ⟨_, c₀, _, hstart, hacts, ?_, ?_, hlen, hpeek, hsuffix⟩
    · cases hstart
      decide +kernel
    · cases hstart
      decide +kernel

end Client

end FixClient
