import FixClient.Proofs.Client.Script
import FixClient.Proofs.Session.LogonCheck

/-!
# The life of a client

What one act can change is read off the rules of a client; what holds along every history
follows by induction. Two facts are carried along: a pending Logon was sent, and the answer
kept while it is checked is all that was read since the Logon was sent or an earlier answer
was refused.
-/

namespace FixClient

namespace Act

def isLogonSent : Act → Bool
  | .sent m (.ok _) => m.msgType? == some .logon
  | _ => false

def isViolation : Act → Bool
  | .heard _ (.failed (.session (.protocolViolation _))) => true
  | _ => false

/-- An answer to a Logon begins anew. -/
def restarts (a : Act) : Bool := a.isLogonSent || a.isViolation

/-- The bytes read since the last Logon was sent or the last answer refused, whichever was
later. The acts come latest first. -/
def answer (acts : List Act) : Bytes :=
  (acts.takeWhile fun a => !a.restarts).reverse.flatMap bytes

variable {a : Act} {acts : List Act}

theorem exists_of_isLogonSent (h : a.isLogonSent = true) :
    ∃ m frame, a = .sent m (.ok frame) ∧ m.msgType? = some .logon := by
  rcases a with ⟨m, e | frame⟩ | ⟨reading, outcome⟩
  · cases h
  · exact ⟨m, frame, rfl, beq_iff_eq.mp h⟩
  · cases h

theorem answer_cons_of_restarts (h : a.restarts = true) : answer (a :: acts) = [] := by
  simp [answer, h]

theorem answer_cons (h : a.restarts = false) : answer (a :: acts) = answer acts ++ a.bytes := by
  simp [answer, h]

end Act

theorem SessionState.rank_le_closed (s : SessionState) : s.rank ≤ closed.rank := by
  cases s <;> decide

namespace Client

variable {c₀ c after : Client} {a : Act} {acts : List Act} {m : Message}
  {result : Except Error Bytes} {reading : Reading} {outcome : Outcome (Option Bytes)}

section Start

variable {settings : Settings} {connection : Connection}

theorem start_eq (h : settings.fault? = none) (connection : Connection) :
    start settings connection = .ok
      { settings := settings, settings_valid := h, session := ⟨.connected, false⟩, answer := [],
        connection := connection } := by
  unfold start
  split
  · next hfault => simp [h] at hfault
  · rfl

theorem exists_start (h : settings.fault? = none) (connection : Connection) :
    ∃ c, start settings connection = .ok c :=
  ⟨_, start_eq h connection⟩

theorem of_start (h : start settings connection = .ok c) :
    c.settings = settings ∧ c.session = ⟨.connected, false⟩ := by
  unfold start at h
  split at h
  · cases h
  · cases h
    exact ⟨rfl, rfl⟩

end Start

section Steps

theorem Does.rank_le (hc : c.Opened) (h : c.Does a after) :
    c.session.state.rank ≤ after.session.state.rank := by
  -- A session with a pending Logon is connected, so it can only gain by logging on.
  have hlogOn : c.session.logonPending = true →
      c.session.state.rank ≤ SessionState.loggedOn.rank := by
    intro hpending
    rw [hc.state_of_pending hpending]
    decide
  cases a with
  | sent m result => exact Nat.le_of_eq (congrArg SessionState.rank h.sends.state_eq.symm)
  | heard reading outcome =>
      cases h.hears hc with
      | ended => exact SessionState.rank_le_closed _
      | failure | timeout | waiting | plain | undecided | refused => exact Nat.le_refl _
      | trusted hpending => exact hlogOn hpending
      | accepted hpending => exact hlogOn hpending

theorem Does.closed (hc : c.Opened) (h : c.Does a after) (hopen : c.session.state ≠ .closed)
    (hclosed : after.session.state = .closed) : a = .heard .endOfStream (.done none) := by
  cases a with
  | sent m result => exact absurd (h.sends.state_eq.symm.trans hclosed) hopen
  | heard reading outcome =>
      cases h.hears hc with
      | ended => rfl
      | failure | timeout | waiting | plain | undecided | refused => exact absurd hclosed hopen
      | trusted | accepted => cases hclosed

/-- A session is acknowledged by a chunk, and only while a Logon is pending. Where the answer is
checked, the chunk completes one that is accepted. -/
theorem Does.acknowledged (hc : c.Opened) (h : c.Does a after)
    (hbefore : c.session.state ≠ .loggedOn) (hafter : after.session.state = .loggedOn) :
    ∃ chunk, a = .heard (.chunk chunk) (.done (some chunk)) ∧ c.session.logonPending = true ∧
      (c.settings.verifyLogon = true →
        LogonCheck.ofAnswer (c.answer ++ chunk) = .accepted) := by
  cases a with
  | sent m result => exact absurd (h.sends.state_eq.symm.trans hafter) hbefore
  | heard reading outcome =>
      cases h.hears hc with
      | failure | timeout | waiting | plain | undecided | refused => exact absurd hafter hbefore
      | ended => cases hafter
      | trusted hpending hverify =>
          refine ⟨_, rfl, hpending, ?_⟩
          intro hverify'
          exact absurd (hverify'.symm.trans hverify) (by simp)
      | accepted hpending _ hcheck => exact ⟨_, rfl, hpending, fun _ => hcheck⟩

theorem Does.delivered {frame : Bytes} (h : c.Does (.sent m (.ok frame)) after) :
    m.encode = .ok frame ∧ after.connection.written = c.connection.written ++ frame ∧
      c.connection.flushFault = none := by
  cases h.sends with
  | plain _ he hd | logon _ he hd =>
      obtain ⟨hflush, hwritten⟩ := Connection.deliver_eq_ok hd
      exact ⟨he, hwritten, hflush⟩

theorem receive_ne_invalidState (hc : c.Opened) (expected current : SessionState) :
    c.receive.1 ≠ .failed (.session (.invalidState expected current)) := by
  by_cases hopen : c.session.state = .closed
  · rw [receive_of_closed hopen]
    simp
  · intro hfailed
    have hdoes : c.Does (.heard c.nextReading c.receive.1) c.receive.2 := .receive hopen rfl rfl
    rw [hfailed] at hdoes
    cases hreading : c.nextReading <;> rw [hreading] at hdoes <;> cases hdoes.hears hc

end Steps

/-- What a history knows of the pending Logon. -/
structure Tracked (acts : List Act) (c : Client) : Prop where
  logon_mem : c.session.logonPending = true → ∃ a ∈ acts, a.isLogonSent = true
  answer_eq : c.session.logonPending = true → c.settings.verifyLogon = true →
    c.answer = Act.answer acts

namespace Tracked

theorem logon_mem_cons (h : Tracked acts c) (a : Act) (hpending : c.session.logonPending = true) :
    ∃ l ∈ a :: acts, l.isLogonSent = true := by
  obtain ⟨l, hl, hlogon⟩ := h.logon_mem hpending
  exact ⟨l, List.mem_cons_of_mem a hl, hlogon⟩

theorem cons (h : Tracked acts c) (ha : a.restarts = false)
    (hbytes : a.bytes = []) (connection : Connection) :
    Tracked (a :: acts) { c with connection := connection } := by
  constructor
  · exact h.logon_mem_cons a
  · intro hpending hverify
    rw [Act.answer_cons ha, hbytes, List.append_nil]
    exact h.answer_eq hpending hverify

theorem of_not_pending (h : c.session.logonPending = false) : Tracked acts c := by
  constructor <;> simp [h]

theorem of_sends (h : Tracked acts c) (hsends : c.Sends m result after) :
    Tracked (.sent m result :: acts) after := by
  cases hsends with
  | refused | unwritable => exact h.cons rfl rfl c.connection
  | broken => exact h.cons rfl rfl _
  | plain _ _ _ hm => exact h.cons (by simp [Act.restarts, Act.isLogonSent, Act.isViolation, hm]) rfl _
  | logon _ _ _ hm =>
      constructor
      · intro _
        exact ⟨_, List.mem_cons_self, by simp [Act.isLogonSent, hm]⟩
      · intro _ _
        rw [Act.answer_cons_of_restarts (by simp [Act.restarts, Act.isLogonSent, hm])]

theorem of_hears (h : Tracked acts c) (hhears : c.Hears reading outcome after) :
    Tracked (.heard reading outcome :: acts) after := by
  cases hhears with
  | ended | trusted | accepted => exact of_not_pending rfl
  | plain hpending => exact of_not_pending hpending
  | failure | timeout | waiting => exact h.cons rfl rfl c.connection
  | undecided hpending hverify =>
      constructor
      · exact h.logon_mem_cons _
      · intro _ _
        rw [Act.answer_cons rfl, ← h.answer_eq hpending hverify]
        rfl
  | refused hpending =>
      constructor
      · exact h.logon_mem_cons _
      · intro _ _
        rw [Act.answer_cons_of_restarts rfl]

theorem of_does (h : Tracked acts c) (hc : c.Opened) (hdoes : c.Does a after) :
    Tracked (a :: acts) after := by
  cases a with
  | sent m result => exact h.of_sends hdoes.sends
  | heard reading outcome =>
      have h' : Tracked acts c.afterRead := ⟨h.logon_mem, h.answer_eq⟩
      exact h'.of_hears (hdoes.hears hc)

end Tracked

namespace History

theorem settings_eq (h : History c₀ acts c) (h₀ : c₀.Opened) : c.settings = c₀.settings := by
  induction h with
  | start => rfl
  | next h hdoes ih => exact (hdoes.settings_eq (h.opened h₀)).trans ih
  | moved _ _ _ _ ih => exact ih

theorem tracked (h : History c₀ acts c) (h₀ : c₀.Opened)
    (hpending : c₀.session.logonPending = false) : Tracked acts c := by
  induction h with
  | start => exact .of_not_pending hpending
  | next h hdoes ih => exact ih.of_does (h.opened h₀) hdoes
  | moved _ _ _ _ ih => exact ⟨ih.logon_mem, ih.answer_eq⟩

theorem rank_le (h : History c₀ acts c) (h₀ : c₀.Opened) :
    c₀.session.state.rank ≤ c.session.state.rank := by
  induction h with
  | start => exact Nat.le_refl _
  | next h hdoes ih => exact Nat.le_trans ih (hdoes.rank_le (h.opened h₀))
  | moved _ _ _ _ ih => exact ih

theorem of_mem_sent {frame : Bytes} (h : History c₀ acts c) (h₀ : c₀.Opened)
    (hmem : .sent m (.ok frame) ∈ acts) :
    m.encode = .ok frame ∧ frame <:+: c.connection.written := by
  induction h with
  | start => cases hmem
  | next h hdoes ih =>
      rcases List.mem_cons.mp hmem with rfl | hmem'
      · obtain ⟨hencode, hwritten, -⟩ := hdoes.delivered
        rw [hwritten]
        exact ⟨hencode, (List.suffix_append _ _).isInfix⟩
      · obtain ⟨hencode, hinfix⟩ := ih hmem'
        exact ⟨hencode, hinfix.trans (hdoes.prefix_written (h.opened h₀)).isInfix⟩
  | moved _ _ hwritten _ ih =>
      rw [hwritten]
      exact ih hmem

end History

/-- A session is acknowledged by a chunk that answers a Logon; where the answer is checked, all
of it that has arrived shows the type of a Logon. -/
theorem Does.loggedOn (hc : c.Opened) (htracked : Tracked acts c) (h : c.Does a after)
    (hbefore : c.session.state ≠ .loggedOn) (hafter : after.session.state = .loggedOn) :
    ∃ chunk, a = .heard (.chunk chunk) (.done (some chunk)) ∧ chunk ≠ [] ∧
      (∃ m frame, .sent m (.ok frame) ∈ acts ∧ m.msgType? = some .logon) ∧
        (c.settings.verifyLogon = true →
          Frame.peekMsgType (Act.answer (a :: acts)) = .ok (some .logon)) := by
  obtain ⟨chunk, rfl, hpending, hcheck⟩ := h.acknowledged hc hbefore hafter
  obtain ⟨l, hl, hlogon⟩ := htracked.logon_mem hpending
  obtain ⟨m, frame, rfl, hm⟩ := Act.exists_of_isLogonSent hlogon
  refine ⟨chunk, rfl, h.chunk_ne_nil, ⟨m, frame, hl, hm⟩, ?_⟩
  intro hverify
  rw [Act.answer_cons rfl, ← htracked.answer_eq hpending hverify]
  exact LogonCheck.peekMsgType_of_accepted (hcheck hverify)

/-- What holds of a client at every point of its history. -/
structure Lifecycle (settings : Settings) (acts : List Act) (c : Client) : Prop where
  settings_eq : c.settings = settings
  state_mem : c.session.state = .connected ∨ c.session.state = .loggedOn ∨
    c.session.state = .closed
  state_of_pending : c.session.logonPending = true → c.session.state = .connected
  rank_le : ∀ {later after}, History c later after →
    c.session.state.rank ≤ after.session.state.rank
  /-- What counts as sent is written as a whole and flushed. -/
  delivered : ∀ {m frame after}, c.Does (.sent m (.ok frame)) after →
    m.encode = .ok frame ∧ after.connection.written = c.connection.written ++ frame ∧
      c.connection.flushFault = none
  of_mem_sent : ∀ {m frame}, .sent m (.ok frame) ∈ acts →
    m.encode = .ok frame ∧ frame <:+: c.connection.written
  loggedOn : ∀ {a after}, c.Does a after → c.session.state ≠ .loggedOn →
    after.session.state = .loggedOn →
      ∃ chunk, a = .heard (.chunk chunk) (.done (some chunk)) ∧ chunk ≠ [] ∧
        (∃ m frame, .sent m (.ok frame) ∈ acts ∧ m.msgType? = some .logon) ∧
          (settings.verifyLogon = true →
            Frame.peekMsgType (Act.answer (a :: acts)) = .ok (some .logon))
  closed : ∀ {a after}, c.Does a after → c.session.state ≠ .closed →
    after.session.state = .closed → a = .heard .endOfStream (.done none)
  send_of_closed : c.session.state = .closed → ∀ m,
    c.send m = (.error (.session (.invalidState .connected .closed)), c)
  receive_of_closed : c.session.state = .closed → c.receive = (.done none, c)
  /-- No call writes or reads any more: the client stays the same, with its connection. -/
  call_of_closed : c.session.state = .closed → ∀ stop id call,
    (c.call stop id call).2.client = c
  receive_ne : ∀ expected current,
    c.receive.1 ≠ .failed (.session (.invalidState expected current))

theorem History.lifecycle {settings : Settings} (h : History c₀ acts c)
    (hsettings : c₀.settings = settings) (hsession : c₀.session = ⟨.connected, false⟩) :
    Lifecycle settings acts c := by
  have h₀ : c₀.Opened := opened_of_connected hsession
  have hc := h.opened h₀
  have hsettings' := (h.settings_eq h₀).trans hsettings
  have htracked := h.tracked h₀ (by simp [hsession])
  constructor
  case settings_eq => exact hsettings'
  case state_mem =>
    have hne := hc.state_ne
    cases hstate : c.session.state with
    | disconnected => exact absurd hstate hne
    | connected => exact .inl rfl
    | loggedOn => exact .inr (.inl rfl)
    | closed => exact .inr (.inr rfl)
  case state_of_pending => exact hc.state_of_pending
  case rank_le => exact fun hlater => hlater.rank_le hc
  case delivered => exact fun hdoes => hdoes.delivered
  case of_mem_sent => exact fun hmem => h.of_mem_sent h₀ hmem
  case loggedOn =>
    intro a after hdoes hbefore hafter
    rw [← hsettings']
    exact hdoes.loggedOn hc htracked hbefore hafter
  case closed => exact fun hdoes => hdoes.closed hc
  case send_of_closed => exact fun hclosed m => Client.send_of_closed hclosed m
  case receive_of_closed => exact fun hclosed => Client.receive_of_closed hclosed
  case call_of_closed =>
    intro hclosed stop id call
    obtain ⟨later, hlater⟩ := exists_calls (Prod.ext rfl rfl : c.call stop id call = (_, _))
    exact hlater.course.eq_of_closed hclosed
  case receive_ne => exact receive_ne_invalidState hc

/-- A client with valid settings can be started over every connection. Every script of sends,
receives, follows and runs, however the stream behaves between and during them, takes every history
on by the acts that its moves and their turns show, and the rules of the life of a client hold at
every point of every history. -/
theorem exists_start_lifecycle {settings : Settings} (h : settings.fault? = none)
    (connection : Connection) :
    ∃ c₀, start settings connection = .ok c₀ ∧
      (∀ (observer : StopRule) (id : Identity) (moves : List Move) (s : Stage) (acts : List Act),
        History c₀ acts s.client →
          ∃ later, s.Plays observer id moves (s.play observer id moves).1 later
              (s.play observer id moves).2 ∧
            History c₀ (later ++ acts) (s.play observer id moves).2.client) ∧
      ∀ acts c, History c₀ acts c → Lifecycle settings acts c := by
  obtain ⟨c₀, hstart⟩ := exists_start h connection
  obtain ⟨hsettings, hsession⟩ := of_start hstart
  refine ⟨c₀, hstart, ?_, ?_⟩
  · intro observer id moves s acts hhistory
    exact Stage.exists_history_play observer id moves hhistory
  · intro acts c hhistory
    exact hhistory.lifecycle hsettings hsession

/-- A Logon whose answer arrives in two parts and is checked, and then the end of the stream. -/
theorem exists_start_lifecycle_closed : ∃ (acts : List Act) (c₀ c : Client),
    start { Settings.standard "unix:/s" with verifyLogon := true }
      { arriving := [.data (Utf8.encode "8=FIX.4.4\x019=5\x013"), .data (Utf8.encode "5=A\x01"),
          .endOfStream] } = .ok c₀ ∧
      History c₀ acts c ∧ c.session.state = .closed ∧
        Lifecycle { Settings.standard "unix:/s" with verifyLogon := true } acts c := by
  obtain ⟨c₀, hstart, hplay, hlife⟩ := exists_start_lifecycle
    (show Settings.fault? { Settings.standard "unix:/s" with verifyLogon := true } = none by
      decide +kernel)
    { arriving := [.data (Utf8.encode "8=FIX.4.4\x019=5\x013"), .data (Utf8.encode "5=A\x01"),
        .endOfStream] }
  obtain ⟨acts, -, hacts⟩ := hplay StopRule.never
    { sender := ⟨"A", by decide⟩, target := ⟨"B", by decide⟩ }
    [.call (.send ⟨[⟨.beginString, .text "FIX.4.4"⟩, ⟨.msgType, .text "A"⟩]⟩), .call .receive,
      .call .receive, .call .receive] ⟨c₀, false, []⟩ [] .start
  refine ⟨_, c₀, _, hstart, hacts, ?_, hlife _ _ hacts⟩
  cases hstart
  decide +kernel

end Client

end FixClient
