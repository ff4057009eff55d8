import FixClient.Proofs.Client.History
import FixClient.Proofs.Session.LogonCheck
import Mathlib.Data.Prod.Basic

/-!
# The answer to a Logon in parts

How the answer is cut into chunks does not matter as long as its type shows within the limit.
Up to there the client keeps exactly what it has read, and the chunk that brings the type is
judged by the type alone. The limit is looked at only where a chunk ends, so an answer whose
type shows later is accepted in one piece and refused in parts.
-/

namespace FixClient

namespace Act

/-- A chunk that was read, or a message other than a Logon that was sent. -/
def isOrdinary : Act → Bool
  | .sent m (.ok _) => m.msgType? != some .logon
  | .heard (.chunk _) _ => true
  | _ => false

end Act

namespace Client

variable {c₀ c₁ c after : Client} {acts : List Act} {m : Message} {frame s chunk answer : Bytes}
  {d : Nat} {outcome : Outcome (Option Bytes)}

/-- A client sends messages other than Logons and reads chunks. -/
def Listens (c₁ : Client) (acts : List Act) (c : Client) : Prop :=
  History c₁ acts c ∧ ∀ a ∈ acts, a.isOrdinary = true

/-- A client that checks the answer to its Logon, of which so much has arrived. -/
structure Awaits (answer : Bytes) (c : Client) : Prop where
  verifyLogon : c.settings.verifyLogon = true
  session_eq : c.session = ⟨.connected, true⟩
  answer_eq : c.answer = answer

namespace Awaits

theorem opened (h : Awaits answer c) : c.Opened := by
  constructor <;> simp [h.session_eq]

theorem of_logon (hverify : c.settings.verifyLogon = true) (hsession : c.session = ⟨.connected, false⟩)
    (hm : m.msgType? = some .logon) (hsend : c.send m = (.ok frame, after)) : Awaits [] after := by
  have hdoes : c.Does (.sent m (.ok frame)) after := .send hsend
  cases hdoes.sends with
  | plain _ _ _ hm' => exact absurd hm hm'
  | logon =>
      constructor
      · exact hverify
      · simp [Session.logonSent, hsession]
      · rfl

theorem of_sent (h : Awaits answer c) (hdoes : c.Does (.sent m (.ok frame)) after)
    (hm : m.msgType? ≠ some .logon) : Awaits answer after := by
  cases hdoes.sends with
  | plain => exact ⟨h.verifyLogon, h.session_eq, h.answer_eq⟩
  | logon _ _ _ hm' => exact absurd hm' hm

theorem of_chunk (h : Awaits answer c) (hdoes : c.Does (.heard (.chunk chunk) outcome) after) :
    match LogonCheck.ofAnswer (answer ++ chunk) with
    | .undecided => outcome = .done (some chunk) ∧ Awaits (answer ++ chunk) after
    | .accepted => outcome = .done (some chunk) ∧ after.session = ⟨.loggedOn, false⟩
    | .refused received =>
      outcome = .failed (.session (.protocolViolation received)) ∧
        after.session = ⟨.connected, true⟩ := by
  have hsession : c.afterRead.session = ⟨.connected, true⟩ := h.session_eq
  have hverify : c.afterRead.settings.verifyLogon = true := h.verifyLogon
  have hanswer : c.afterRead.answer = answer := h.answer_eq
  rw [← hanswer]
  cases hdoes.hears h.opened with
  | plain hpending => simp [hsession] at hpending
  | trusted _ hverify' => simp [hverify] at hverify'
  | undecided _ _ hcheck =>
      rw [hcheck]
      exact ⟨rfl, hverify, hsession, rfl⟩
  | accepted _ _ hcheck =>
      rw [hcheck]
      exact ⟨rfl, rfl⟩
  | refused _ _ hcheck =>
      rw [hcheck]
      exact ⟨rfl, hsession⟩

theorem of_undecided (h : Awaits answer c) (hdoes : c.Does (.heard (.chunk chunk) outcome) after)
    (hpeek : Frame.peekMsgType (answer ++ chunk) = .ok none)
    (hlen : (answer ++ chunk).length ≤ logonAnswerLimit) :
    outcome = .done (some chunk) ∧ Awaits (answer ++ chunk) after := by
  have hchunk := h.of_chunk hdoes
  rwa [LogonCheck.ofAnswer_of_none hpeek, if_pos hlen] at hchunk

theorem of_overlong (h : Awaits answer c) (hdoes : c.Does (.heard (.chunk chunk) outcome) after)
    (hpeek : Frame.peekMsgType (answer ++ chunk) = .ok none)
    (hlen : logonAnswerLimit < (answer ++ chunk).length) :
    outcome = .failed (.session (.protocolViolation .undecided)) := by
  have hchunk := h.of_chunk hdoes
  rw [LogonCheck.ofAnswer_of_none hpeek, if_neg (Nat.not_le.mpr hlen)] at hchunk
  exact hchunk.1

/-- The chunk that brings the type is judged by the type. -/
theorem of_decided (h : Awaits answer c) (hd : Frame.DecidedAt s d)
    (hdoes : c.Does (.heard (.chunk chunk) outcome) after) (hs : answer ++ chunk <+: s)
    (hle : d ≤ (answer ++ chunk).length) :
    (Frame.peekMsgType (s.take d) = .ok (some .logon) →
      outcome = .done (some chunk) ∧ after.session.state = .loggedOn) ∧
    (Frame.peekMsgType (s.take d) ≠ .ok (some .logon) →
      outcome = .failed (.session (.protocolViolation
        (.ofPeek (Frame.peekMsgType (s.take d))))) ∧ after.session.state = .connected) := by
  have hchunk := h.of_chunk hdoes
  rw [LogonCheck.ofAnswer_of_prefix (Frame.DecidedAt.take_prefix hs hle) hd.decided] at hchunk
  constructor
  · intro hlogon
    rw [LogonCheck.ofAnswer_of_logon hlogon] at hchunk
    exact ⟨hchunk.1, congrArg Session.state hchunk.2⟩
  · intro hlogon
    rw [LogonCheck.ofAnswer_of_ne hd.decided hlogon] at hchunk
    exact ⟨hchunk.1, congrArg Session.state hchunk.2⟩

end Awaits

section Listening

theorem Listens.awaits (h : Listens c₁ acts c) (h₁ : Awaits [] c₁) (hd : Frame.DecidedAt s d)
    (hs : Act.bytesRead acts <+: s) (hlt : (Act.bytesRead acts).length < d)
    (hlimit : (Act.bytesRead acts).length ≤ logonAnswerLimit) : Awaits (Act.bytesRead acts) c := by
  obtain ⟨hhistory, hordinary⟩ := h
  -- What was read before the last act is shorter: the type has not shown in it, and it is within
  -- the limit.
  induction hhistory with
  | start => exact h₁
  | moved _ _ _ _ ih =>
      have hawaits := ih hs hlt hlimit hordinary
      exact ⟨hawaits.verifyLogon, hawaits.session_eq, hawaits.answer_eq⟩
  | @next acts c after a _ hdoes ih =>
      obtain ⟨ha, hacts⟩ := List.forall_mem_cons.mp hordinary
      rw [Act.bytesRead_cons] at hs hlt hlimit ⊢
      have hlen : (Act.bytesRead acts ++ a.bytes).length = (Act.bytesRead acts).length + a.bytes.length :=
        List.length_append
      have hawaits := ih ((List.prefix_append _ _).trans hs) (by omega) (by omega) hacts
      rcases a with ⟨m, e | frame⟩ | ⟨chunk | _ | reason | _, outcome⟩
      · cases ha
      · have hm : m.msgType? ≠ some .logon := by simpa [Act.isOrdinary] using ha
        rw [Act.bytes, List.append_nil]
        exact hawaits.of_sent hdoes hm
      · have hpeek := hd.peek_of_lt hs hlt
        exact (hawaits.of_undecided hdoes hpeek hlimit).2
      all_goals cases ha

/-- A chunk that ends behind the limit and in front of the type is refused. -/
theorem Listens.exists_violation (h : Listens c₁ acts c) (h₁ : Awaits [] c₁)
    (hd : Frame.DecidedAt s d) (hs : Act.bytesRead acts <+: s) (hlt : (Act.bytesRead acts).length < d)
    (hlimit : logonAnswerLimit < (Act.bytesRead acts).length) :
    ∃ chunk, .heard (.chunk chunk) (.failed (.session (.protocolViolation .undecided))) ∈ acts := by
  obtain ⟨hhistory, hordinary⟩ := h
  induction hhistory with
  | start => exact absurd hlimit (by decide)
  | moved _ _ _ _ ih => exact ih hs hlt hlimit hordinary
  | @next acts c after a hhistory hdoes ih =>
      obtain ⟨ha, hacts⟩ := List.forall_mem_cons.mp hordinary
      rw [Act.bytesRead_cons] at hs hlt hlimit
      have hlen : (Act.bytesRead acts ++ a.bytes).length = (Act.bytesRead acts).length + a.bytes.length :=
        List.length_append
      have hs' := (List.prefix_append _ _).trans hs
      -- The limit was passed by an earlier chunk or is passed by this one.
      by_cases hearlier : logonAnswerLimit < (Act.bytesRead acts).length
      · obtain ⟨chunk, hchunk⟩ := ih hs' (by omega) hearlier hacts
        exact ⟨chunk, List.mem_cons_of_mem a hchunk⟩
      · have hawaits := Listens.awaits ⟨hhistory, hacts⟩ h₁ hd hs' (by omega)
          (Nat.not_lt.mp hearlier)
        rcases a with ⟨m, result⟩ | ⟨chunk | _ | reason | _, outcome⟩
        · rw [Act.bytes, List.append_nil] at hlimit
          exact absurd hlimit hearlier
        · have hpeek := hd.peek_of_lt hs hlt
          rw [hawaits.of_overlong hdoes hpeek hlimit]
          exact ⟨chunk, List.mem_cons_self⟩
        all_goals cases ha

theorem Listens.exists_of_chunks (h : Listens c₁ acts c) (hc : c.Opened)
    (hopen : c.session.state ≠ .closed) {chunks : List Bytes}
    (hchunks : ∀ x ∈ chunks, x ≠ [] ∧ x.length ≤ c.settings.readChunkSize) :
    ∃ later after, Listens c₁ (later ++ acts) after ∧ later.reverse.map Act.bytes = chunks := by
  induction chunks generalizing acts c with
  | nil => exact ⟨[], c, h, rfl⟩
  | cons chunk chunks ih =>
      obtain ⟨⟨hne, hlen⟩, hchunks'⟩ := List.forall_mem_cons.mp hchunks
      -- The connection is moved so that the next read gives the chunk.
      generalize hready : { c with connection := { c.connection with arriving := [.data chunk] } } =
        ready
      have hmoved : History c₁ acts ready := hready ▸ h.1.moved _ rfl rfl
      have hc' : ready.Opened := hready ▸ ⟨hc.state_ne, hc.state_of_pending⟩
      have hopen' : ready.session.state ≠ .closed := hready ▸ hopen
      have hreading : ready.nextReading = .chunk chunk := by
        rw [← hready, nextReading, Connection.read, Connection.next_data hne hlen]
      have hdoes : ready.Does (.heard (.chunk chunk) ready.receive.1) ready.receive.2 :=
        .receive hopen' hreading rfl
      have hsettings : ready.receive.2.settings = c.settings :=
        (hdoes.settings_eq hc').trans (hready ▸ rfl)
      obtain ⟨later, after, hlater, hbytes⟩ := ih
        ⟨hmoved.next hdoes, List.forall_mem_cons.mpr ⟨rfl, h.2⟩⟩ (hdoes.opened hc')
        (hdoes.state_ne_closed hc' hopen') (hsettings ▸ hchunks')
      refine ⟨later ++ [.heard (.chunk chunk) ready.receive.1], after, ?_, ?_⟩
      · rwa [List.append_assoc, List.singleton_append]
      · rw [List.reverse_append, List.map_append, hbytes]
        rfl

end Listening

/-- The check of the answer to a Logon, after the Logon was sent. Every split of a stream into
chunks can be delivered. If the type shows at a length of at most 257, the chunks in front of it
are returned, and the one that brings it logs on if it is a Logon and is refused otherwise, with
the same report for every split. If a Logon shows later, the stream is accepted in one piece,
and refused wherever a chunk ends in between. -/
theorem listens_split_independent (hverify : c.settings.verifyLogon = true)
    (hsession : c.session = ⟨.connected, false⟩) (hm : m.msgType? = some .logon)
    (hsend : c.send m = (.ok frame, c₁)) (hd : Frame.DecidedAt s d) :
    (∀ chunks : List Bytes, (∀ x ∈ chunks, x ≠ [] ∧ x.length ≤ c.settings.readChunkSize) →
      ∃ acts after, Listens c₁ acts after ∧ acts.reverse.map Act.bytes = chunks) ∧
    (d ≤ 257 → ∀ acts c₂ chunk outcome c₃, Listens c₁ acts c₂ →
      c₂.Does (.heard (.chunk chunk) outcome) c₃ → Act.bytesRead acts ++ chunk <+: s →
        ((Act.bytesRead acts ++ chunk).length < d →
          outcome = .done (some chunk) ∧ c₃.session = ⟨.connected, true⟩) ∧
        ((Act.bytesRead acts).length < d → d ≤ (Act.bytesRead acts ++ chunk).length →
          (Frame.peekMsgType (s.take d) = .ok (some .logon) →
            outcome = .done (some chunk) ∧ c₃.session.state = .loggedOn) ∧
          (Frame.peekMsgType (s.take d) ≠ .ok (some .logon) →
            outcome = .failed (.session (.protocolViolation
              (.ofPeek (Frame.peekMsgType (s.take d))))) ∧ c₃.session.state = .connected))) ∧
    (257 < d → Frame.peekMsgType (s.take d) = .ok (some .logon) →
      (∀ acts c₂ outcome c₃, Listens c₁ acts c₂ → Act.bytesRead acts = [] →
        c₂.Does (.heard (.chunk s) outcome) c₃ →
          outcome = .done (some s) ∧ c₃.session.state = .loggedOn) ∧
      ∀ acts c₂, Listens c₁ acts c₂ → Act.bytesRead acts <+: s → 257 ≤ (Act.bytesRead acts).length →
        (Act.bytesRead acts).length < d → ∃ chunk,
          .heard (.chunk chunk) (.failed (.session (.protocolViolation .undecided))) ∈ acts) := by
  have h₁ : Awaits [] c₁ := .of_logon hverify hsession hm hsend
  have hlimit : logonAnswerLimit = 256 := rfl
  refine ⟨?_, ?_, ?_⟩
  · intro chunks hchunks
    have hsettings : c₁.settings = c.settings :=
      Does.settings_eq (a := .sent m (.ok frame)) ⟨by simp [hsession], by simp [hsession]⟩
        (.send hsend)
    obtain ⟨later, after, hlater, hbytes⟩ := Listens.exists_of_chunks
      (⟨.start, by simp⟩ : Listens c₁ [] c₁) h₁.opened (by simp [h₁.session_eq])
      (hsettings ▸ hchunks)
    rw [List.append_nil] at hlater
    exact ⟨later, after, hlater, hbytes⟩
  · intro hle acts c₂ chunk outcome c₃ hlistens hdoes hs
    have hs' := (List.prefix_append _ _).trans hs
    have hlen : (Act.bytesRead acts ++ chunk).length = (Act.bytesRead acts).length + chunk.length :=
      List.length_append
    constructor
    · intro hlt
      have hawaits := hlistens.awaits h₁ hd hs' (by omega) (by omega)
      obtain ⟨hdone, hafter⟩ := hawaits.of_undecided hdoes (hd.peek_of_lt hs hlt) (by omega)
      exact ⟨hdone, hafter.session_eq⟩
    · intro hlt hge
      have hawaits := hlistens.awaits h₁ hd hs' hlt (by omega)
      exact hawaits.of_decided hd hdoes hs hge
  · intro hlt hlogon
    constructor
    · intro acts c₂ outcome c₃ hlistens hread hdoes
      have hlen : (Act.bytesRead acts).length = 0 := by rw [hread, List.length_nil]
      have hawaits := hlistens.awaits h₁ hd (hread ▸ List.nil_prefix) (by omega) (by omega)
      rw [hread] at hawaits
      exact (hawaits.of_decided hd hdoes List.prefix_rfl hd.le_length).1 hlogon
    · intro acts c₂ hlistens hs hge hlt'
      exact hlistens.exists_violation h₁ hd hs hlt' (by omega)

/-- A Logon in two parts, and a long one that is refused after its first 257 bytes. -/
theorem listens_split_independent_twice :
    (∃ c₁ c₂ c₃ : Client, Listens c₁ [.heard (.chunk (Utf8.encode "8=FIX.4.4\x019=5\x013"))
        (.done (some (Utf8.encode "8=FIX.4.4\x019=5\x013")))] c₂ ∧
      c₂.Does (.heard (.chunk (Utf8.encode "5=A\x01")) (.done (some (Utf8.encode "5=A\x01")))) c₃ ∧
      c₃.session.state = .loggedOn) ∧
    ∃ (c₁ c₂ : Client) (outcome : Outcome (Option Bytes)),
      Listens c₁ [.heard (.chunk ((Utf8.encode "8=FIX" ++ List.replicate 245 120 ++
        Utf8.encode "\x019=5\x0135=A\x01").take 257)) outcome] c₂ ∧
      outcome = .failed (.session (.protocolViolation .undecided)) := by
  let logon : Message := ⟨[⟨.beginString, .text "FIX.4.4"⟩, ⟨.msgType, .text "A"⟩]⟩
  let client (arriving : List Arrival) : Client :=
    { settings := { Settings.standard "unix:/s" with verifyLogon := true }
      settings_valid := by decide +kernel
      session := ⟨.connected, false⟩
      answer := []
      connection := { arriving := arriving } }
  have hsend : ∀ arriving, ∃ frame, (client arriving).send logon =
      (.ok frame, ((client arriving).send logon).2) := fun _ => ⟨_, rfl⟩
  constructor
  · let first := Utf8.encode "8=FIX.4.4\x019=5\x013"
    let second := Utf8.encode "5=A\x01"
    let c₁ := ((client [.data first, .data second]).send logon).2
    have hd : Frame.DecidedAt (first ++ second) 19 :=
      .of_succ (by decide +kernel) (by decide +kernel) (by decide +kernel)
    have hfirst : c₁.Does (.heard (.chunk first) (.done (some first))) c₁.receive.2 :=
      .receive (by decide +kernel) (by decide +kernel) (Prod.fst_eq_iff.mp (by decide +kernel))
    have hlistens : Listens c₁ [.heard (.chunk first) (.done (some first))] c₁.receive.2 :=
      ⟨.next .start hfirst, by decide +kernel⟩
    have hsecond : c₁.receive.2.Does (.heard (.chunk second) c₁.receive.2.receive.1)
        c₁.receive.2.receive.2 :=
      .receive (by decide +kernel) (by decide +kernel) (Prod.eta _).symm
    obtain ⟨frame, hframe⟩ := hsend [.data first, .data second]
    obtain ⟨-, hsplit, -⟩ := listens_split_independent rfl rfl rfl hframe hd
    obtain ⟨-, hdecided⟩ := hsplit (by decide +kernel) _ _ _ _ _ hlistens hsecond List.prefix_rfl
    obtain ⟨hdone, hstate⟩ :=
      (hdecided (by decide +kernel) (by decide +kernel)).1 (by decide +kernel)
    exact ⟨c₁, _, _, hlistens, hdone ▸ hsecond, hstate⟩
  · let long := Utf8.encode "8=FIX" ++ List.replicate 245 120 ++ Utf8.encode "\x019=5\x0135=A\x01"
    let c₁ := ((client [.data (long.take 257)]).send logon).2
    have hd : Frame.DecidedAt long 260 :=
      .of_succ (by decide +kernel) (by decide +kernel) (by decide +kernel)
    have hlistens : Listens c₁ [.heard (.chunk (long.take 257)) c₁.receive.1] c₁.receive.2 :=
      ⟨.next .start (.receive (by decide +kernel) (by decide +kernel) (Prod.eta _).symm),
        by decide +kernel⟩
    obtain ⟨frame, hframe⟩ := hsend [.data (long.take 257)]
    obtain ⟨-, -, htight⟩ := listens_split_independent rfl rfl rfl hframe hd
    obtain ⟨-, hviolation⟩ := htight (by decide) (by decide +kernel)
    obtain ⟨chunk, hchunk⟩ := hviolation _ _ hlistens (by decide +kernel) (by decide +kernel)
      (by decide +kernel)
    rw [List.mem_singleton] at hchunk
    injection hchunk with hchunk houtcome
    exact ⟨c₁, _, _, hlistens, houtcome.symm⟩

end Client

end FixClient
