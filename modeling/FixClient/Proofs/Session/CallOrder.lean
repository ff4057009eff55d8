import FixClient.Session.Lifecycle

/-!
# Calls in any order

A session is safe with callers that keep to no order. A call that fails has changed nothing by
then, and one that succeeds moves the session on along its states. A Logon becomes pending only
while the session is connected and is pending no longer once the state changes. So no calls log
a session on twice, and none without a Logon noted before.
-/

namespace FixClient

theorem SessionState.eq_closed_of_rank_le {state : SessionState}
    (h : SessionState.loggedOn.rank ≤ state.rank) (hne : state ≠ .loggedOn) : state = .closed := by
  cases state with
  | disconnected | connected => exact absurd h (by decide)
  | loggedOn => exact absurd rfl hne
  | closed => rfl

namespace Session

variable {s after : Session} {c : Call} {cs : List Call} {e : SessionError} {i j : Nat}

section Steps

theorem perform_eq (s : Session) (c : Call) : (perform c).run s =
    match s.call c with
    | .ok after => .ok () after
    | .error e => .error e s := by
  obtain ⟨state, pending⟩ := s
  cases c <;> cases state <;> cases pending <;> rfl

theorem afterCall_of_ok (h : s.call c = .ok after) : s.afterCall c = after := by
  rw [afterCall, perform_eq, h]

theorem afterCall_of_error (h : s.call c = .error e) : s.afterCall c = s := by
  rw [afterCall, perform_eq, h]

theorem of_guard_ok {p : Prop} [Decidable p] {a : Session}
    (h : (if p then Except.ok a else .error e) = .ok after) : p ∧ after = a := by
  split at h
  · next hp => exact ⟨hp, (Except.ok.inj h).symm⟩
  · cases h

theorem invalidState_of_guard {p : Prop} [Decidable p] {α : Type} {a : α}
    {expected : SessionState}
    (h : (if p then Except.ok a else .error (.invalidState expected s.state)) = .error e) :
    ∃ expected, e = .invalidState expected s.state := by
  split at h
  · cases h
  · exact ⟨expected, (Except.error.inj h).symm⟩

theorem invalidState_of_call (h : s.call c = .error e) :
    ∃ expected, e = .invalidState expected s.state := by
  cases c with
  | connect | logonAcknowledged | close => exact invalidState_of_guard h
  | ensureCanSend =>
      apply invalidState_of_guard (p := s.state.canSend = true)
      cases hguard : s.ensureCanSend with
      | ok => simp [call, hguard, Except.map] at h
      | error e' =>
          rw [call, hguard] at h
          cases h
          exact hguard
  | logonSent => cases h

theorem of_perform_error (h : (perform c).run s = .error e after) :
    after = s ∧ ∃ expected, e = .invalidState expected s.state := by
  rw [perform_eq] at h
  cases hcall : s.call c with
  | ok => simp [hcall] at h
  | error e' =>
      rw [hcall] at h
      cases h
      exact ⟨rfl, invalidState_of_call hcall⟩

theorem exists_perform_acknowledged_iff :
    (∃ after, (perform .logonAcknowledged).run s = .ok () after) ↔
      s.state = .connected ∧ s.logonPending = true := by
  rw [perform_eq, call, logonAcknowledged]
  by_cases hboth : s.state = .connected ∧ s.logonPending = true
  · simp [hboth]
  · rw [if_neg hboth]
    simp [hboth]

/-- What a call can do to a session, whether it fails or not. -/
inductive Moves (s : Session) : Call → Session → Prop
  | stays {c : Call} : Moves s c s
  | connected (h : s.state = .disconnected) : Moves s .connect { s with state := .connected }
  | noted (h : s.state = .connected) : Moves s .logonSent { s with logonPending := true }
  | loggedOn (h : s.state = .connected) (hpending : s.logonPending = true) :
      Moves s .logonAcknowledged ⟨.loggedOn, false⟩
  | closed (h : s.state.canSend = true) : Moves s .close ⟨.closed, false⟩

theorem moves (s : Session) (c : Call) : s.Moves c (s.afterCall c) := by
  cases hcall : s.call c with
  | error e =>
      rw [afterCall_of_error hcall]
      exact .stays
  | ok after =>
      rw [afterCall_of_ok hcall]
      cases c with
      | connect =>
          obtain ⟨h, rfl⟩ := of_guard_ok hcall
          exact .connected h
      | ensureCanSend =>
          cases hguard : s.ensureCanSend with
          | ok =>
              rw [call, hguard] at hcall
              cases hcall
              exact .stays
          | error => simp [call, hguard, Except.map] at hcall
      | logonSent =>
          cases hcall
          by_cases h : s.state = .connected
          · rw [logonSent, if_pos h]
            exact .noted h
          · rw [logonSent, if_neg h]
            exact .stays
      | logonAcknowledged =>
          obtain ⟨⟨h, hpending⟩, rfl⟩ := of_guard_ok hcall
          exact .loggedOn h hpending
      | close =>
          obtain ⟨h, rfl⟩ := of_guard_ok hcall
          exact .closed h

namespace Moves

theorem rank_le (h : s.Moves c after) : s.state.rank ≤ after.state.rank := by
  cases h with
  | stays | noted => exact Nat.le_refl _
  | connected h => simp [h, SessionState.rank]
  | loggedOn h => simp [h, SessionState.rank]
  | closed => cases hstate : s.state <;> decide

theorem eq_of_closed (h : s.Moves c after) (hclosed : s.state = .closed) : after = s := by
  cases h with
  | stays => rfl
  | connected h | noted h | loggedOn h | closed h =>
      rw [hclosed] at h
      cases h

/-- A Logon is pending before a change of state, if at all. -/
theorem state_of_pending (h : s.Moves c after)
    (hs : s.logonPending = true → s.state = .connected) (hpending : after.logonPending = true) :
    after.state = .connected := by
  cases h with
  | stays => exact hs hpending
  | connected => rfl
  | noted h => exact h
  | loggedOn | closed => cases hpending

theorem noted_of_pending (h : s.Moves c after) (hbefore : s.logonPending = false)
    (hpending : after.logonPending = true) : c = .logonSent ∧ s.state = .connected := by
  cases h with
  | stays | connected => exact absurd (hbefore.symm.trans hpending) (by simp)
  | noted h => exact ⟨rfl, h⟩
  | loggedOn | closed => cases hpending

theorem acknowledged (h : s.Moves c after) (hbefore : s.state ≠ .loggedOn)
    (hafter : after.state = .loggedOn) : c = .logonAcknowledged ∧ s.logonPending = true := by
  cases h with
  | stays | noted => exact absurd hafter hbefore
  | connected | closed => cases hafter
  | loggedOn _ hpending => exact ⟨rfl, hpending⟩

end Moves

end Steps

section Calls

/-- The session after calls one after another, of which any may have failed. -/
def afterCalls (s : Session) (cs : List Call) : Session := cs.foldl afterCall s

@[simp] theorem afterCalls_nil (s : Session) : s.afterCalls [] = s := rfl

@[simp] theorem afterCalls_cons (s : Session) (c : Call) (cs : List Call) :
    s.afterCalls (c :: cs) = (s.afterCall c).afterCalls cs := rfl

@[simp] theorem afterCalls_append (s : Session) (front back : List Call) :
    s.afterCalls (front ++ back) = (s.afterCalls front).afterCalls back :=
  List.foldl_append

theorem rank_le_afterCalls (s : Session) (cs : List Call) :
    s.state.rank ≤ (s.afterCalls cs).state.rank := by
  induction cs generalizing s with
  | nil => exact Nat.le_refl _
  | cons c cs ih => exact Nat.le_trans (s.moves c).rank_le (ih (s.afterCall c))

theorem afterCalls_of_closed (h : s.state = .closed) (cs : List Call) : s.afterCalls cs = s := by
  induction cs with
  | nil => rfl
  | cons c cs ih => rw [afterCalls_cons, (s.moves c).eq_of_closed h, ih]

theorem state_of_pending_afterCalls (hs : s.logonPending = true → s.state = .connected)
    (cs : List Call) (hpending : (s.afterCalls cs).logonPending = true) :
    (s.afterCalls cs).state = .connected := by
  induction cs generalizing s with
  | nil => exact hs hpending
  | cons c cs ih => exact ih (s.moves c |>.state_of_pending hs) hpending

/-- A Logon that is pending after some calls was noted by one of them. -/
theorem exists_noted (hs : s.logonPending = false) (cs : List Call)
    (hpending : (s.afterCalls cs).logonPending = true) :
    ∃ i < cs.length, cs[i]? = some .logonSent ∧ (s.afterCalls (cs.take i)).state = .connected := by
  induction cs generalizing s with
  | nil => exact absurd (hs.symm.trans hpending) (by simp)
  | cons c cs ih =>
      cases hafter : (s.afterCall c).logonPending with
      | true =>
          obtain ⟨rfl, hstate⟩ := (s.moves c).noted_of_pending hs hafter
          exact ⟨0, by simp, by simp, hstate⟩
      | false =>
          obtain ⟨i, hi, hnoted, hstate⟩ := ih hafter hpending
          exact ⟨i + 1, by simpa using hi, by simpa using hnoted, by simpa using hstate⟩

theorem exists_afterCall_of_ne (h : s.afterCalls (cs.take (i + 1)) ≠ s.afterCalls (cs.take i)) :
    ∃ c, cs[i]? = some c ∧
      s.afterCalls (cs.take (i + 1)) = (s.afterCalls (cs.take i)).afterCall c := by
  cases hc : cs[i]? with
  | none => simp [List.take_add_one, hc] at h
  | some c => exact ⟨c, rfl, by simp [List.take_add_one, hc]⟩

end Calls

/-- The call at place `i` logs a new session on. -/
def LogsOnAt (cs : List Call) (i : Nat) : Prop :=
  (new.afterCalls (cs.take i)).state ≠ .loggedOn ∧
    (new.afterCalls (cs.take (i + 1))).state = .loggedOn

namespace LogsOnAt

theorem acknowledged (h : LogsOnAt cs i) :
    cs[i]? = some .logonAcknowledged ∧ (new.afterCalls (cs.take i)).logonPending = true := by
  obtain ⟨hbefore, hafter⟩ := h
  have hne : new.afterCalls (cs.take (i + 1)) ≠ new.afterCalls (cs.take i) := by
    intro heq
    rw [heq] at hafter
    exact hbefore hafter
  obtain ⟨c, hc, hstep⟩ := exists_afterCall_of_ne hne
  rw [hstep] at hafter
  obtain ⟨rfl, hpending⟩ := (moves _ c).acknowledged hbefore hafter
  exact ⟨hc, hpending⟩

theorem exists_noted (h : LogsOnAt cs i) :
    ∃ j < i, cs[j]? = some .logonSent ∧ (new.afterCalls (cs.take j)).state = .connected := by
  obtain ⟨-, hpending⟩ := h.acknowledged
  obtain ⟨j, hj, hnoted, hstate⟩ := Session.exists_noted rfl (cs.take i) hpending
  have hji : j < i := Nat.lt_of_lt_of_le hj (List.length_take_le i cs)
  refine ⟨j, hji, ?_, ?_⟩
  · rwa [List.getElem?_take_of_lt hji] at hnoted
  · rwa [List.take_take, Nat.min_eq_left (Nat.le_of_lt hji)] at hstate

/-- Once logged on, a session can only be closed, and from there it does not come back. -/
theorem not_lt (hi : LogsOnAt cs i) (hj : LogsOnAt cs j) : ¬ i < j := by
  intro hlt
  obtain ⟨k, rfl⟩ := Nat.exists_eq_add_of_le (Nat.succ_le_of_lt hlt)
  have hrank := rank_le_afterCalls (new.afterCalls (cs.take (i + 1))) ((cs.drop (i + 1)).take k)
  rw [← afterCalls_append, ← List.take_add, hi.2] at hrank
  have hclosed : (new.afterCalls (cs.take (i + 1 + k))).state = .closed :=
    SessionState.eq_closed_of_rank_le hrank hj.1
  have hafter := hj.2
  rw [List.take_add_one, afterCalls_append, afterCalls_of_closed hclosed, hclosed] at hafter
  cases hafter

theorem unique (hi : LogsOnAt cs i) (hj : LogsOnAt cs j) : i = j :=
  Nat.le_antisymm (Nat.le_of_not_lt (hj.not_lt hi)) (Nat.le_of_not_lt (hi.not_lt hj))

end LogsOnAt

/-- What holds of a new session on which the calls `cs` have been made, in whatever order. -/
structure Orderly (cs : List Call) : Prop where
  state_of_pending : (new.afterCalls cs).logonPending = true →
    (new.afterCalls cs).state = .connected
  rank_le : ∀ later, (new.afterCalls cs).state.rank ≤ (new.afterCalls (cs ++ later)).state.rank
  of_closed : (new.afterCalls cs).state = .closed →
    ∀ later, new.afterCalls (cs ++ later) = new.afterCalls cs
  of_logsOnAt : ∀ i, LogsOnAt cs i → cs[i]? = some .logonAcknowledged ∧
    ∃ j < i, cs[j]? = some .logonSent ∧ (new.afterCalls (cs.take j)).state = .connected
  logsOnAt_unique : ∀ i j, LogsOnAt cs i → LogsOnAt cs j → i = j
  /-- A call that fails has changed nothing and reports the state. -/
  of_error : ∀ c e after, (perform c).run (new.afterCalls cs) = .error e after →
    after = new.afterCalls cs ∧ ∃ expected, e = .invalidState expected (new.afterCalls cs).state
  acknowledged_iff :
    (∃ after, (perform .logonAcknowledged).run (new.afterCalls cs) = .ok () after) ↔
      (new.afterCalls cs).logonPending = true

/-- No order of calls brings a session out of order. -/
theorem calls_orderly (cs : List Call) : Orderly cs := by
  have hpending := state_of_pending_afterCalls (s := new) (by simp [new]) cs
  constructor
  case state_of_pending => exact hpending
  case rank_le =>
    intro later
    rw [afterCalls_append]
    exact rank_le_afterCalls _ later
  case of_closed =>
    intro hclosed later
    rw [afterCalls_append]
    exact afterCalls_of_closed hclosed later
  case of_logsOnAt => exact fun i h => ⟨h.acknowledged.1, h.exists_noted⟩
  case logsOnAt_unique => exact fun i j hi hj => hi.unique hj
  case of_error => exact fun c e after h => of_perform_error h
  case acknowledged_iff =>
    rw [exists_perform_acknowledged_iff]
    exact ⟨fun h => h.2, fun h => ⟨hpending h, h⟩⟩

/-- A Logon noted before the connection does not count, one noted after it does. -/
theorem calls_orderly_noted_twice :
    LogsOnAt [.logonSent, .connect, .logonSent, .logonAcknowledged] 3 ∧
      ∃ j < 3, [Call.logonSent, .connect, .logonSent, .logonAcknowledged][j]? = some .logonSent ∧
        (new.afterCalls ([Call.logonSent, .connect, .logonSent, .logonAcknowledged].take j)).state =
          .connected := by
  have horderly := calls_orderly [.logonSent, .connect, .logonSent, .logonAcknowledged]
  have h : LogsOnAt [.logonSent, .connect, .logonSent, .logonAcknowledged] 3 := by
    constructor <;> decide
  exact ⟨h, (horderly.of_logsOnAt 3 h).2⟩

end Session

end FixClient
