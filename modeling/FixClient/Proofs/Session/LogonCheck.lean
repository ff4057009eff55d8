import FixClient.Proofs.Frame.Peek
import FixClient.Session.Lifecycle

/-!
# The answer to a Logon

The check looks at all of the answer that has arrived. It is open as long as the peek is and
the limit is kept; once the peek has an answer, the check follows it and further bytes do not
matter.
-/

namespace FixClient

/-- What is reported of an answer, by what the peek finds in it. -/
def LogonAnswer.ofPeek : Except DecodeError (Option MsgType) → LogonAnswer
  | .ok none => .undecided
  | .ok (some type) => .ofType type
  | .error e => .unreadable e

namespace LogonCheck

variable {answer more : Bytes}

theorem ofAnswer_of_none (h : Frame.peekMsgType answer = .ok none) : ofAnswer answer =
    if answer.length ≤ logonAnswerLimit then .undecided else .refused .undecided := by
  rw [ofAnswer, h]

theorem ofAnswer_of_logon (h : Frame.peekMsgType answer = .ok (some .logon)) :
    ofAnswer answer = .accepted := by
  rw [ofAnswer, h]
  rfl

theorem ofAnswer_of_ne (h : Frame.peekMsgType answer ≠ .ok none)
    (hlogon : Frame.peekMsgType answer ≠ .ok (some .logon)) :
    ofAnswer answer = .refused (.ofPeek (Frame.peekMsgType answer)) := by
  rcases hpeek : Frame.peekMsgType answer with e | _ | type
  · rw [ofAnswer, hpeek]
    rfl
  · exact absurd hpeek h
  · have htype : type ≠ .logon := fun e => hlogon (hpeek.trans (e ▸ rfl))
    simp only [ofAnswer, hpeek, if_neg htype]
    rfl

theorem peekMsgType_of_accepted (h : ofAnswer answer = .accepted) :
    Frame.peekMsgType answer = .ok (some .logon) := by
  by_cases hlogon : Frame.peekMsgType answer = .ok (some .logon)
  · exact hlogon
  by_cases hnone : Frame.peekMsgType answer = .ok none
  · rw [ofAnswer_of_none hnone] at h
    split at h <;> cases h
  · rw [ofAnswer_of_ne hnone hlogon] at h
    cases h

theorem peekMsgType_of_undecided (h : ofAnswer answer = .undecided) :
    Frame.peekMsgType answer = .ok none ∧ answer.length ≤ logonAnswerLimit := by
  by_cases hnone : Frame.peekMsgType answer = .ok none
  · rw [ofAnswer_of_none hnone] at h
    split at h
    · next hlen => exact ⟨hnone, hlen⟩
    · cases h
  by_cases hlogon : Frame.peekMsgType answer = .ok (some .logon)
  · rw [ofAnswer_of_logon hlogon] at h
    cases h
  · rw [ofAnswer_of_ne hnone hlogon] at h
    cases h

/-- An answer that shows its type is judged by this type, however much follows. -/
theorem ofAnswer_of_prefix (hfront : answer <+: more)
    (h : Frame.peekMsgType answer ≠ .ok none) : ofAnswer more = ofAnswer answer := by
  rw [ofAnswer, Frame.peekMsgType_of_prefix hfront h, ofAnswer]
  split
  · next hnone => exact absurd hnone h
  · rfl
  · rfl

end LogonCheck

end FixClient
