import FixClient.Console
import FixClient.Proofs.Frame.Printed

/-!
# The lines on the console

Every frame that was sent and every chunk that was received is followed by a line feed. The line
feeds that stand in its bytes are shown as well, so an event takes one line and one more for each
of them, and the lines tell the events apart only if there are none. A counterparty that sends
line feeds can write any lines.
-/

namespace FixClient

/-- The bytes that an event shows. -/
def Event.shown : Event → Bytes
  | .sent bytes => bytes
  | .frame bytes => bytes
  | .logon => []
  | .closed => []

namespace Console

variable {e : Event} {events : List Event} {text : List Char}

/-- What stands on the lines of an event: the parts of its bytes between the line feeds. -/
def rows : Event → List (List Char)
  | .sent frame => ((frame.splitOn Frame.lineFeed).map Frame.printed).modifyHead (sentMark ++ ·)
  | .frame chunk => (chunk.splitOn Frame.lineFeed).map Frame.printed
  | .logon => []
  | .closed => []

section Lines

theorem line_eq_none_iff : line e = none ↔ e = .logon ∨ e = .closed := by
  cases e <;> simp [line]

theorem splitOn_sentMark_append (text : List Char) :
    (sentMark ++ text).splitOn '\n' = (text.splitOn '\n').modifyHead (sentMark ++ ·) := by
  simp only [sentMark, List.cons_append, List.nil_append, List.splitOn_cons_eq_if_modifyHead]
  rw [if_neg (by decide), if_neg (by decide), List.modifyHead_modifyHead]
  rfl

theorem splitOn_line (h : line e = some text) : text.splitOn '\n' = rows e := by
  cases e with
  | sent frame =>
      cases h
      rw [splitOn_sentMark_append, Frame.splitOn_printed, rows]
  | frame chunk =>
      cases h
      rw [Frame.splitOn_printed, rows]
  | logon | closed => cases h

theorem filterMap_line_cons (e : Event) (events : List Event) :
    (e :: events).filterMap line = (line e).toList ++ events.filterMap line := by
  rw [List.filterMap_cons]
  cases line e <;> rfl

theorem output_cons (e : Event) (events : List Event) :
    output (e :: events) = ((line e).toList.flatMap fun text => text ++ ['\n']) ++ output events := by
  rw [output, filterMap_line_cons, List.flatMap_append, output]

/-- The output is the rows of its events, one after another. -/
theorem splitOn_output (events : List Event) :
    (output events).splitOn '\n' = events.flatMap rows ++ [[]] := by
  induction events with
  | nil => rfl
  | cons e events ih =>
      rw [output_cons, List.flatMap_cons]
      cases hline : line e with
      | none =>
          have hrows : rows e = [] := by
            rcases line_eq_none_iff.mp hline with rfl | rfl <;> rfl
          rw [hrows]
          exact ih
      | some text =>
          rw [Option.toList_some, List.flatMap_singleton, List.append_assoc, List.singleton_append,
            List.splitOn_append_cons_self, splitOn_line hline, ih, List.append_assoc]

end Lines

section Counts

theorem length_splitOn {α : Type} [BEq α] (x : α) (l : List α) :
    (l.splitOn x).length = l.count x + 1 := by
  induction l with
  | nil => rfl
  | cons y l ih =>
      rw [List.splitOn_cons_eq_if_modifyHead, List.count_cons]
      split
      · rw [List.length_cons, ih]
      · rw [List.length_modifyHead, ih, Nat.add_zero]

theorem length_rows (e : Event) :
    (rows e).length = (line e).toList.length + e.shown.count Frame.lineFeed := by
  cases e with
  | sent frame =>
      rw [rows, List.length_modifyHead, List.length_map, length_splitOn, Nat.add_comm]
      rfl
  | frame chunk =>
      rw [rows, List.length_map, length_splitOn, Nat.add_comm]
      rfl
  | logon | closed => rfl

theorem rows_eq (h : Frame.lineFeed ∉ e.shown) : rows e = (line e).toList := by
  cases e with
  | sent frame =>
      rw [rows, show frame.splitOn Frame.lineFeed = [frame] from List.splitOn_eq_singleton h]
      rfl
  | frame chunk =>
      rw [rows, show chunk.splitOn Frame.lineFeed = [chunk] from List.splitOn_eq_singleton h]
      rfl
  | logon | closed => rfl

theorem length_flatMap_rows (events : List Event) :
    (events.flatMap rows).length =
      (events.filterMap line).length + (events.flatMap Event.shown).count Frame.lineFeed := by
  induction events with
  | nil => rfl
  | cons e events ih =>
      rw [List.flatMap_cons, List.flatMap_cons, filterMap_line_cons, List.length_append,
        List.length_append, List.count_append, length_rows, ih]
      omega

theorem flatMap_rows_of_notMem (h : Frame.lineFeed ∉ events.flatMap Event.shown) :
    events.flatMap rows = events.filterMap line := by
  induction events with
  | nil => rfl
  | cons e events ih =>
      rw [List.flatMap_cons, List.mem_append, not_or] at h
      rw [List.flatMap_cons, filterMap_line_cons, rows_eq h.1, ih h.2]

theorem flatMap_rows_eq_iff (events : List Event) :
    events.flatMap rows = events.filterMap line ↔ Frame.lineFeed ∉ events.flatMap Event.shown := by
  constructor
  · intro h
    have hlength := length_flatMap_rows events
    rw [h] at hlength
    apply List.count_eq_zero.mp
    omega
  · exact flatMap_rows_of_notMem

end Counts

section Forging

theorem soh_notMem_output (events : List Event) : '\x01' ∉ output events := by
  have hline : ∀ e text, line e = some text → '\x01' ∉ text := by
    intro e text htext
    cases e with
    | sent frame =>
        cases htext
        simp [sentMark, Frame.soh_notMem_printed]
    | frame chunk =>
        cases htext
        exact Frame.soh_notMem_printed chunk
    | logon | closed => cases htext
  intro hmem
  obtain ⟨text, htext, hsoh⟩ := List.mem_flatMap.mp hmem
  obtain ⟨e, -, he⟩ := List.mem_filterMap.mp htext
  rcases List.mem_append.mp hsoh with hsoh | hsoh
  · exact hline e text he hsoh
  · exact absurd hsoh (by decide)

theorem exists_output_eq (h : events.filterMap line ≠ []) :
    ∃ text, output events = text ++ ['\n'] := by
  obtain ⟨front, last, hlines⟩ := (List.eq_nil_or_concat (events.filterMap line)).resolve_left h
  rw [List.concat_eq_append] at hlines
  refine ⟨(front.flatMap fun l => l ++ ['\n']) ++ last, ?_⟩
  rw [output, hlines, List.flatMap_append, List.flatMap_singleton, List.append_assoc]

/-- One chunk writes what any events write. -/
theorem exists_chunk_output_eq (h : events.filterMap line ≠ []) :
    ∃ chunk, output [.frame chunk] = output events := by
  obtain ⟨text, htext⟩ := exists_output_eq h
  have hsoh : '\x01' ∉ text := by
    intro hmem
    have hall := soh_notMem_output events
    rw [htext] at hall
    exact hall (List.mem_append_left _ hmem)
  refine ⟨Utf8.encode (String.ofList text), ?_⟩
  rw [htext, output_cons, line, Frame.printed_encode_of_notMem hsoh, Option.toList_some,
    List.flatMap_singleton]
  exact List.append_nil _

end Forging

/-- The lines on the console are the rows of the events in order. There are as many as events that
are shown, and one more for each line feed in their bytes; so they are the lines of the events
exactly if no event has a line feed in its bytes. Whatever events were shown, a single chunk
shows the same. -/
theorem lines_of_output (events : List Event) :
    (output events).splitOn '\n' = events.flatMap rows ++ [[]] ∧
    (events.flatMap rows).length =
      (events.filterMap line).length + (events.flatMap Event.shown).count Frame.lineFeed ∧
    ((output events).splitOn '\n' = events.filterMap line ++ [[]] ↔
      Frame.lineFeed ∉ events.flatMap Event.shown) ∧
    (events.filterMap line ≠ [] → ∃ chunk, output [.frame chunk] = output events) := by
  refine ⟨splitOn_output events, length_flatMap_rows events, ?_, exists_chunk_output_eq⟩
  rw [splitOn_output, List.append_cancel_right_eq]
  exact flatMap_rows_eq_iff events

/-- A frame is sent and a chunk with a line feed is received: three lines for two events. -/
theorem lines_of_output_three : ∃ events chunk,
    events = [.sent (Utf8.encode "35=0\x01"), .frame (Utf8.encode "35=5\x01\n> 35=A\x01")] ∧
      events.filterMap line ≠ [] ∧
      (output events).splitOn '\n' = ["> 35=0|".toList, "35=5|".toList, "> 35=A|".toList, []] ∧
      output [.frame chunk] = output events := by
  let events : List Event :=
    [.sent (Utf8.encode "35=0\x01"), .frame (Utf8.encode "35=5\x01\n> 35=A\x01")]
  obtain ⟨hlines, -, -, hforged⟩ := lines_of_output events
  have hshown : events.filterMap line ≠ [] := by decide +kernel
  obtain ⟨chunk, hchunk⟩ := hforged hshown
  exact ⟨events, chunk, rfl, hshown, hlines.trans (by decide +kernel), hchunk⟩

/-- One chunk that takes two lines, the second of which is that of a frame that was not sent. -/
theorem exists_chunk_forges_sent : ∃ chunk,
    output [.frame chunk] = output [.frame (Utf8.encode "35=5\x01"), .sent (Utf8.encode "35=A\x01")] ∧
      (output [.frame chunk]).splitOn '\n' ≠ [.frame chunk].filterMap line ++ [[]] :=
  ⟨Utf8.encode "35=5\x01\n> 35=A\x01", by decide +kernel⟩

end Console

end FixClient
