import FixClient.Console
import FixClient.Proofs.Text.Replacement

/-!
# What is shown of a byte string

A byte string that is UTF-8 is shown as it is, with bars for the separators, and what is shown of
the bytes behind it does not depend on it. So a text may be cut between any two of its characters
and shown part by part. A line feed is shown as a line feed, whatever stands around it.
-/

namespace FixClient.Frame

variable {a bs : Bytes} {cs : List Char}

/-- A byte string with a bar for every separator. -/
def barred (bs : Bytes) : Bytes := bs.map fun b => if b = Bytes.soh then 0x7c else b

def lineFeed : UInt8 := 0x0a

section Texts

theorem map_ite_of_notMem {α : Type} [DecidableEq α] {old new : α} {l : List α} (h : old ∉ l) :
    (l.map fun x => if x = old then new else x) = l := by
  rw [List.map_congr_left (g := id), List.map_id]
  intro x hx
  have hne : x ≠ old := fun hx' => h (hx' ▸ hx)
  exact if_neg hne

theorem printed_encode_append (s : String) (b : Bytes) :
    printed (Utf8.encode s ++ b) =
      (s.toList.map fun c => if c = '\x01' then bar else c) ++ printed b := by
  rw [printed, Utf8.decodeLossy_encode_append, List.map_append, printed]

theorem printed_encode (s : String) :
    printed (Utf8.encode s) = s.toList.map fun c => if c = '\x01' then bar else c := by
  rw [printed, Utf8.decodeLossy_encode]

theorem printed_append_of_valid (ha : Utf8.Valid a) (b : Bytes) :
    printed (a ++ b) = printed a ++ printed b := by
  obtain ⟨s, rfl⟩ := ha
  rw [printed_encode_append, printed_encode]

theorem soh_notMem_printed (bs : Bytes) : '\x01' ∉ printed bs := by
  intro hmem
  obtain ⟨c, -, hc⟩ := List.mem_map.mp hmem
  split at hc
  · exact absurd hc (by decide)
  · next hne => exact hne hc

/-- Only the one byte of a separator changes with the character. -/
theorem encodeChar_barred (c : Char) :
    String.utf8EncodeChar (if c = '\x01' then bar else c) = barred (String.utf8EncodeChar c) := by
  by_cases hc : c = '\x01'
  · rw [if_pos hc, hc]
    decide
  · have hmem : Bytes.soh ∉ String.utf8EncodeChar c := by
      intro hsoh
      exact hc ((Utf8.ascii_mem_encodeChar_iff (c := '\x01') (by decide)).mp hsoh)
    rw [if_neg hc, barred, map_ite_of_notMem hmem]

theorem encode_printed (ha : Utf8.Valid a) :
    Utf8.encode (String.ofList (printed a)) = barred a := by
  obtain ⟨s, rfl⟩ := ha
  have hchars := funext encodeChar_barred
  rw [printed_encode, Utf8.encode, String.toList_ofList, List.flatMap_map, hchars, barred,
    Utf8.encode, List.map_flatMap]
  rfl

/-- A text without separators is shown as it is. -/
theorem printed_encode_of_notMem (h : '\x01' ∉ cs) :
    printed (Utf8.encode (String.ofList cs)) = cs := by
  rw [printed_encode, String.toList_ofList, map_ite_of_notMem h]

end Texts

section Lines

theorem printed_append_lineFeed (a b : Bytes) :
    printed (a ++ lineFeed :: b) = printed a ++ '\n' :: printed b := by
  rw [printed, Utf8.decodeLossy_append_ascii (by decide), List.map_append, List.map_cons]
  rfl

theorem lineFeed_notMem_printed (h : lineFeed ∉ bs) : '\n' ∉ printed bs := by
  intro hmem
  obtain ⟨c, hc, hshown⟩ := List.mem_map.mp hmem
  split at hshown
  · exact absurd hshown (by decide)
  · subst hshown
    have hsubset := Utf8.subset_of_mem_decodeLossy hc (by decide)
    exact h (hsubset (by decide))

/-- The lines of what is shown are the parts between the line feeds, shown one by one. -/
theorem splitOn_printed (bs : Bytes) :
    (printed bs).splitOn '\n' = (bs.splitOn lineFeed).map printed := by
  induction hn : bs.length using Nat.strongRecOn generalizing bs with
  | ind n ih =>
      by_cases hmem : lineFeed ∈ bs
      · obtain ⟨a, b, rfl⟩ := List.append_of_mem hmem
        rw [List.length_append, List.length_cons] at hn
        rw [printed_append_lineFeed, List.splitOn_append_cons_self, List.splitOn_append_cons_self,
          List.map_append, ih _ (by omega) a rfl, ih _ (by omega) b rfl]
      · rw [List.splitOn_eq_singleton hmem, List.splitOn_eq_singleton (lineFeed_notMem_printed hmem)]
        rfl

end Lines

/-- A byte string that is UTF-8 is shown with bars for its separators and no other change, and
what is shown of the bytes behind it, of any kind, is the same as without it. No separator is ever
shown. So a stream that is cut between characters shows the same as a whole and part by part,
even if it goes on with other bytes. -/
theorem printed_local :
    (∀ a b, Utf8.Valid a → printed (a ++ b) = printed a ++ printed b ∧
      Utf8.encode (String.ofList (printed a)) = barred a) ∧
    (∀ bs, '\x01' ∉ printed bs) ∧
    (∀ (chunks : List Bytes) (b : Bytes), (∀ chunk ∈ chunks, Utf8.Valid chunk) →
      printed (chunks.flatten ++ b) = chunks.flatMap printed ++ printed b) := by
  refine ⟨?_, soh_notMem_printed, ?_⟩
  · intro a b ha
    exact ⟨printed_append_of_valid ha b, encode_printed ha⟩
  · intro chunks b hchunks
    induction chunks with
    | nil => rfl
    | cons chunk chunks ih =>
        obtain ⟨hchunk, hrest⟩ := List.forall_mem_cons.mp hchunks
        rw [List.flatten_cons, List.append_assoc, printed_append_of_valid hchunk, ih hrest,
          List.flatMap_cons, List.append_assoc]

/-- A field with an accent in front of the first two bytes of a euro sign, which show as one
replacement. -/
theorem printed_local_unfinished :
    Utf8.Valid [0x35, 0x38, 0x3d, 0xc3, 0xa9, 0x01] ∧
      printed ([0x35, 0x38, 0x3d, 0xc3, 0xa9, 0x01] ++ [0xe2, 0x82]) =
        ['5', '8', '=', 'é', '|'] ++ ['\ufffd'] ∧
      Utf8.encode "58=é|" = barred [0x35, 0x38, 0x3d, 0xc3, 0xa9, 0x01] := by
  have hvalid : Utf8.Valid [0x35, 0x38, 0x3d, 0xc3, 0xa9, 0x01] := ⟨"58=é\x01", by decide +kernel⟩
  obtain ⟨happend, hbarred⟩ := printed_local.1 _ [0xe2, 0x82] hvalid
  refine ⟨hvalid, happend.trans (by decide +kernel), ?_⟩
  rw [← hbarred]
  decide +kernel

end FixClient.Frame
