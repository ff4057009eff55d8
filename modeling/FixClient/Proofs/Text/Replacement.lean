import FixClient.Proofs.Text.Utf8

/-!
# Reading with replacement

A byte below 0x80 is a character wherever it stands: it is in no range of a byte that is owed,
so it ends the ill-formed run before it and the reader starts over behind it. In the other
direction, every character that was not put in for ill-formed bytes stood in the input. So the
ASCII characters of a byte string that is read with replacement are its ASCII bytes, in place.
-/

namespace FixClient.Utf8

variable {a b bs : Bytes} {p : Pending} {state : Option Pending} {x : UInt8} {c : Char}
  {symbol : Symbol} {tail : List Symbol}

section Steps

/-- Between characters a byte is a symbol of its own or makes the reader wait for a tail. -/
theorem start_cases (x : UInt8) : (∃ symbol, start x = ([symbol], none)) ∨
    ∃ p, start x = ([], some p) ∧ 0x80 ≤ p.low.toNat := by
  by_cases h₁ : x.toNat < 0x80
  · exact .inl ⟨_, start_one h₁⟩
  by_cases h₂ : x.toNat < 0xc2 ∨ 0xf5 ≤ x.toNat
  · exact .inl ⟨_, start_malformed (by omega)⟩
  by_cases h₃ : x.toNat < 0xe0
  · exact .inr ⟨_, start_two (by omega) h₃, Nat.le_refl _⟩
  by_cases h₄ : x.toNat < 0xf0
  · refine .inr ⟨_, start_three (by omega) h₄, ?_⟩
    dsimp only
    split <;> decide
  · refine .inr ⟨_, start_four (by omega) (by omega), ?_⟩
    dsimp only
    split <;> decide

/-- Inside a character a byte ends it, continues it, or is no part of it and starts over. -/
theorem step_cases (p : Pending) (x : UInt8) : (∃ symbol, p.step x = ([symbol], none)) ∨
    (∃ q, p.step x = ([], some q) ∧ 0x80 ≤ q.low.toNat) ∨
      p.step x = (.malformed p.seen :: (start x).1, (start x).2) := by
  by_cases hx : p.low ≤ x ∧ x ≤ p.high
  · cases hmore : p.more with
    | zero => exact .inl ⟨_, step_last hmore hx.1 hx.2⟩
    | succ more => exact .inr (.inl ⟨_, step_inner hmore hx.1 hx.2, Nat.le_refl _⟩)
  · exact .inr (.inr (if_neg hx))

/-- No ASCII byte is in the range of the byte that is owed, if one is owed. -/
def OwesTail (state : Option Pending) : Prop := ∀ p, state = some p → 0x80 ≤ p.low.toNat

theorem owesTail_none : OwesTail none := by
  intro p hp
  cases hp

theorem owesTail_start (x : UInt8) : OwesTail (start x).2 := by
  intro p hp
  rcases start_cases x with ⟨symbol, hstart⟩ | ⟨q, hstart, hq⟩
  · rw [hstart] at hp
    cases hp
  · rw [hstart] at hp
    cases hp
    exact hq

theorem owesTail_step (p : Pending) (x : UInt8) : OwesTail (p.step x).2 := by
  rcases step_cases p x with ⟨symbol, hstep⟩ | ⟨q, hstep, hq⟩ | hstep
  · rw [hstep]
    exact owesTail_none
  · rw [hstep]
    intro q' hq'
    cases hq'
    exact hq
  · rw [hstep]
    exact owesTail_start x

/-- An ASCII byte ends the run before it and is a character of its own. -/
theorem step_ascii (hp : 0x80 ≤ p.low.toNat) (hx : x.toNat < 0x80) :
    p.step x = ([.malformed p.seen, .char (Char.ofNat x.toNat)], none) := by
  have hout : ¬ (p.low ≤ x ∧ x ≤ p.high) := by
    rintro ⟨hlow, -⟩
    have hle := UInt8.le_iff_toNat_le.mp hlow
    omega
  simp only [Pending.step, if_neg hout, start_one hx]

end Steps

section Places

theorem shown_scan_append_ascii (hx : x.toNat < 0x80) (hstate : OwesTail state) :
    (scan state (a ++ x :: b)).map Symbol.shown =
      (scan state a).map Symbol.shown ++ Char.ofNat x.toNat :: (scan none b).map Symbol.shown := by
  induction a generalizing state with
  | nil =>
      cases state with
      | none =>
          rw [List.nil_append, scan_none_cons, start_one hx]
          rfl
      | some p =>
          -- The run shows in the same way, whether this byte or the end of the input ends it.
          rw [List.nil_append, scan_some_cons, step_ascii (hstate p rfl) hx]
          rfl
  | cons y a ih =>
      cases state with
      | none =>
          rw [List.cons_append, scan_none_cons, scan_none_cons, List.map_append, List.map_append,
            ih (owesTail_start y), List.append_assoc]
      | some p =>
          rw [List.cons_append, scan_some_cons, scan_some_cons, List.map_append, List.map_append,
            ih (owesTail_step p y), List.append_assoc]

/-- What stands before an ASCII byte, ill-formed or not, does not matter behind it. -/
theorem decodeLossy_append_ascii (hx : x.toNat < 0x80) (a b : Bytes) :
    decodeLossy (a ++ x :: b) = decodeLossy a ++ Char.ofNat x.toNat :: decodeLossy b :=
  shown_scan_append_ascii hx owesTail_none

/-- Behind each symbol the reader is between characters. -/
theorem exists_suffix_of_scan (h : scan state bs = symbol :: tail) :
    ∃ rest, rest <:+ bs ∧ scan none rest = tail := by
  induction bs generalizing state with
  | nil =>
      cases state with
      | none => cases h
      | some p =>
          cases h
          exact ⟨[], List.suffix_rfl, rfl⟩
  | cons x bs ih =>
      have hwait : ∀ {next}, scan next bs = symbol :: tail →
          ∃ rest, rest <:+ x :: bs ∧ scan none rest = tail := by
        intro next hnext
        obtain ⟨rest, hrest, hscan⟩ := ih hnext
        exact ⟨rest, hrest.trans (List.suffix_cons x bs), hscan⟩
      cases state with
      | none =>
          rw [scan_none_cons] at h
          rcases start_cases x with ⟨first, hstart⟩ | ⟨p, hstart, -⟩
          · rw [hstart] at h
            exact ⟨bs, List.suffix_cons x bs, (List.cons.inj h).2⟩
          · rw [hstart] at h
            exact hwait h
      | some p =>
          rw [scan_some_cons] at h
          rcases step_cases p x with ⟨first, hstep⟩ | ⟨q, hstep, -⟩ | hstep
          · rw [hstep] at h
            exact ⟨bs, List.suffix_cons x bs, (List.cons.inj h).2⟩
          · rw [hstep] at h
            exact hwait h
          · rw [hstep] at h
            exact ⟨x :: bs, List.suffix_rfl, (List.cons.inj h).2⟩

theorem subset_of_char_mem_symbols (h : Symbol.char c ∈ symbols bs) :
    String.utf8EncodeChar c ⊆ bs := by
  generalize hall : symbols bs = all at h
  induction all generalizing bs with
  | nil => cases h
  | cons first rest ih =>
      rcases List.mem_cons.mp h with rfl | hmem
      · obtain ⟨after, rfl, -⟩ := eq_encodeChar_of_scan hall
        exact List.subset_append_left _ _
      · obtain ⟨after, hafter, hscan⟩ := exists_suffix_of_scan hall
        exact List.Subset.trans (ih hscan hmem) hafter.subset

/-- A character that stands for no ill-formed bytes stood in the input. -/
theorem subset_of_mem_decodeLossy (h : c ∈ decodeLossy bs) (hc : c ≠ '\ufffd') :
    String.utf8EncodeChar c ⊆ bs := by
  obtain ⟨symbol, hsymbol, hshown⟩ := List.mem_map.mp h
  cases symbol with
  | char d =>
      obtain rfl : d = c := hshown
      exact subset_of_char_mem_symbols hsymbol
  | malformed n => exact absurd hshown.symm hc
  | unfinished n => exact absurd hshown.symm hc

end Places

end FixClient.Utf8
