import FixClient.Text.Characters
import Mathlib.Data.List.Basic
import Mathlib.Data.List.TakeWhile

/-!
# Trimming

A text is trimmed by taking away blanks in front and behind, until none is left at either end.
-/

namespace FixClient.Text

variable {cs u : List Char}

/-- No blank stands at either end. -/
structure Trimmed (cs : List Char) : Prop where
  head : ∀ c ∈ cs.head?, isBlank c = false
  last : ∀ c ∈ cs.getLast?, isBlank c = false

/-- What is left of a text without the blanks at its ends. -/
structure Trims (cs u : List Char) : Prop where
  exists_blanks : ∃ l r, (∀ c ∈ l, isBlank c = true) ∧ (∀ c ∈ r, isBlank c = true) ∧
    cs = l ++ u ++ r
  trimmed : Trimmed u

theorem dropWhile_isBlank_eq_self (h : ∀ c ∈ cs.head?, isBlank c = false) :
    cs.dropWhile isBlank = cs := by
  cases cs with
  | nil => rfl
  | cons c cs =>
      apply List.dropWhile_cons_of_neg
      simp [h c rfl]

theorem head?_dropWhile_isBlank {c : Char} (h : c ∈ (cs.dropWhile isBlank).head?) :
    isBlank c = false := by
  have hnot := List.head?_dropWhile_not isBlank cs
  rw [Option.mem_def.mp h] at hnot
  exact hnot

theorem Trimmed.reverse (h : Trimmed cs) : Trimmed cs.reverse where
  head c hc := h.last c (by simpa using hc)
  last c hc := h.head c (by simpa using hc)

theorem Trimmed.trimChars_eq (h : Trimmed cs) : trimChars cs = cs := by
  rw [trimChars, dropWhile_isBlank_eq_self h.head, dropWhile_isBlank_eq_self h.reverse.head,
    List.reverse_reverse]

/-- Something without blanks in front leaves a text trimmed whose last character is not blank. -/
theorem trimmed_append {front : List Char} (hne : front ≠ [])
    (hfront : ∀ c ∈ front, isBlank c = false) (h : ∀ c ∈ cs.getLast?, isBlank c = false) :
    Trimmed (front ++ cs) := by
  constructor
  case head =>
    intro c hc
    rw [List.head?_append_of_ne_nil _ hne] at hc
    exact hfront c (List.mem_of_mem_head? hc)
  case last =>
    intro c hc
    rw [List.getLast?_append] at hc
    cases hlast : cs.getLast? with
    | none =>
        rw [hlast, Option.none_or] at hc
        exact hfront c (List.mem_of_mem_getLast? hc)
    | some d =>
        rw [hlast] at hc
        obtain rfl : d = c := by simpa using hc
        exact h d hlast

/-- Blanks around a text are taken away. -/
theorem trimChars_append {l r : List Char} (hl : ∀ c ∈ l, isBlank c = true)
    (hr : ∀ c ∈ r, isBlank c = true) : trimChars (l ++ cs ++ r) = trimChars cs := by
  have hr' : ∀ c ∈ r.reverse, isBlank c = true := by simpa using hr
  have hnil : r.dropWhile isBlank = [] := List.dropWhile_eq_nil_iff.mpr hr
  rw [trimChars, trimChars, List.append_assoc, List.dropWhile_append_of_pos hl,
    List.dropWhile_append]
  cases hcs : (cs.dropWhile isBlank).isEmpty with
  | true =>
      have hempty := List.isEmpty_iff.mp hcs
      simp [hempty, hnil]
  | false => simp [List.dropWhile_append_of_pos hr']

theorem trims_trimChars (cs : List Char) : Trims cs (trimChars cs) where
  exists_blanks := by
    refine ⟨cs.takeWhile isBlank, ((cs.dropWhile isBlank).reverse.takeWhile isBlank).reverse,
      ?_, ?_, ?_⟩
    · exact fun c hc => List.mem_takeWhile_imp hc
    · exact fun c hc => List.mem_takeWhile_imp (List.mem_reverse.mp hc)
    · rw [trimChars, List.append_assoc, ← List.reverse_append, List.takeWhile_append_dropWhile,
        List.reverse_reverse, List.takeWhile_append_dropWhile]
  trimmed := by
    constructor
    case head =>
      -- the second pass leaves a start of what the first one leaves
      have hprefix : trimChars cs <+: cs.dropWhile isBlank := by
        rw [trimChars, ← List.reverse_suffix, List.reverse_reverse]
        exact List.dropWhile_suffix _
      intro c hc
      have hfirst : c ∈ (cs.dropWhile isBlank).head? := by
        obtain ⟨rest, hrest⟩ := hprefix
        rw [← hrest]
        exact List.mem_head?_append_of_mem_head? hc
      exact head?_dropWhile_isBlank hfirst
    case last =>
      intro c hc
      rw [trimChars, List.getLast?_reverse] at hc
      exact head?_dropWhile_isBlank hc

theorem trimChars_eq_iff : trimChars cs = u ↔ Trims cs u := by
  constructor
  · rintro rfl
    exact trims_trimChars cs
  · intro h
    obtain ⟨l, r, hl, hr, rfl⟩ := h.exists_blanks
    rw [trimChars_append hl hr, h.trimmed.trimChars_eq]

end FixClient.Text
