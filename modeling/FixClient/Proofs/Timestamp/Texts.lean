import FixClient.Proofs.Calendar
import FixClient.Timestamp

/-!
# The texts of timestamps

A timestamp shows no instant after the year 2262, so each of its numbers fits the places it is
written in, and no text is longer or shorter than its pattern. Since days and dates have one
order, the texts sort as the milliseconds that they show.
-/

namespace FixClient

namespace Numeral

variable {width n : Nat}

/-- At least `width` digits, with zeros in front of a shorter number. A longer one is kept. -/
def padded (width n : Nat) : List Char :=
  List.replicate (width - (digits n).length) '0' ++ digits n

theorem value_replicate_zero (k : Nat) : value (List.replicate k '0') = 0 := by
  induction k with
  | zero => rfl
  | succ k ih =>
      rw [List.replicate_succ, value_cons, ih]
      simp

theorem isDigit_of_mem_padded {c : Char} (h : c ∈ padded width n) : c.isDigit = true := by
  rcases List.mem_append.mp h with h | h
  · rw [List.eq_of_mem_replicate h]
    decide
  · exact isDigit_of_mem_digits h

/-- A number that fits is written in full. -/
theorem fixed_eq_padded (hwidth : 0 < width) (h : n < 10 ^ width) :
    fixed width n = padded width n := by
  have hlen := length_digits_le hwidth h
  apply eq_of_value_eq
  · exact fun c hc => isDigit_of_mem_fixed hc
  · exact fun c hc => isDigit_of_mem_padded hc
  · rw [length_fixed, padded, List.length_append, List.length_replicate]
    omega
  · rw [value_fixed, Nat.mod_eq_of_lt h, padded, value_append, value_replicate_zero, value_digits]
    omega

end Numeral

namespace Calendar

open Numeral

/-- A year has at least four digits, and a sign in front of more. -/
def yearText (year : Nat) : List Char :=
  if year < 10000 then padded 4 year else '+' :: digits year

def Date.text (date : Date) : List Char :=
  yearText date.year ++ padded 2 date.month ++ padded 2 date.day

/-- The time of a day by its second. -/
def clockText (second : Nat) : List Char :=
  padded 2 (second / 3600) ++ ':' :: padded 2 (second / 60 % 60) ++ ':' :: padded 2 (second % 60)

theorem Date.Counts.text_eq {date : Date} {days : Nat} (h : date.Counts days)
    (hyear : date.year < 10000) :
    date.text = fixed 4 date.year ++ fixed 2 date.month ++ fixed 2 date.day := by
  have hmonth := h.month_le
  have hday := h.day_le_thirtyOne
  rw [Date.text, yearText, if_pos hyear, fixed_eq_padded (by decide) hyear,
    fixed_eq_padded (by decide) (show date.month < 10 ^ 2 by omega),
    fixed_eq_padded (by decide) (show date.day < 10 ^ 2 by omega)]

theorem clockText_eq {second : Nat} (h : second < 86400) :
    clockText second = fixed 2 (second / 3600) ++ ':' :: fixed 2 (second / 60 % 60) ++
      ':' :: fixed 2 (second % 60) := by
  rw [clockText, fixed_eq_padded (by decide) (show second / 3600 < 10 ^ 2 by omega),
    fixed_eq_padded (by decide) (show second / 60 % 60 < 10 ^ 2 by omega),
    fixed_eq_padded (by decide) (show second % 60 < 10 ^ 2 by omega)]

theorem ascending_clock : Text.Ascending 8 86400 fun second =>
    fixed 2 (second / 3600) ++ ':' :: fixed 2 (second / 60 % 60) ++
      ':' :: fixed 2 (second % 60) := by
  have htwo : ∀ {count}, count ≤ 100 → Text.Ascending 2 count (fixed 2) := fun hle =>
    (Text.Ascending.fixed 2).mono hle
  have hsixty := (htwo (show 60 ≤ 100 by decide)).cons ':'
  have h := ((htwo (show 24 ≤ 100 by decide)).append hsixty).append hsixty
  simpa only [Nat.div_div_eq_div_mul] using h

end Calendar

namespace Timestamp

open Calendar Numeral

variable {s t : Timestamp}

theorem day_lt_dayCount (t : Timestamp) : t.shown / nanosPerSecond / 86400 < dayCount := by
  have hcount : dayCount = 107016 := by decide +kernel
  have hshown : t.shown ≤ maxNanos := Nat.min_le_right _ _
  simp only [maxNanos, nanosPerSecond] at *
  omega

/-- The texts show one date of the calendar and are written in full. -/
structure Fits (t : Timestamp) : Prop where
  exists_date : ∃ date : Date, date.Counts (t.shown / nanosPerSecond / 86400) ∧
    t.dateText = date.text ∧
    t.secondsText = date.text ++ '-' :: clockText (t.shown / nanosPerSecond % 86400) ∧
    t.millisText = date.text ++ '-' :: clockText (t.shown / nanosPerSecond % 86400) ++
      '.' :: padded 3 (t.shown % nanosPerSecond / 1000000)
  length_dateText : t.dateText.length = 8
  length_secondsText : t.secondsText.length = 17
  length_millisText : t.millisText.length = 21
  dateText_prefix : t.dateText <+: t.millisText
  secondsText_prefix : t.secondsText <+: t.millisText

theorem exists_ascending : ∃ text, Text.Ascending 21 (dayCount * 86400 * 1000) text ∧
    ∀ t : Timestamp, t.millisText = text (t.shown / 1000000) := by
  have hthousand : Text.Ascending 3 1000 (fixed 3) := (Text.Ascending.fixed 3).mono (by decide)
  have hseconds := ascending_date.append (ascending_clock.cons '-')
  have hmillis := hseconds.append (hthousand.cons '.')
  refine ⟨_, hmillis, ?_⟩
  intro t
  have hsecond : t.shown / 1000000 / 1000 = t.shown / nanosPerSecond := by
    rw [Nat.div_div_eq_div_mul]
    rfl
  have hmillis : t.shown / 1000000 % 1000 = t.shown % nanosPerSecond / 1000000 :=
    (Nat.mod_mul_right_div_self _ _ _).symm
  simp only [hsecond, hmillis]
  rfl

theorem fits (t : Timestamp) : Fits t := by
  obtain ⟨hdate, hyear⟩ := counts_ofDays t.day_lt_dayCount
  have hdateText := hdate.text_eq (Nat.lt_trans hyear (by decide))
  have hclock : t.shown / nanosPerSecond % 86400 < 86400 := Nat.mod_lt _ (by decide)
  have hmillis : t.shown % nanosPerSecond / 1000000 < 10 ^ 3 := by
    simp only [nanosPerSecond]
    omega
  have hseconds : t.secondsText =
      t.dateText ++ '-' :: clockText (t.shown / nanosPerSecond % 86400) := by
    rw [clockText_eq hclock, secondsText]
    simp
  constructor
  case exists_date =>
    refine ⟨_, hdate, hdateText.symm, ?_, ?_⟩
    · rw [hseconds, hdateText]
      rfl
    · rw [millisText, hseconds, fixed_eq_padded (by decide) hmillis, hdateText]
      rfl
  case length_dateText => simp [dateText]
  case length_secondsText => simp [secondsText, dateText]
  case length_millisText => simp [millisText, secondsText, dateText]
  case dateText_prefix =>
    rw [millisText, hseconds, List.append_assoc]
    exact List.prefix_append _ _
  case secondsText_prefix => exact List.prefix_append _ _

theorem shown_le_shown (h : s.nanos ≤ t.nanos) : s.shown ≤ t.shown := by
  have hle : s.nanos.toNat ≤ t.nanos.toNat := h
  simp only [shown]
  omega

/-- All three texts of a timestamp fit their places, and the texts in milliseconds of two
timestamps sort as the timestamps. They are equal exactly if the same millisecond is shown. -/
theorem texts_fit_and_sort (h : s.nanos ≤ t.nanos) :
    Fits s ∧ Fits t ∧ (s.millisText < t.millisText ∨ s.millisText = t.millisText) ∧
      (s.millisText = t.millisText ↔
        min s.nanos.toNat (2 ^ 63 - 1) / 10 ^ 6 = min t.nanos.toNat (2 ^ 63 - 1) / 10 ^ 6) := by
  obtain ⟨text, htext, heq⟩ := exists_ascending
  have hbound : ∀ t : Timestamp, t.shown / 1000000 < dayCount * 86400 * 1000 := by
    intro t
    have hday := t.day_lt_dayCount
    simp only [nanosPerSecond] at hday
    omega
  refine ⟨s.fits, t.fits, ?_, ?_⟩
  · rw [heq s, heq t]
    have hle := Nat.div_le_div_right (c := 1000000) (shown_le_shown h)
    rcases Nat.lt_or_eq_of_le hle with hlt | hsame
    · exact .inl (htext.lt hlt (hbound t))
    · exact .inr (congrArg text hsame)
  · rw [heq s, heq t]
    exact htext.eq_iff (hbound s) (hbound t)

/-- The last millisecond of a day and the first one of the next. -/
theorem texts_fit_and_sort_midnight :
    (86399999999999 : UInt64) ≤ 86400000000000 ∧
      Fits ⟨86399999999999⟩ ∧ Fits ⟨86400000000000⟩ ∧
      Timestamp.millisText ⟨86399999999999⟩ = "19700101-23:59:59.999".toList ∧
      Timestamp.millisText ⟨86400000000000⟩ = "19700102-00:00:00.000".toList ∧
      Timestamp.millisText ⟨86399999999999⟩ < Timestamp.millisText ⟨86400000000000⟩ := by
  have h : (86399999999999 : UInt64) ≤ 86400000000000 := by decide
  obtain ⟨hs, ht, hle, heq⟩ :=
    texts_fit_and_sort (s := ⟨86399999999999⟩) (t := ⟨86400000000000⟩) h
  refine ⟨h, hs, ht, by decide +kernel, by decide +kernel, ?_⟩
  apply hle.resolve_right
  rw [heq]
  decide

end Timestamp

end FixClient
