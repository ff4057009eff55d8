import FixClient.Calendar
import FixClient.Proofs.Text.Ascending
import Mathlib.Algebra.Ring.Nat

/-!
# Days and dates

A date is located among the years and then among the months by walking along their lengths. So a
date stands for the days of the years and months before it, and later days have later dates,
whatever the lengths are.
-/

namespace FixClient

namespace Calendar

variable {lens : List Nat} {len d : Nat}

section Locate

theorem locate_cons_of_lt (h : d < len) : locate (len :: lens) d = (0, d) := by
  rw [locate, if_pos h]

theorem locate_cons_of_le (h : len ≤ d) :
    locate (len :: lens) d = ((locate lens (d - len)).1 + 1, (locate lens (d - len)).2) := by
  rw [locate, if_neg (Nat.not_lt.mpr h)]

/-- A distance consists of the stretches passed and the way into the one that is reached. -/
theorem exists_of_locate (h : d < lens.sum) :
    ∃ len, lens[(locate lens d).1]? = some len ∧ (locate lens d).2 < len ∧
      (lens.take (locate lens d).1).sum + (locate lens d).2 = d := by
  induction lens generalizing d with
  | nil => cases h
  | cons len lens ih =>
      rw [List.sum_cons] at h
      by_cases hd : d < len
      · rw [locate_cons_of_lt hd]
        exact ⟨len, rfl, hd, by simp⟩
      · rw [Nat.not_lt] at hd
        obtain ⟨len', hlen', hlt, hsum⟩ := ih (d := d - len) (by omega)
        rw [locate_cons_of_le hd]
        refine ⟨len', hlen', hlt, ?_⟩
        rw [List.take_succ_cons, List.sum_cons]
        omega

theorem sum_take_add_le {i j : Nat} (h : lens[i]? = some len) (hij : i < j) :
    (lens.take i).sum + len ≤ (lens.take j).sum := by
  obtain ⟨k, rfl⟩ := Nat.exists_eq_add_of_le (Nat.succ_le_of_lt hij)
  rw [List.take_add, List.take_add_one, h]
  simp

/-- Texts for the stretches followed by texts for the places in them ascend with the distance. -/
theorem ascending_locate {width more : Nat} {front : Nat → List Char}
    {back : Nat → Nat → List Char} (hfront : Text.Ascending width lens.length front)
    (hback : ∀ i len, lens[i]? = some len → Text.Ascending more len (back i)) :
    Text.Ascending (width + more) lens.sum
      (fun d => front (locate lens d).1 ++ back (locate lens d).1 (locate lens d).2) := by
  constructor
  · intro d hd
    obtain ⟨len, hlen, hlt, -⟩ := exists_of_locate hd
    obtain ⟨hi, -⟩ := List.getElem?_eq_some_iff.mp hlen
    rw [List.length_append, hfront.length_eq hi, (hback _ _ hlen).length_eq hlt]
  · intro m n hlt hn
    obtain ⟨len, hlen, hrest, hsum⟩ := exists_of_locate (Nat.lt_trans hlt hn)
    obtain ⟨len', hlen', hrest', hsum'⟩ := exists_of_locate hn
    obtain ⟨hi, -⟩ := List.getElem?_eq_some_iff.mp hlen
    obtain ⟨hi', -⟩ := List.getElem?_eq_some_iff.mp hlen'
    rcases Nat.lt_trichotomy (locate lens m).1 (locate lens n).1 with hpassed | hpassed | hpassed
    · apply Text.append_lt_append (hfront.lt hpassed hi')
      rw [hfront.length_eq hi, hfront.length_eq hi']
    · rw [hpassed] at hsum ⊢
      apply List.append_left_lt
      exact (hback _ _ hlen').lt (by omega) hrest'
    · have hle := sum_take_add_le hlen' hpassed
      omega

end Locate

section Lengths

theorem le_of_mem_monthLengths {year : Nat} (h : len ∈ monthLengths year) : len ≤ 31 := by
  cases hleap : isLeap year with
  | false | true =>
      simp [monthLengths, hleap] at h
      omega

theorem sum_monthLengths_eq (year : Nat) : (monthLengths year).sum = yearLength year := by
  rw [List.sum_eq_foldl, sum_monthLengths]

def yearLengths : List Nat := (List.range' epochYear yearCount).map yearLength

/-- The days from the start of 1970 to the start of a year. -/
def daysBefore (year : Nat) : Nat :=
  ((List.range' epochYear (year - epochYear)).map yearLength).sum

theorem length_yearLengths : yearLengths.length = yearCount := by
  rw [yearLengths, List.length_map, List.length_range']

theorem eq_of_getElem?_yearLengths {i : Nat} (h : yearLengths[i]? = some len) :
    i < yearCount ∧ len = yearLength (epochYear + i) := by
  obtain ⟨hi, rfl⟩ := List.getElem?_eq_some_iff.mp h
  rw [length_yearLengths] at hi
  exact ⟨hi, by simp [yearLengths]⟩

theorem sum_take_yearLengths {i : Nat} (h : i ≤ yearCount) :
    (yearLengths.take i).sum = daysBefore (epochYear + i) := by
  rw [yearLengths, ← List.map_take, List.take_range'_of_length_ge h, daysBefore,
    Nat.add_sub_cancel_left]

/-- The days that have a date. -/
def dayCount : Nat := yearLengths.sum

end Lengths

section Dates

variable {days : Nat}

/-- The date is a day of the calendar, and `days` days lead to it from the start of 1970. -/
structure Date.Counts (date : Date) (days : Nat) : Prop where
  epochYear_le : epochYear ≤ date.year
  month_pos : 0 < date.month
  day_pos : 0 < date.day
  day_le : ∃ len, (monthLengths date.year)[date.month - 1]? = some len ∧ date.day ≤ len
  days_eq : daysBefore date.year + ((monthLengths date.year).take (date.month - 1)).sum +
    (date.day - 1) = days

theorem ofDays_eq (days : Nat) : Date.ofDays days =
    ⟨epochYear + (locate yearLengths days).1,
      (locate (monthLengths (epochYear + (locate yearLengths days).1))
        (locate yearLengths days).2).1 + 1,
      (locate (monthLengths (epochYear + (locate yearLengths days).1))
        (locate yearLengths days).2).2 + 1⟩ := by
  rw [Date.ofDays, ← yearLengths]

theorem counts_ofDays (h : days < dayCount) :
    (Date.ofDays days).Counts days ∧ (Date.ofDays days).year < epochYear + yearCount := by
  obtain ⟨_, hlen, hlt, hsum⟩ := exists_of_locate h
  rw [ofDays_eq]
  generalize locate yearLengths days = located at hlen hlt hsum
  obtain ⟨years, inYear⟩ := located
  obtain ⟨hyears, rfl⟩ := eq_of_getElem?_yearLengths hlen
  rw [sum_take_yearLengths (Nat.le_of_lt hyears)] at hsum
  rw [← sum_monthLengths_eq] at hlt
  obtain ⟨len, hmonth, hday, hsum'⟩ := exists_of_locate hlt
  generalize locate (monthLengths (epochYear + years)) inYear = located at hmonth hday hsum'
  obtain ⟨months, inMonth⟩ := located
  refine ⟨?_, Nat.add_lt_add_left hyears _⟩
  constructor
  case epochYear_le => exact Nat.le_add_right _ _
  case month_pos => exact Nat.succ_pos _
  case day_pos => exact Nat.succ_pos _
  case day_le => exact ⟨len, hmonth, hday⟩
  case days_eq =>
    simp only [Nat.add_sub_cancel]
    rw [Nat.add_assoc, hsum', hsum]

namespace Date.Counts

variable {date : Date}

theorem month_le (h : date.Counts days) : date.month ≤ 12 := by
  obtain ⟨len, hlen, -⟩ := h.day_le
  obtain ⟨hlt, -⟩ := List.getElem?_eq_some_iff.mp hlen
  simp only [monthLengths, List.length_cons, List.length_nil] at hlt
  omega

theorem day_le_thirtyOne (h : date.Counts days) : date.day ≤ 31 := by
  obtain ⟨len, hlen, hle⟩ := h.day_le
  exact Nat.le_trans hle (le_of_mem_monthLengths (List.mem_of_getElem? hlen))

end Date.Counts

/-- Dates in eight digits sort as the days do. -/
theorem ascending_date : Text.Ascending 8 dayCount fun days =>
    Numeral.fixed 4 (Date.ofDays days).year ++ Numeral.fixed 2 (Date.ofDays days).month ++
      Numeral.fixed 2 (Date.ofDays days).day := by
  have hyear : Text.Ascending 4 yearLengths.length fun years =>
      Numeral.fixed 4 (epochYear + years) := by
    rw [length_yearLengths]
    simpa only [Nat.add_comm] using (Text.Ascending.fixed 4).add epochYear (by decide)
  have htwo : ∀ {count}, count ≤ 31 → Text.Ascending 2 count fun n => Numeral.fixed 2 (n + 1) :=
    fun hle => (Text.Ascending.fixed 2).add 1 (by omega)
  have hday : ∀ years len, yearLengths[years]? = some len → Text.Ascending 4 len fun inYear =>
      Numeral.fixed 2 ((locate (monthLengths (epochYear + years)) inYear).1 + 1) ++
        Numeral.fixed 2 ((locate (monthLengths (epochYear + years)) inYear).2 + 1) := by
    intro years len hlen
    obtain ⟨-, rfl⟩ := eq_of_getElem?_yearLengths hlen
    rw [← sum_monthLengths_eq]
    have hmonths : (monthLengths (epochYear + years)).length ≤ 31 := by simp [monthLengths]
    have hdays : ∀ months len, (monthLengths (epochYear + years))[months]? = some len →
        Text.Ascending 2 len fun inMonth => Numeral.fixed 2 (inMonth + 1) := fun _ _ hlen' =>
      htwo (le_of_mem_monthLengths (List.mem_of_getElem? hlen'))
    exact ascending_locate (htwo hmonths) hdays
  simpa only [dayCount, ofDays_eq, List.append_assoc] using ascending_locate hyear hday

end Dates

end Calendar

end FixClient
