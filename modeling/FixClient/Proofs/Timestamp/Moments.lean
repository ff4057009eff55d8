import FixClient.Timestamp

/-!
# Timestamps of moments

A moment from 1970 until the last one that can be shown becomes the count of its nanoseconds, as
whole seconds do. Outside of this range the two ways part. Seconds past the end stop there, while a
moment past the end starts again at 1970, and one before 1970 becomes a count that is larger than
any that can be shown. So the order of moments is kept on either side of 1970 and up to the end,
and not across these bounds. Nor is it kept from a leap second to the second after, in which it is
counted.
-/

namespace FixClient

namespace Utc

variable {a b u : Utc}

/-- The first moment that can be counted. -/
def earliest : Utc := ⟨-9223372037, 145224192, by decide⟩

/-- The start of a second. -/
def ofSeconds (seconds : UInt64) : Utc := ⟨seconds.toNat, 0, by decide⟩

section Words

variable {n k : Int}

theorem word?_eq_some (hlow : -2 ^ 63 ≤ n) (hhigh : n < 2 ^ 63) : word? n = some n :=
  if_pos ⟨hlow, hhigh⟩

theorem word?_eq_none (h : n < -2 ^ 63 ∨ 2 ^ 63 ≤ n) : word? n = none := by
  apply if_neg
  omega

theorem word?_bind_eq_some (hlow : -2 ^ 63 ≤ n) (hhigh : n < 2 ^ 63) (hlow' : -2 ^ 63 ≤ n + k)
    (hhigh' : n + k < 2 ^ 63) : ((word? n).bind fun i => word? (i + k)) = some (n + k) := by
  rw [word?_eq_some hlow hhigh, Option.bind_some, word?_eq_some hlow' hhigh']

theorem word?_bind_eq_none (h : n < -2 ^ 63 ∨ n + k < -2 ^ 63 ∨ 2 ^ 63 ≤ n + k) :
    ((word? n).bind fun i => word? (i + k)) = none := by
  cases hn : word? n with
  | none => rfl
  | some i =>
      rw [word?] at hn
      split at hn
      · cases hn
        apply word?_eq_none
        omega
      · cases hn

end Words

theorem earliest_le_iff : earliest ≤ u ↔
    -9223372037 < u.seconds ∨ -9223372037 = u.seconds ∧ 145224192 ≤ u.nanos := Iff.rfl

theorem instant_of_earliest_le (h : earliest ≤ u) : -2 ^ 63 ≤ u.instant := by
  rw [earliest_le_iff] at h
  rw [instant]
  omega

theorem earliest_le_of_nonneg (h : 0 ≤ u.instant) : earliest ≤ u := by
  have hnanos := u.nanos_lt
  rw [instant] at h
  rw [earliest_le_iff]
  omega

theorem earliest_le_trans (ha : earliest ≤ a) (h : a ≤ b) : earliest ≤ b := by
  rw [earliest_le_iff] at ha ⊢
  rcases h with hlt | ⟨heq, hle⟩
  · omega
  · omega

theorem count?_eq_some (hlow : earliest ≤ u) (hhigh : u.instant < 2 ^ 63) :
    u.count? = some u.instant := by
  have hnanos := u.nanos_lt
  rw [earliest_le_iff] at hlow
  rw [instant] at hhigh
  rw [count?, instant]
  split
  · rw [word?_bind_eq_some (by omega) (by omega) (by omega) (by omega)]
    exact congrArg some (by omega)
  · exact word?_bind_eq_some (by omega) (by omega) (by omega) (by omega)

theorem count?_eq_none (h : ¬ earliest ≤ u ∨ 2 ^ 63 ≤ u.instant) : u.count? = none := by
  have hnanos := u.nanos_lt
  rw [earliest_le_iff, instant] at h
  rw [count?]
  split
  · apply word?_bind_eq_none
    omega
  · apply word?_bind_eq_none
    omega

/-- Later moments are more nanoseconds from 1970, apart from a leap second and the second after. -/
theorem instant_lt_iff (h : a ≤ b) :
    b.instant < a.instant ↔ b.seconds = a.seconds + 1 ∧ b.nanos + 1000000000 < a.nanos := by
  have hnanos := a.nanos_lt
  rw [instant, instant]
  rcases h with hlt | ⟨heq, hle⟩
  · omega
  · omega

theorem instant_nonneg (h : a ≤ b) (hpos : 0 ≤ a.instant) : 0 ≤ b.instant := by
  have hnanos := a.nanos_lt
  rw [instant] at hpos ⊢
  rcases h with hlt | ⟨heq, hle⟩
  · omega
  · omega

end Utc

namespace Timestamp

variable {x : Int} {a b : Utc}

section Counts

theorem toNat_ofCount (x : Int) : ((ofCount x).nanos.toNat : Int) = x % 2 ^ 64 := by
  have hpos : 0 ≤ x % 2 ^ 64 := Int.emod_nonneg x (by decide)
  have hlt : x % 2 ^ 64 < 2 ^ 64 := Int.emod_lt_of_pos x (by decide)
  have hword : (x % 2 ^ 64).toNat.toUInt64.toNat = (x % 2 ^ 64).toNat % 2 ^ 64 :=
    UInt64.toNat_ofNat'
  rw [ofCount, hword]
  omega

theorem ofUtc_of_counted (hlow : Utc.earliest ≤ a) (hhigh : a.instant < 2 ^ 63) :
    ofUtc a = ofCount a.instant := by
  rw [ofUtc, Utc.count?_eq_some hlow hhigh]
  rfl

theorem ofUtc_of_outside (h : ¬ Utc.earliest ≤ a ∨ 2 ^ 63 ≤ a.instant) : ofUtc a = ⟨0⟩ := by
  rw [ofUtc, Utc.count?_eq_none h]
  rfl

theorem toNat_ofUtc_of_nonneg (hpos : 0 ≤ a.instant) (hhigh : a.instant < 2 ^ 63) :
    ((ofUtc a).nanos.toNat : Int) = a.instant := by
  rw [ofUtc_of_counted (Utc.earliest_le_of_nonneg hpos) hhigh, toNat_ofCount]
  omega

theorem toNat_ofUtc_of_neg (hlow : Utc.earliest ≤ a) (hneg : a.instant < 0) :
    ((ofUtc a).nanos.toNat : Int) = a.instant + 2 ^ 64 := by
  have hbound := Utc.instant_of_earliest_le hlow
  rw [ofUtc_of_counted hlow (by omega), toNat_ofCount]
  omega

/-- What is not before 1970, in the range or past its end, has a count that can be shown. -/
theorem toNat_ofUtc_lt (h : 0 ≤ a.instant) : ((ofUtc a).nanos.toNat : Int) < 2 ^ 63 := by
  rcases Int.lt_or_le a.instant (2 ^ 63) with hhigh | hpast
  · rw [toNat_ofUtc_of_nonneg h hhigh]
    exact hhigh
  · rw [ofUtc_of_outside (.inr hpast)]
    decide

end Counts

section Order

theorem ofUtc_le_of_outside (h : ¬ Utc.earliest ≤ a ∨ 2 ^ 63 ≤ a.instant) (b : Utc) :
    (ofUtc a).nanos ≤ (ofUtc b).nanos := by
  rw [ofUtc_of_outside h, UInt64.le_iff_toNat_le]
  exact Nat.zero_le _

/-- Before 1970 the counts are in order. Each of them is larger than all from 1970 on. -/
theorem ofUtc_le_iff_of_neg (h : a ≤ b) (hlow : Utc.earliest ≤ a) (hneg : a.instant < 0) :
    (ofUtc a).nanos ≤ (ofUtc b).nanos ↔ a.instant ≤ b.instant ∧ b.instant < 0 := by
  have hbound := Utc.instant_of_earliest_le hlow
  have hcount := toNat_ofUtc_of_neg hlow hneg
  rw [UInt64.le_iff_toNat_le]
  rcases Int.lt_or_le b.instant 0 with hneg' | hpos'
  · have hcount' := toNat_ofUtc_of_neg (Utc.earliest_le_trans hlow h) hneg'
    omega
  · have hcount' := toNat_ofUtc_lt hpos'
    omega

/-- From 1970 on the counts are in order up to the end, behind which all of them are zero. -/
theorem ofUtc_le_iff_of_nonneg (h : a ≤ b) (hpos : 0 ≤ a.instant) (hhigh : a.instant < 2 ^ 63) :
    (ofUtc a).nanos ≤ (ofUtc b).nanos ↔
      a.instant ≤ b.instant ∧ (a.instant = 0 ∨ b.instant < 2 ^ 63) := by
  have hcount := toNat_ofUtc_of_nonneg hpos hhigh
  have hpos' : 0 ≤ b.instant := Utc.instant_nonneg h hpos
  rw [UInt64.le_iff_toNat_le]
  rcases Int.lt_or_le b.instant (2 ^ 63) with hhigh' | hpast
  · have hcount' := toNat_ofUtc_of_nonneg hpos' hhigh'
    omega
  · have hzero : (ofUtc b).nanos.toNat = 0 := by
      rw [ofUtc_of_outside (.inr hpast)]
      rfl
    omega

/-- Three ways in which the order of two moments is lost. -/
theorem ofUtc_le_iff (h : a ≤ b) : (ofUtc a).nanos ≤ (ofUtc b).nanos ↔
    ¬ (Utc.earliest ≤ a ∧ a.instant < 0 ∧ 0 ≤ b.instant) ∧
      ¬ (0 < a.instant ∧ a.instant < 2 ^ 63 ∧ 2 ^ 63 ≤ b.instant) ∧
      ¬ (Utc.earliest ≤ a ∧ a.instant < 2 ^ 63 ∧ b.instant < a.instant) := by
  by_cases hlow : Utc.earliest ≤ a
  · simp only [hlow, true_and]
    rcases Int.lt_or_le a.instant 0 with hneg | hpos
    · rw [ofUtc_le_iff_of_neg h hlow hneg]
      omega
    rcases Int.lt_or_le a.instant (2 ^ 63) with hhigh | hpast
    · rw [ofUtc_le_iff_of_nonneg h hpos hhigh]
      omega
    · simp only [ofUtc_le_of_outside (.inr hpast) b, true_iff]
      omega
  · have hneg : a.instant < 0 := by
      rw [← Int.not_le]
      exact fun hpos => hlow (Utc.earliest_le_of_nonneg hpos)
    simp only [ofUtc_le_of_outside (.inl hlow) b, hlow, false_and, not_false_eq_true, true_and,
      and_true, true_iff]
    omega

end Order

section Seconds

variable {s : UInt64}

theorem instant_ofSeconds (s : UInt64) :
    (Utc.ofSeconds s).instant = ((s.toNat * nanosPerSecond : Nat) : Int) := by
  simp [Utc.ofSeconds, Utc.instant, nanosPerSecond]

theorem ofUtc_ofSeconds (h : s.toNat * nanosPerSecond ≤ maxNanos) :
    ofUtc (.ofSeconds s) = ofSeconds s := by
  have hmax : maxNanos = 2 ^ 63 - 1 := rfl
  have hcount : ((ofUtc (.ofSeconds s)).nanos.toNat : Int) = (s.toNat * nanosPerSecond : Nat) := by
    rw [← instant_ofSeconds]
    apply toNat_ofUtc_of_nonneg
    · rw [instant_ofSeconds]
      omega
    · rw [instant_ofSeconds]
      omega
  have hword : (ofSeconds s).nanos.toNat = s.toNat * nanosPerSecond := by
    rw [ofSeconds, Nat.min_eq_left h]
    apply UInt64.toNat_ofNat_of_lt'
    exact Nat.lt_of_le_of_lt h (by decide)
  apply Timestamp.ext
  rw [← UInt64.toNat_inj]
  omega

theorem ofUtc_ofSeconds_of_past (h : maxNanos < s.toNat * nanosPerSecond) :
    ofUtc (.ofSeconds s) = ⟨0⟩ := by
  have hmax : maxNanos = 2 ^ 63 - 1 := rfl
  apply ofUtc_of_outside
  rw [instant_ofSeconds]
  omega

theorem ofSeconds_of_past (h : maxNanos < s.toNat * nanosPerSecond) :
    ofSeconds s = ⟨maxNanos.toUInt64⟩ := by
  rw [ofSeconds, Nat.min_eq_right (Nat.le_of_lt h)]

end Seconds

/-- Where a moment keeps its order and where whole seconds give the timestamp of their moment.
The order is lost from a moment before 1970 to one after, from one after 1970 to one past the end,
and from a leap second to a moment of the next second that is counted before it. Past the end the
moment gives 1970 and the seconds give the end. -/
theorem ofUtc_keeps_order_and_seconds (h : a ≤ b) :
    ((ofUtc a).nanos ≤ (ofUtc b).nanos ↔
      ¬ (Utc.earliest ≤ a ∧ a.instant < 0 ∧ 0 ≤ b.instant) ∧
        ¬ (0 < a.instant ∧ a.instant < 2 ^ 63 ∧ 2 ^ 63 ≤ b.instant) ∧
        ¬ (Utc.earliest ≤ a ∧ a.instant < 2 ^ 63 ∧
          b.seconds = a.seconds + 1 ∧ b.nanos + 1000000000 < a.nanos)) ∧
      ∀ s : UInt64,
        (s.toNat * nanosPerSecond ≤ maxNanos → ofUtc (.ofSeconds s) = ofSeconds s) ∧
        (maxNanos < s.toNat * nanosPerSecond →
          ofUtc (.ofSeconds s) = ⟨0⟩ ∧ ofSeconds s = ⟨maxNanos.toUInt64⟩) := by
  constructor
  · rw [← Utc.instant_lt_iff h]
    exact ofUtc_le_iff h
  · intro s
    constructor
    · intro hs
      exact ofUtc_ofSeconds hs
    · intro hs
      exact ⟨ofUtc_ofSeconds_of_past hs, ofSeconds_of_past hs⟩

/-- The first second of the 21st century and the one after it. -/
theorem ofUtc_keeps_order_and_seconds_century :
    (⟨978307200, 0, by decide⟩ : Utc) ≤ ⟨978307201, 0, by decide⟩ ∧
      (ofUtc ⟨978307200, 0, by decide⟩).nanos ≤ (ofUtc ⟨978307201, 0, by decide⟩).nanos ∧
      ofUtc (.ofSeconds 978307200) = ofSeconds 978307200 := by
  have h : (⟨978307200, 0, by decide⟩ : Utc) ≤ ⟨978307201, 0, by decide⟩ := .inl (by decide)
  have hall := ofUtc_keeps_order_and_seconds h
  refine ⟨h, hall.1.mpr ⟨?_, ?_, ?_⟩, (hall.2 978307200).1 ?_⟩
  · rintro ⟨-, hneg, -⟩
    exact absurd hneg (by decide)
  · decide
  · rintro ⟨-, -, -, hnanos⟩
    exact absurd hnanos (by decide)
  · decide

/-- One second before 1970 comes after its start, and the first second past the end is taken for
the start. -/
theorem exists_ofUtc_disagrees :
    (∃ a b : Utc, a ≤ b ∧ ¬ (ofUtc a).nanos ≤ (ofUtc b).nanos) ∧
      ∃ s : UInt64, maxNanos < s.toNat * nanosPerSecond ∧
        ofUtc (.ofSeconds s) ≠ ⟨maxNanos.toUInt64⟩ ∧ ofUtc (.ofSeconds s) ≠ ofSeconds s := by
  constructor
  · refine ⟨⟨-1, 0, by decide⟩, ⟨0, 0, by decide⟩, .inl (by decide), ?_⟩
    decide
  · refine ⟨9223372037, ?_⟩
    decide

end Timestamp

end FixClient
