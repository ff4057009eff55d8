/-!
# Byte strings

Frames are lists of bytes. A field ends with the separator SOH, and its tag
ends with an equals sign, so the one operation needed on raw bytes is to cut
at the first occurrence of a byte.
-/

namespace FixClient

-- Powers of numbers are the built-in ones, whatever algebra is imported besides.
attribute [instance (1100), default_instance (11000)] instPowNat

abbrev Bytes := List UInt8

namespace Bytes

/-- The separator after every field, ASCII code 1. -/
def soh : UInt8 := 1

/-- The sign between a tag and its value. -/
def equals : UInt8 := 0x3d

/-- ASCII characters as bytes, one byte each. -/
def ascii (cs : List Char) : Bytes := cs.map fun c => c.toNat.toUInt8

@[simp] theorem ascii_nil : ascii [] = [] := rfl

@[simp] theorem ascii_cons (c : Char) (cs : List Char) :
    ascii (c :: cs) = c.toNat.toUInt8 :: ascii cs := rfl

@[simp] theorem ascii_append (l r : List Char) : ascii (l ++ r) = ascii l ++ ascii r :=
  List.map_append

@[simp] theorem length_ascii (cs : List Char) : (ascii cs).length = cs.length :=
  List.length_map _

/-- What stands before and after the first occurrence of `sep`, if there is one. -/
def cut? (sep : UInt8) : Bytes → Option (Bytes × Bytes)
  | [] => none
  | b :: rest =>
    if b = sep then some ([], rest)
    else (cut? sep rest).map fun parts => (b :: parts.1, parts.2)

theorem cut?_eq_none_iff {sep : UInt8} {bs : Bytes} : cut? sep bs = none ↔ sep ∉ bs := by
  induction bs with
  | nil => simp [cut?]
  | cons b rest ih =>
    by_cases h : b = sep
    · simp [cut?, h]
    · simp [cut?, h, ih, Ne.symm h]

theorem cut?_append {sep : UInt8} {l : Bytes} (h : sep ∉ l) (r : Bytes) :
    cut? sep (l ++ sep :: r) = some (l, r) := by
  induction l with
  | nil => simp [cut?]
  | cons b l ih =>
    have hb : b ≠ sep := fun e => h (by simp [e])
    have hl : sep ∉ l := fun m => h (List.mem_cons_of_mem _ m)
    simp [cut?, hb, ih hl]

theorem cut?_eq_some_iff {sep : UInt8} {bs l r : Bytes} :
    cut? sep bs = some (l, r) ↔ bs = l ++ sep :: r ∧ sep ∉ l := by
  constructor
  · intro h
    induction bs generalizing l with
    | nil => simp [cut?] at h
    | cons b rest ih =>
      by_cases hb : b = sep
      · simp only [cut?, hb, if_true, Option.some.injEq, Prod.mk.injEq] at h
        obtain ⟨rfl, rfl⟩ := h
        simp [hb]
      · simp only [cut?, hb, if_false, Option.map_eq_some_iff, Prod.exists, Prod.mk.injEq] at h
        obtain ⟨l', r', hcut, rfl, rfl⟩ := h
        obtain ⟨rfl, hmem⟩ := ih hcut
        simp [hmem, Ne.symm hb]
  · rintro ⟨rfl, h⟩
    exact cut?_append h r

theorem length_lt_of_cut? {sep : UInt8} {bs l r : Bytes} (h : cut? sep bs = some (l, r)) :
    r.length < bs.length := by
  obtain ⟨rfl, -⟩ := cut?_eq_some_iff.1 h
  simp
  omega

end Bytes

end FixClient
