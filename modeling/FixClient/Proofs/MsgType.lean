import FixClient.MsgType

/-!
# Codes of message types

Reading a code and giving the code of a type undo each other. A code always comes back, whatever
it is. A type comes back unless it carries without a name a code that has one; such a type is read
from no text.
-/

namespace FixClient.MsgType

variable {t : MsgType} {s s' : String}

theorem mem_named_iff : t ∈ named ↔ ∀ code, t ≠ .custom code := by
  cases t <;> simp [named]

/-- No two types with a name share their code. -/
theorem nodup_code_named : (named.map code).Nodup := by decide

theorem ofCode_inj : ofCode s = ofCode s' ↔ s = s' := by
  constructor
  · intro h
    rw [← code_ofCode s, h, code_ofCode]
  · rintro rfl
    rfl

theorem ofCode_code_of_mem_named (h : t ∈ named) : ofCode t.code = t := by
  cases t with
  | custom code => exact absurd rfl (mem_named_iff.mp h code)
  | _ => rfl

theorem ofCode_eq_iff_of_mem_named (h : t ∈ named) : ofCode s = t ↔ s = t.code := by
  constructor
  · rintro rfl
    exact (code_ofCode s).symm
  · rintro rfl
    exact ofCode_code_of_mem_named h

/-- A code is carried as it is unless a type with a name has it. -/
theorem ofCode_eq_custom_iff : ofCode s = .custom s ↔ ∀ known ∈ named, known.code ≠ s := by
  constructor
  · rintro hcustom known hknown rfl
    rw [ofCode_code_of_mem_named hknown] at hcustom
    exact mem_named_iff.mp hknown _ hcustom
  · intro hnone
    apply Decidable.byContradiction
    intro hne
    -- What is read otherwise has a name, and it has this code.
    refine hnone (ofCode s) (mem_named_iff.mpr ?_) (code_ofCode s)
    intro code hcustom
    have hcode : s = code := by rw [← code_ofCode s, hcustom, MsgType.code]
    exact hne (hcode ▸ hcustom)

theorem ofCode_code_eq_iff : ofCode t.code = t ↔ ∀ known ∈ named, t ≠ .custom known.code := by
  cases t with
  | custom s =>
      simp only [MsgType.code, ofCode_eq_custom_iff, ne_eq, custom.injEq, eq_comm (a := s)]
  | _ => exact iff_of_true rfl fun _ _ => by simp

/-- There are twenty-six types with a name, and their codes are different. Every code is kept by
the type that is read from it, so the types of two codes are the same only if the codes are. Every
type is read again from its code, with and without a name, except for those that carry the code of
a type with a name as a code without one. -/
theorem codes_and_types_invert :
    (named.length = 26 ∧ (named.map code).Nodup ∧ ∀ t, t ∈ named ↔ ∀ code, t ≠ .custom code) ∧
      (∀ s, (ofCode s).code = s) ∧ (∀ s s', ofCode s = ofCode s' ↔ s = s') ∧
        ∀ t, ofCode t.code = t ↔ ∀ known ∈ named, t ≠ .custom known.code :=
  ⟨⟨rfl, nodup_code_named, fun _ => mem_named_iff⟩, code_ofCode, fun _ _ => ofCode_inj,
    fun _ => ofCode_code_eq_iff⟩

example : ofCode (custom "A").code = .logon ∧ ofCode (custom "BE").code = .custom "BE" := ⟨rfl, rfl⟩

end FixClient.MsgType
