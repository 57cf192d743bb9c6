/-
Which shadow bytes a map holds, and what a write does to them.

- `backs_iff`: the map holds the `len` shadow bytes from its base on.
- `write_eq_ok_iff`: a write succeeds exactly if the map holds all of its bytes, and then sets them and nothing else.
- `write_of_below`, `write_of_past`: the two ways in which a write is refused.
-/
import Mathlib.Tactic
import AddressSanitizer.Memory.Lemmas
import AddressSanitizer.Shadow.Map

namespace AddressSanitizer.ShadowMap

variable {s : ShadowMap} {memory memory' : Memory} {shadow a : Address} {len : UInt64} {v : UInt8}

theorem backs_iff :
    s.Backs shadow ↔ s.base.toNat ≤ shadow.toNat ∧ shadow.toNat < s.base.toNat + s.len.toNat := by
  unfold Backs
  rw [UInt64.le_iff_toNat_le, UInt64.lt_iff_toNat_lt]
  constructor
  · rintro ⟨h1, h2⟩
    rw [UInt64.toNat_sub_of_le _ _ (UInt64.le_iff_toNat_le.mpr h1)] at h2
    omega
  · rintro ⟨h1, h2⟩
    rw [UInt64.toNat_sub_of_le _ _ (UInt64.le_iff_toNat_le.mpr h1)]
    omega

theorem load?_eq_some_iff : s.load? memory shadow = some v ↔ s.Backs shadow ∧ memory.read s.space shadow = v := by
  unfold load?
  split <;> simp [*]

theorem load?_eq_none_iff : s.load? memory shadow = none ↔ ¬s.Backs shadow := by
  unfold load?
  split <;> simp [*]

theorem write_zero : s.write shadow 0 v memory = .ok memory := by
  simp [write]

theorem write_eq_ok_iff (h : len ≠ 0) :
    s.write shadow len v memory = .ok memory' ↔
      s.base.toNat ≤ shadow.toNat ∧ shadow.toNat + len.toNat ≤ s.base.toNat + s.len.toNat ∧
        memory' = memory.fill s.space shadow len.toNat v := by
  unfold write
  rw [if_neg h]
  cases hfirst : checkedSub shadow s.base with
  | none =>
    have hlt : ¬s.base.toNat ≤ shadow.toNat := by
      intro hle
      rw [checkedSub, if_pos (UInt64.le_iff_toNat_le.mpr hle)] at hfirst
      cases hfirst
    simp [hlt]
  | some first =>
    have hf := checkedSub_eq_some_iff.mp hfirst
    simp only
    split
    · rw [Except.ok.injEq]
      constructor
      · rintro rfl
        exact ⟨by omega, by omega, rfl⟩
      · rintro ⟨-, -, rfl⟩
        rfl
    · simp only [reduceCtorEq, false_iff]
      omega

theorem write_of_below (hlen : len ≠ 0) (h : shadow.toNat < s.base.toNat) :
    s.write shadow len v memory = .error (.invalidAddress shadow) := by
  have hfirst : checkedSub shadow s.base = none := if_neg fun hle => by
    rw [UInt64.le_iff_toNat_le] at hle
    omega
  simp only [write, if_neg hlen, hfirst]

theorem write_of_past (hlen : len ≠ 0) (hbase : s.base.toNat ≤ shadow.toNat)
    (h : s.base.toNat + s.len.toNat < shadow.toNat + len.toNat) :
    s.write shadow len v memory = .error (.invalidRange shadow len) := by
  have hfirst : checkedSub shadow s.base = some (shadow - s.base) := if_pos (UInt64.le_iff_toNat_le.mpr hbase)
  have hdistance := checkedSub_eq_some_iff.mp hfirst
  have hover : ¬(shadow - s.base).toNat + len.toNat ≤ s.len.toNat := by omega
  simp only [write, if_neg hlen, hfirst, if_neg hover]

end AddressSanitizer.ShadowMap
