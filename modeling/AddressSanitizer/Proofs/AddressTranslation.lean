/-
The translation between addresses and shadow addresses, as arithmetic. The offset may be any word, so that shadow addresses
wrap around at the end of the address space; the real addresses that they describe do not. Of the 2^64 shadow addresses,
2^61 are the shadow address of something: those less than 2^61 above the offset, wrapping around.

- `toNat_toShadow`, `toNat_toReal`: both directions as functions of numbers; `toShadow_eq_iff`: which addresses share their
  shadow address.
- `exists_toShadow_eq_iff`, `toShadow_toReal_eq_iff`: which shadow addresses these are, and that exactly they are found
  again from the granule that they describe.
- `toNat_toShadow_sub`: the distance of two shadow addresses is that of the granules, wherever the offset wraps.
- `toShadow_le_toShadow_iff`: where the order of addresses is lost.
- `granules_correspond`: the laws together.
-/
import Mathlib.Tactic
import AddressSanitizer.Shadow.Translation

namespace AddressSanitizer.Translation

variable {t : Translation} {a b s : Address}

theorem toNat_toShadow (t : Translation) (a : Address) :
    (t.toShadow a).toNat = (a.toNat / 8 + t.offset.toNat) % 2 ^ 64 := by
  rw [toShadow, UInt64.toNat_add, UInt64.toNat_div]
  rfl

/-- Of the distance from the offset, only the 61 low bits count. -/
theorem toNat_toReal (t : Translation) (s : Address) :
    (t.toReal s).toNat = (s - t.offset).toNat % 2 ^ 61 * 8 := by
  have h8 : (8 : UInt64).toNat = 8 := rfl
  rw [toReal, UInt64.toNat_mul, h8]
  omega

/-- Two addresses share their shadow byte exactly if they lie in one granule. -/
theorem toShadow_eq_iff : t.toShadow a = t.toShadow b ↔ a.toNat / 8 = b.toNat / 8 := by
  have ha := a.toNat_lt
  have hb := b.toNat_lt
  rw [← UInt64.toNat_inj, toNat_toShadow, toNat_toShadow]
  omega

/-- how far a shadow address lies above the offset, wrapping around -/
theorem toNat_sub_offset (t : Translation) (s : Address) :
    ((s - t.offset).toNat : ℤ) = ((s.toNat : ℤ) - t.offset.toNat) % 2 ^ 64 := by
  have hs := s.toNat_lt
  have hoffset := t.offset.toNat_lt
  rw [UInt64.toNat_sub]
  omega

/-- The granule number of an address is the distance of its shadow address from the offset. -/
theorem toNat_toShadow_sub_offset (t : Translation) (a : Address) : (t.toShadow a - t.offset).toNat = a.toNat / 8 := by
  rw [toShadow, UInt64.add_sub_cancel, UInt64.toNat_div]
  rfl

theorem exists_toShadow_eq_iff : (∃ a, t.toShadow a = s) ↔ (s - t.offset).toNat < 2 ^ 61 := by
  constructor
  · rintro ⟨a, rfl⟩
    have ha := a.toNat_lt
    rw [toNat_toShadow_sub_offset]
    omega
  · intro h
    -- the first byte of the granule with this number
    have hreal : (t.toReal s).toNat / 8 = (s - t.offset).toNat := by
      rw [toNat_toReal]
      omega
    refine ⟨t.toReal s, ?_⟩
    have hs := s.toNat_lt
    have hoffset := t.offset.toNat_lt
    have hsub := toNat_sub_offset t s
    rw [← UInt64.toNat_inj, toNat_toShadow, hreal]
    omega

/-- The granule that a shadow address describes has that shadow address, unless no granule has it. -/
theorem toShadow_toReal_eq_iff : t.toShadow (t.toReal s) = s ↔ (s - t.offset).toNat < 2 ^ 61 := by
  rw [← exists_toShadow_eq_iff]
  constructor
  · intro h
    exact ⟨t.toReal s, h⟩
  · rintro ⟨a, rfl⟩
    rw [toReal_toShadow, toShadow_eq_iff, toNat_alignDown]
    omega

theorem toNat_toShadow_sub (h : a.toNat ≤ b.toNat) :
    (t.toShadow b - t.toShadow a).toNat = b.toNat / 8 - a.toNat / 8 := by
  have hb := b.toNat_lt
  rw [UInt64.toNat_sub, toNat_toShadow, toNat_toShadow]
  omega

/-- Shadow addresses are in the order of their addresses, unless that of `a` is below the end of the address space and that
of `b` has wrapped around. -/
theorem toShadow_le_toShadow_iff (h : a.toNat ≤ b.toNat) :
    (t.toShadow a).toNat ≤ (t.toShadow b).toNat ↔
      ¬(a.toNat / 8 + t.offset.toNat < 2 ^ 64 ∧ 2 ^ 64 ≤ b.toNat / 8 + t.offset.toNat) := by
  have hb := b.toNat_lt
  have hoffset := t.offset.toNat_lt
  rw [toNat_toShadow, toNat_toShadow]
  omega

/-- **Translation pairs granules and shadow addresses, with any offset.** Going to the shadow byte of an address and back
gives the start of the granule, and two addresses have the same shadow byte exactly if they share the granule. Going back and
forth gives a shadow address again exactly if it lies less than 2^61 above the offset, wrapping around; these are the shadow
addresses that some address has. For two addresses in order, the shadow addresses are as far apart as the granules, wrapping
around, and are in order too unless the wrap point lies between them. -/
theorem granules_correspond (t : Translation) :
    (∀ a, (t.toReal (t.toShadow a)).toNat = a.toNat / 8 * 8) ∧
    (∀ a b, t.toShadow a = t.toShadow b ↔ a.toNat / 8 = b.toNat / 8) ∧
    (∀ s, t.toShadow (t.toReal s) = s ↔ ((s.toNat : ℤ) - t.offset.toNat) % 2 ^ 64 < 2 ^ 61) ∧
    (∀ s, (∃ a, t.toShadow a = s) ↔ ((s.toNat : ℤ) - t.offset.toNat) % 2 ^ 64 < 2 ^ 61) ∧
    ∀ a b, a.toNat ≤ b.toNat →
      (((t.toShadow b).toNat : ℤ) - (t.toShadow a).toNat) % 2 ^ 64 = (b.toNat / 8 : ℕ) - (a.toNat / 8 : ℕ) ∧
      ((t.toShadow a).toNat ≤ (t.toShadow b).toNat ↔
        ¬(a.toNat / 8 + t.offset.toNat < 2 ^ 64 ∧ 2 ^ 64 ≤ b.toNat / 8 + t.offset.toNat)) := by
  have himage (s : Address) :
      (s - t.offset).toNat < 2 ^ 61 ↔ ((s.toNat : ℤ) - t.offset.toNat) % 2 ^ 64 < 2 ^ 61 := by
    rw [← toNat_sub_offset]
    omega
  refine ⟨?_, ?_, ?_, ?_, ?_⟩
  · intro a
    rw [toReal_toShadow, toNat_alignDown]
    omega
  · intro a b
    exact toShadow_eq_iff
  · intro s
    exact toShadow_toReal_eq_iff.trans (himage s)
  · intro s
    exact exists_toShadow_eq_iff.trans (himage s)
  · intro a b hle
    have hdistance := toNat_toShadow_sub (t := t) hle
    rw [UInt64.toNat_sub] at hdistance
    have ha := (t.toShadow a).toNat_lt
    have hb := (t.toShadow b).toNat_lt
    exact ⟨by omega, toShadow_le_toShadow_iff hle⟩

/-- an offset sixteen bytes below the end of the address space -/
def highOffset : Translation := ⟨0xfffffffffffffff0⟩

/-- The last granule before the wrap point and the first one behind it: one shadow byte apart, and in the wrong order. The
shadow address 2^61 above the offset is that of no granule. -/
theorem highOffset_granules_correspond :
    (0x7f : Address).toNat ≤ (0x80 : Address).toNat ∧
    highOffset.toShadow 0x7f = 0xffffffffffffffff ∧ highOffset.toShadow 0x80 = 0 ∧
    ((highOffset.toShadow 0x80).toNat - (highOffset.toShadow 0x7f).toNat : ℤ) % 2 ^ 64 = 1 ∧
    ¬(highOffset.toShadow 0x7f).toNat ≤ (highOffset.toShadow 0x80).toNat ∧
    highOffset.toShadow (highOffset.toReal 0x1ffffffffffffff0) ≠ 0x1ffffffffffffff0 := by
  obtain ⟨-, -, hback, -, horder⟩ := granules_correspond highOffset
  obtain ⟨hdistance, hle⟩ := horder 0x7f 0x80 (by decide)
  refine ⟨by decide, by decide, by decide, hdistance, ?_, ?_⟩
  · rw [hle]
    exact not_not_intro ⟨by decide, by decide⟩
  · rw [ne_eq, hback]
    decide

end AddressSanitizer.Translation
