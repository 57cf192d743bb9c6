/-
Addresses of a 64-bit machine and the arithmetic on them. Addresses and lengths are machine words. Where a sum or a
difference can leave the address space, the operation says what happens: `checkedAdd` and `checkedSub` answer `none`,
`saturatingAdd` and `saturatingSub` stop at the last word and at zero, and plain `+` and `-` wrap around.

Memory is described in granules of eight bytes: a granule starts at a multiple of eight.
-/
namespace AddressSanitizer

/-- an address; lengths in bytes are words of the same width -/
abbrev Address := UInt64

/-- the sum, if it is below 2^64 -/
def checkedAdd (a b : UInt64) : Option UInt64 :=
  if a.toNat + b.toNat < 0x10000000000000000 then some (a + b) else none

/-- the difference, if it is not negative -/
def checkedSub (a b : UInt64) : Option UInt64 :=
  if b ≤ a then some (a - b) else none

/-- the sum, or the last word if the sum is larger -/
def saturatingAdd (a b : UInt64) : UInt64 :=
  (checkedAdd a b).getD (0 - 1)

/-- the difference, or zero if it is negative -/
def saturatingSub (a b : UInt64) : UInt64 :=
  (checkedSub a b).getD 0

/-- an address at which a granule starts, or a length of whole granules -/
def Aligned (a : UInt64) : Prop := a % 8 = 0

instance (a : UInt64) : Decidable (Aligned a) := inferInstanceAs (Decidable (a % 8 = 0))

/-- how far into its granule an address lies -/
def granuleOffset (a : UInt64) : UInt64 := a % 8

/-- the start of the granule that holds `a` -/
def alignDown (a : UInt64) : UInt64 := a - a % 8

/-- the least multiple of eight not below `a`, if there is one below 2^64 -/
def alignUp (a : UInt64) : Option UInt64 :=
  (checkedAdd a 7).map alignDown

/-- whether `a` is 2^k for some `k` -/
def isPowerOfTwo (a : UInt64) : Bool :=
  (List.range 64).any fun k => a.toNat == 1 <<< k

/-! ## Their values as natural numbers -/

theorem checkedAdd_eq_some_iff {a b c : UInt64} :
    checkedAdd a b = some c ↔ c.toNat = a.toNat + b.toNat := by
  have hc := c.toNat_lt
  unfold checkedAdd
  split
  · rename_i h
    rw [Option.some.injEq, ← UInt64.toNat_inj, UInt64.toNat_add, Nat.mod_eq_of_lt h, eq_comm]
  · simp only [reduceCtorEq, false_iff]
    omega

theorem checkedAdd_eq_none_iff {a b : UInt64} : checkedAdd a b = none ↔ 0x10000000000000000 ≤ a.toNat + b.toNat := by
  unfold checkedAdd
  split <;> simp only [reduceCtorEq, false_iff, true_iff] <;> omega

theorem checkedSub_eq_some_iff {a b c : UInt64} :
    checkedSub a b = some c ↔ a.toNat = b.toNat + c.toNat := by
  unfold checkedSub
  split
  · rename_i h
    have h' := UInt64.le_iff_toNat_le.mp h
    rw [Option.some.injEq, ← UInt64.toNat_inj, UInt64.toNat_sub_of_le _ _ h]
    omega
  · rename_i h
    rw [UInt64.le_iff_toNat_le] at h
    simp only [reduceCtorEq, false_iff]
    omega

theorem toNat_alignDown (a : UInt64) : (alignDown a).toNat = a.toNat - a.toNat % 8 := by
  unfold alignDown
  have h : (a % 8).toNat = a.toNat % 8 := by simp
  rw [UInt64.toNat_sub_of_le _ _ (UInt64.le_iff_toNat_le.mpr (by omega)), h]

theorem alignUp_eq_none_iff {a : UInt64} : alignUp a = none ↔ 0x10000000000000000 ≤ a.toNat + 7 := by
  unfold alignUp
  rw [Option.map_eq_none_iff, checkedAdd_eq_none_iff]
  rfl

end AddressSanitizer
