/-
Translation between real addresses and the addresses of their shadow bytes. The shadow byte of `a` is at
`a / 8 + offset`, wrapping around; every granule of eight bytes has one shadow byte.
-/
import AddressSanitizer.Address

namespace AddressSanitizer

/-- the constant between an address's granule number and its shadow address -/
structure Translation where
  offset : Address
  deriving DecidableEq, Repr

namespace Translation

/-- where the shadow byte of `a` is -/
def toShadow (t : Translation) (a : Address) : Address := a / 8 + t.offset

/-- the first byte of the granule that the shadow byte at `s` describes -/
def toReal (t : Translation) (s : Address) : Address := (s - t.offset) * 8

theorem toReal_toShadow (t : Translation) (a : Address) : t.toReal (t.toShadow a) = alignDown a := by
  unfold toReal toShadow
  rw [← UInt64.toNat_inj, toNat_alignDown, UInt64.add_sub_cancel, UInt64.toNat_mul, UInt64.toNat_div]
  have := a.toNat_lt
  simp only [UInt64.reduceToNat]
  omega

end Translation

end AddressSanitizer
