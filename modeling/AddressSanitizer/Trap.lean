/-
Traps. A trap ends an operation where it stands: a checked assertion that fails, machine arithmetic that overflows, or
a latch that an earlier trap has broken. What the operation did before the trap stays done.
-/
namespace AddressSanitizer

/-- why an operation stopped without an answer -/
inductive Trap where
  /-- poisoning a range that is not made of whole granules -/
  | unalignedPoison
  /-- unpoisoning from the middle of a granule -/
  | unalignedUnpoison
  /-- rounding up past the end of the address space -/
  | alignUpOverflow
  | addOverflow
  | subOverflow
  | mulOverflow
  /-- filling a latch again after a fill that trapped -/
  | brokenLatch
  deriving DecidableEq, Repr

/-- the text a trap prints -/
def Trap.message : Trap → String
  | .unalignedPoison =>
    "assertion failed: ShadowTranslator::is_aligned(start) && ShadowTranslator::is_aligned(len)"
  | .unalignedUnpoison => "assertion failed: ShadowTranslator::is_aligned(start)"
  | .alignUpOverflow => "assertion failed: addr <= GuestAddr::MAX - KASAN_SHADOW_MASK"
  | .addOverflow => "attempt to add with overflow"
  | .subOverflow => "attempt to subtract with overflow"
  | .mulOverflow => "attempt to multiply with overflow"
  | .brokenLatch => "Once panicked"

end AddressSanitizer
