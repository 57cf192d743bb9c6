/-
The memory map of a platform, and the boundaries that decide which accesses are trusted.

    0             lowEnd           highStart            highEnd
    | low memory   | peripherals    | high memory (heap)  | untracked
         [shadowStart, shadowStart + shadowSize) lies in low memory
-/
import AddressSanitizer.Address

namespace AddressSanitizer

/-- Where a platform puts its shadow region and its memories. If the shadow map covers memory from address zero, its
offset is the start of the shadow region; high memory starts at one gigabyte unless the platform says otherwise. -/
structure Layout where
  shadowStart : Address
  shadowSize : UInt64
  shadowOffset : Address := shadowStart
  lowEnd : Address
  highStart : Address := 0x40000000
  highEnd : Address
  deriving DecidableEq, Repr

/-- the windows of memory that are never validated, as recorded when a context is initialized -/
structure Boundaries where
  shadowStart : Address
  shadowEnd : Address
  lowEnd : Address
  highStart : Address
  highEnd : Address
  deriving DecidableEq, Repr

namespace Boundaries

/-- a shadow region that runs past the end of the address space is cut at the last address -/
def ofLayout (l : Layout) : Boundaries where
  shadowStart := l.shadowStart
  shadowEnd := saturatingAdd l.shadowStart l.shadowSize
  lowEnd := l.lowEnd
  highStart := l.highStart
  highEnd := l.highEnd

/-- the length of the shadow region; there is none if the region ends before it starts -/
def shadowSize? (b : Boundaries) : Option UInt64 := checkedSub b.shadowEnd b.shadowStart

/-- The range from `start` to `last`, both included, lies inside the shadow region, or between low and high memory, or
reaches behind the end of high memory. -/
def Trusted (b : Boundaries) (start last : Address) : Prop :=
  (b.shadowStart ≤ start ∧ last < b.shadowEnd) ∨ (b.lowEnd ≤ start ∧ last < b.highStart) ∨ b.highEnd ≤ last

instance (b : Boundaries) (start last : Address) : Decidable (b.Trusted start last) :=
  inferInstanceAs (Decidable (_ ∨ _ ∨ _))

end Boundaries

end AddressSanitizer
