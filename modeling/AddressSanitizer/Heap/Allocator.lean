/-
Heap allocators, as a platform provides them. An allocator hands out blocks of memory, resizes them and takes them
back; its state is the `allocator` of the machine, and it may use the machine's memory for bookkeeping of its own.
-/
import AddressSanitizer.Machine

namespace AddressSanitizer

/-- the operations of an allocator with state `A` and errors in `E`, and the short form of its errors -/
class HeapAllocator (A : Type) (E : outParam Type) where
  /-- hands out a block of at least `len` bytes -/
  allocate : (len : UInt64) → Action A E Address
  /-- gives a block another length, possibly at another address -/
  reallocate : (block : Address) → (len : UInt64) → Action A E Address
  /-- takes a block back -/
  free : (block : Address) → Action A E Unit
  errorText : E → String

end AddressSanitizer
