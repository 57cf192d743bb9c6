/-
Global variables as the sanitizer sees them. A compiler pads each instrumented global, so that accesses past its end
meet padding before they meet another variable.
-/
import AddressSanitizer.Address

namespace AddressSanitizer

/-- a global variable: its address, its size, its size with the padding, and the address of its name, or zero -/
structure Global where
  start : Address
  size : UInt64
  padded : UInt64
  nameAt : Address := 0
  deriving DecidableEq, Repr

end AddressSanitizer
