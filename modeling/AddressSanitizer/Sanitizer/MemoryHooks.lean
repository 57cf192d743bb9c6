/-
Checked copies and fills of memory. The program's memory is checked first, and violations are reported; the bytes are
copied or filled in any case.
-/
import AddressSanitizer.Sanitizer

namespace AddressSanitizer.Sanitizer

variable {A : Type}

/-- copies `n` bytes upwards and gives back the destination -/
def copyMemory (s : Sanitizer) (dst src : Address) (n : UInt64) : Action A Empty Address := do
  match s.context.get? with
  | none => pure ()
  | some c => do let _ ← (c.checkCopy dst src n 0).attempt
  Action.modifyMemory (·.copy dst src n.toNat)
  return dst

/-- sets `n` bytes to the low byte of `value` and gives back the buffer -/
def fillMemory (s : Sanitizer) (buffer : Address) (value : Int) (n : UInt64) : Action A Empty Address := do
  match s.context.get? with
  | none => pure ()
  | some c => do let _ ← (c.checkFill buffer n 0).attempt
  Action.modifyMemory (·.fill .program buffer n.toNat (UInt8.ofNat (value % 256).toNat))
  return buffer

end AddressSanitizer.Sanitizer
