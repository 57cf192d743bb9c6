/-
An arena: one allocation laid out like a whole platform. Real memory comes first, then the shadow bytes, one eighth of
the arena, which describe all of it including themselves. Nothing in an arena is peripheral memory, and everything from
its end on counts as untracked.
-/
import AddressSanitizer.Layout
import AddressSanitizer.Shadow.Map

namespace AddressSanitizer

/-- the `len` bytes from `start` on -/
structure Arena where
  start : Address
  len : UInt64
  deriving DecidableEq, Repr

/-- why there is no arena -/
inductive ArenaError where
  | invalidLength (len : UInt64)
  | allocationFailed (len : UInt64)
  deriving DecidableEq, Repr

namespace ArenaError

def name : ArenaError → String
  | invalidLength _ => "InvalidLength"
  | allocationFailed _ => "AllocationFailed"

def message : ArenaError → String
  | invalidLength len => s!"Invalid arena length: {Hex.lower len}"
  | allocationFailed len => s!"Failed to allocate arena of length: {Hex.lower len}"

end ArenaError

namespace Arena

/-- the arena's alignment in bytes -/
def alignment : UInt64 := 4096

/-- The least length of an arena; every other length is a multiple of it, so that the shadow bytes are whole granules
too. -/
def lengthUnit : UInt64 := 64

/-- the arena can be asked for: a positive multiple of the unit that, rounded up to the alignment, is below 2^63 -/
def ValidLength (len : UInt64) : Prop := len ≠ 0 ∧ len % lengthUnit = 0 ∧ len.toNat + alignment.toNat ≤ 1 <<< 63

instance (len : UInt64) : Decidable (ValidLength len) := inferInstanceAs (Decidable (_ ∧ _))

def stop (a : Arena) : Address := a.start + a.len

def shadowLen (a : Arena) : UInt64 := a.len / 8

/-- the bytes in front of the shadow bytes -/
def realLen (a : Arena) : UInt64 := a.len - a.shadowLen

def shadowStart (a : Arena) : Address := a.start + a.realLen

/-- the offset at which the first shadow byte describes the first granule of the arena -/
def translation (a : Arena) : Translation := ⟨a.shadowStart - a.start / 8⟩

/-- the shadow map, which lies in the arena itself -/
def shadowMap (a : Arena) (translation : Translation) : ShadowMap :=
  { space := .program, base := a.shadowStart, len := a.shadowLen, translation }

/-- the arena as a platform -/
def layout (a : Arena) : Layout where
  shadowStart := a.shadowStart
  shadowSize := a.shadowLen
  shadowOffset := a.translation.offset
  lowEnd := a.stop
  highStart := a.stop
  highEnd := a.stop

/-- Sets up an arena of zero bytes; `place` finds room for an allocation of a length, if there is any. -/
def create {A : Type} (place : UInt64 → Option Address) (len : UInt64) : Action A ArenaError Arena := do
  if ValidLength len then
    let start ← Action.require (place len) (.allocationFailed len)
    Action.modifyMemory (·.fill .program start len.toNat 0)
    let arena : Arena := { start, len }
    Action.emit (.arena start len arena.shadowStart)
    return arena
  else Action.fail (.invalidLength len)

end Arena

end AddressSanitizer
