/-
What a shadow byte says about its granule. Zero: the whole granule may be accessed. A value from 1 to 7: only that many
bytes at the start of the granule may be. Of the other values, the tags below name the kind of redzone the granule
belongs to.
-/
namespace AddressSanitizer

/-- the shadow bytes that have a name -/
inductive Tag where
  | valid
  | stackLeft
  | stackMiddle
  | stackRight
  | stackAfterReturn
  | stackAfterScope
  | globalRedzone
  | heapLeft
  | heapRight
  | heapFreed
  | reserved
  deriving DecidableEq, Repr

namespace Tag

def all : List Tag :=
  [valid, stackLeft, stackMiddle, stackRight, stackAfterReturn, stackAfterScope, globalRedzone, heapLeft, heapRight,
    heapFreed, reserved]

/-- the shadow byte that stands for the tag -/
def byte : Tag → UInt8
  | valid => 0x00
  | stackLeft => 0xf1
  | stackMiddle => 0xf2
  | stackRight => 0xf3
  | stackAfterReturn => 0xf5
  | stackAfterScope => 0xf8
  | globalRedzone => 0xf9
  | heapLeft => 0xfa
  | heapRight => 0xfb
  | heapFreed => 0xfd
  | reserved => 0xff

/-- the tag that a shadow byte stands for -/
def ofByte? (b : UInt8) : Option Tag := all.find? (·.byte = b)

/-- the tag's name in log lines -/
def name : Tag → String
  | valid => "AsanValid"
  | stackLeft => "AsanStackLeftRz"
  | stackMiddle => "AsanStackMidRz"
  | stackRight => "AsanStackRightRz"
  | stackAfterReturn => "AsanStackAfterReturn"
  | stackAfterScope => "AsanStackUseAfterScope"
  | globalRedzone => "AsanGlobalRz"
  | heapLeft => "AsanHeapLeftRz"
  | heapRight => "AsanHeapRightRz"
  | heapFreed => "AsanHeapFreed"
  | reserved => "AsanReserved"

theorem ofByte?_byte (t : Tag) : ofByte? t.byte = some t := by
  cases t <;> rfl

theorem byte_of_ofByte? {b : UInt8} {t : Tag} (h : ofByte? b = some t) : t.byte = b := by
  simpa using List.find?_some h

end Tag

/-- the granule is accessible up to a byte inside it -/
def IsPartial (v : UInt8) : Prop := v ≠ 0 ∧ v < 8

instance (v : UInt8) : Decidable (IsPartial v) := inferInstanceAs (Decidable (v ≠ 0 ∧ v < 8))

end AddressSanitizer
