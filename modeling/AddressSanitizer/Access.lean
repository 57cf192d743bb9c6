/-
Accesses and violations. An access is a range of bytes that the program reads or writes at some point of its code; a
violation is an access together with the shadow byte that forbids it and the kind of bug which that byte suggests.
-/
import AddressSanitizer.Address
import AddressSanitizer.Shadow.Tag
import AddressSanitizer.Text.ErrorText
import AddressSanitizer.Text.Hex

namespace AddressSanitizer

/-- a read or a write of `size` bytes, from the code at `pc` -/
structure Access where
  addr : Address
  size : UInt64
  isWrite : Bool
  pc : Address
  deriving DecidableEq, Repr

namespace Access

def load (addr : Address) (size : UInt64) (pc : Address) : Access := ⟨addr, size, false, pc⟩

def store (addr : Address) (size : UInt64) (pc : Address) : Access := ⟨addr, size, true, pc⟩

/-- the last byte accessed; an empty access has none, nor has one that runs past the end of the address space -/
def last? (x : Access) : Option Address := (checkedSub x.size 1).bind (checkedAdd x.addr)

def direction (x : Access) : String := if x.isWrite then "WRITE" else "READ"

end Access

/-- the kinds of bug that a shadow byte tells apart -/
inductive ViolationKind where
  | heapBufferOverflow
  | heapUseAfterFree
  | globalBufferOverflow
  | stackBufferOverflow
  | stackUseAfterReturn
  | stackUseAfterScope
  | shadowAccess
  | outOfBounds
  | unknown (shadow : UInt8)
  deriving DecidableEq, Repr

namespace ViolationKind

/-- what a tag says about an access it forbids -/
def ofTag : Tag → ViolationKind
  | .heapLeft | .heapRight => heapBufferOverflow
  | .heapFreed => heapUseAfterFree
  | .globalRedzone => globalBufferOverflow
  | .stackLeft | .stackMiddle | .stackRight => stackBufferOverflow
  | .stackAfterReturn => stackUseAfterReturn
  | .stackAfterScope => stackUseAfterScope
  | .reserved => shadowAccess
  | .valid => unknown Tag.valid.byte

/-- the kind of a violation that no neighbour explains -/
def ofByte (v : UInt8) : ViolationKind :=
  match Tag.ofByte? v with
  | some tag => ofTag tag
  | none => if IsPartial v then outOfBounds else unknown v

/-- The kind of a violation from the shadow byte that forbids the access. A partial granule says nothing about what
lies behind it, so the shadow byte after it decides, if that is the shadow of a granule with no accessible byte. -/
def ofShadow (v : UInt8) (next : Option UInt8) : ViolationKind :=
  if IsPartial v then
    match next with
    | some n => if 8 ≤ n then ofByte n else outOfBounds
    | none => outOfBounds
  else ofByte v

def description : ViolationKind → String
  | heapBufferOverflow => "heap-buffer-overflow"
  | heapUseAfterFree => "heap-use-after-free"
  | globalBufferOverflow => "global-buffer-overflow"
  | stackBufferOverflow => "stack-buffer-overflow"
  | stackUseAfterReturn => "stack-use-after-return"
  | stackUseAfterScope => "stack-use-after-scope"
  | shadowAccess => "wild-access-to-shadow-memory"
  | outOfBounds => "out-of-bounds"
  | unknown _ => "unknown-crash"

/-- the kind's name; an unknown one carries its shadow byte in decimal -/
def name : ViolationKind → String
  | heapBufferOverflow => "HeapBufferOverflow"
  | heapUseAfterFree => "HeapUseAfterFree"
  | globalBufferOverflow => "GlobalBufferOverflow"
  | stackBufferOverflow => "StackBufferOverflow"
  | stackUseAfterReturn => "StackUseAfterReturn"
  | stackUseAfterScope => "StackUseAfterScope"
  | shadowAccess => "ShadowAccess"
  | outOfBounds => "OutOfBounds"
  | unknown v => ErrorText.apply "Unknown" [toString v.toNat]

end ViolationKind

/-- a forbidden access: the first shadow byte that forbids it, and what kind of bug it is -/
structure Violation where
  access : Access
  shadowAddr : Address
  shadowValue : UInt8
  kind : ViolationKind
  deriving DecidableEq, Repr

/-- the violation in one line -/
def Violation.text (v : Violation) : String :=
  s!"{v.kind.description} - {v.access.direction} of size {Hex.lower v.access.size} at {Hex.lower v.access.addr}, " ++
    s!"shadow {Hex.lower v.shadowAddr}: 0x" ++ Hex.bytes [v.shadowValue]

end AddressSanitizer
