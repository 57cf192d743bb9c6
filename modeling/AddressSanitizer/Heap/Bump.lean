/-
A bump allocator. Blocks are carved one after the other from a region of memory; the cursor stands behind the last
one. Two words right below each block describe it:

    | padding | cursor before the block | length | block ...

Only the block that ends at the cursor can be resized in place, and giving it back moves the cursor to where it stood
before the block was carved. Any other block is copied when it grows, and stays where it is when it is given back.
-/
import AddressSanitizer.Heap.Allocator
import AddressSanitizer.Text.Hex

namespace AddressSanitizer

/-- a region, the cursor in it, and the alignment of its blocks -/
structure Bump where
  start : Address
  stop : Address
  cursor : Address
  align : UInt64
  deriving DecidableEq, Repr

inductive BumpError where
  /-- the alignment is not a power of two -/
  | invalidAlignment (align : UInt64)
  /-- the region runs past the end of the address space -/
  | invalidRegion (start len : UInt64)
  | outOfMemory (len : UInt64)
  /-- there can be no block at this address -/
  | invalidAddress (addr : UInt64)
  deriving DecidableEq, Repr

namespace BumpError

def name : BumpError → String
  | invalidAlignment _ => "InvalidAlignment"
  | invalidRegion .. => "InvalidRegion"
  | outOfMemory _ => "OutOfMemory"
  | invalidAddress _ => "InvalidAddress"

def arguments : BumpError → List UInt64
  | invalidAlignment align => [align]
  | invalidRegion start len => [start, len]
  | outOfMemory len => [len]
  | invalidAddress addr => [addr]

def short (e : BumpError) : String := ErrorText.ofWords e.name e.arguments

def message : BumpError → String
  | invalidAlignment align => s!"Invalid alignment: {Hex.lower align}"
  | invalidRegion start len => s!"Invalid region - start: {Hex.lower start}, len: {Hex.lower len}"
  | outOfMemory len => s!"Out of memory: {Hex.lower len}"
  | invalidAddress addr => s!"Invalid address: {Hex.lower addr}"

end BumpError

namespace Bump

/-- bytes of bookkeeping below each block -/
def metadata : UInt64 := 16

/-- an allocator over an empty region -/
def ofRegion (start len align : UInt64) : Except BumpError Bump :=
  if isPowerOfTwo align then
    match checkedAdd start len with
    | some stop => .ok { start, stop, cursor := start, align }
    | none => .error (.invalidRegion start len)
  else .error (.invalidAlignment align)

/-- a machine with the allocator on it; setting it up is logged -/
def machine (b : Bump) (memory : Memory) : Machine Bump where
  memory
  log := #[.bumpRegion b.start b.stop b.align]
  allocator := b

/-- the bytes between the cursor and the end of the region, unless the cursor has left it -/
def remaining? (b : Bump) : Option UInt64 := checkedSub b.stop b.cursor

/-- the first aligned address with room for the metadata above the cursor -/
def nextBlock? (b : Bump) : Option Address :=
  (checkedAdd b.cursor (metadata + b.align - 1)).map fun a => a - a % b.align

/-- where a block of `len` bytes ends, if it ends in the region -/
def stopOf? (b : Bump) (block : Address) (len : UInt64) : Option Address :=
  (checkedAdd block len).filter (· ≤ b.stop)

/-- records the length of a block -/
def setLength (block : Address) (len : UInt64) : Action Bump BumpError Unit :=
  Action.modifyMemory (·.writeWord (block - 8) len)

/-- places a new block above the cursor -/
def carve (len : UInt64) : Action Bump BumpError Address := do
  let b ← Action.allocator
  let block ← Action.require b.nextBlock? (.outOfMemory len)
  let stop ← Action.require (b.stopOf? block len) (.outOfMemory len)
  setLength block len
  Action.modifyMemory (·.writeWord (block - metadata) b.cursor)
  Action.setAllocator { b with cursor := stop }
  Action.emit (.bumpBlock block len)
  return block

/-- the recorded length of a block; an address outside the part of the region in use is no block -/
def lengthOf (block : Address) : Action Bump BumpError UInt64 := do
  let b ← Action.allocator
  let first ← Action.add b.start metadata
  if block < first ∨ b.cursor < block then Action.fail (.invalidAddress block)
  else return (← Action.memory).readWord (block - 8)

/-- the block ends at the cursor -/
def isLast (block len : UInt64) : Action Bump BumpError Bool := do
  return (← Action.add block len) = (← Action.allocator).cursor

/-- moves the end of a block, which must stay in the region -/
def resizeLast (block len : UInt64) : Action Bump BumpError Address := do
  let b ← Action.allocator
  let stop ← Action.require (b.stopOf? block len) (.outOfMemory len)
  setLength block len
  Action.setAllocator { b with cursor := stop }
  return block

def reallocate (block len : UInt64) : Action Bump BumpError Address := do
  let oldLen ← lengthOf block
  if ← isLast block oldLen then resizeLast block len
  else if len ≤ oldLen then
    setLength block len
    return block
  else
    let moved ← carve len
    Action.modifyMemory (·.copy moved block oldLen.toNat)
    return moved

def free (block : Address) : Action Bump BumpError Unit := do
  let len ← lengthOf block
  if ← isLast block len then
    let cursor := (← Action.memory).readWord (block - metadata)
    Action.setAllocator { (← Action.allocator) with cursor }

instance : HeapAllocator Bump BumpError where
  allocate := carve
  reallocate := reallocate
  free := free
  errorText := BumpError.short

end Bump

end AddressSanitizer
