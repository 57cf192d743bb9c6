/-
Redzones around heap blocks. A block is asked from the allocator with room for a redzone in front of the user's bytes
and one behind them:

    header                 user                   user + aligned
    | aligned | head rz ... | user data (len) | pad | tail rz ... |
    |<------- head -------->|<----- aligned ------>|<-- tail --->|

The first word of the head redzone records the user length rounded up to whole granules, so a block can be given back
by its user address alone. The bytes of a freed block are poisoned until the allocator hands them out again.

Only the allocator makes an operation fail: a block whose shadow bytes cannot be written is handed out untracked.
-/
import AddressSanitizer.Config
import AddressSanitizer.Heap.Allocator
import AddressSanitizer.Shadow.Map

namespace AddressSanitizer

/-- the user length in whole granules, and the length with both redzones -/
structure BlockSize where
  aligned : UInt64
  total : UInt64
  deriving DecidableEq, Repr

/-- the sizes of the redzones in front of a block and behind it -/
structure Redzones where
  head : UInt64 := 64
  tail : UInt64 := 32
  deriving DecidableEq, Repr

/-- why a heap operation failed; `E` are the allocator's errors -/
inductive HeapError (E : Type) where
  | allocator (cause : E)
  /-- the block with its redzones is longer than the address space -/
  | sizeOverflow (len : UInt64)
  /-- there is no room for a head redzone below this address -/
  | invalidAddress (user : UInt64)
  deriving DecidableEq, Repr

namespace HeapError

variable {E : Type}

def name : HeapError E → String
  | allocator _ => "AllocatorError"
  | sizeOverflow _ => "SizeOverflow"
  | invalidAddress _ => "InvalidAddress"

/-- the short form, given that of the allocator's errors -/
def short (errorText : E → String) (e : HeapError E) : String :=
  match e with
  | allocator cause => ErrorText.apply e.name [errorText cause]
  | sizeOverflow n | invalidAddress n => ErrorText.ofWords e.name [n]

def message (errorText : E → String) : HeapError E → String
  | allocator cause => s!"Allocator error: {errorText cause}"
  | sizeOverflow len => s!"Size overflow: {Hex.lower len}"
  | invalidAddress user => s!"Invalid address: {Hex.lower user}"

end HeapError

namespace Redzones

def ofConfig (c : Config) : Redzones := ⟨c.headRedzone, c.tailRedzone⟩

/-- what a block for `len` user bytes takes, if that is a length at all -/
def blockSize? (r : Redzones) (len : UInt64) : Option BlockSize := do
  let aligned ← alignUp len
  let total ← checkedAdd (← checkedAdd aligned r.head) r.tail
  return { aligned, total }

/-- what a block for `len` user bytes takes; a block longer than the address space is refused -/
def blockSize {E : Type} (r : Redzones) (len : UInt64) : Except (HeapError E) BlockSize :=
  match r.blockSize? len with
  | some size => .ok size
  | none => .error (.sizeOverflow len)

/-- where the block of a user address starts -/
def headerOf? (r : Redzones) (user : Address) : Option Address := checkedSub user r.head

/-- where the user's bytes of a block start, unless that is past the end of the address space -/
def userOf? (r : Redzones) (header : Address) : Option Address := checkedAdd header r.head

/-- the recorded user length of a block -/
def alignedSize (memory : Memory) (header : Address) : UInt64 := memory.readWord header

variable {A E ε : Type}

/-- updates the shadow map, if there is one; a refusal is only logged -/
def track (shadow? : Option ShadowMap) (update : ShadowMap → Action A ShadowError Unit)
    (untracked : ShadowError → Event) : Action A ε Unit :=
  match shadow? with
  | none => pure ()
  | some shadow => do
    match ← (update shadow).attempt with
    | .ok () => pure ()
    | .error e => Action.emit (untracked e)

/-- records the size of a block the allocator has handed out and lays its redzones; gives its user address -/
def layOut (r : Redzones) (shadow? : Option ShadowMap) (header : Address) (len aligned : UInt64) :
    Action A ε Address := do
  Action.modifyMemory (·.writeWord header aligned)
  let user ← Action.orTrap (r.userOf? header) .addOverflow
  Action.emit (.allocated header user aligned)
  track shadow? (fun shadow => do
    shadow.unpoison user len
    shadow.poison header r.head .heapLeft
    shadow.poison (← Action.add user aligned) r.tail .heapRight) (.allocUntracked user)
  return user

variable [HeapAllocator A E]

/-- a block for `len` user bytes; gives their address -/
def allocate (r : Redzones) (shadow? : Option ShadowMap) (len : UInt64) : Action A (HeapError E) Address := do
  Action.emit (.alloc len)
  let size ← Action.ofExcept (r.blockSize len)
  let header ← (HeapAllocator.allocate size.total).mapError .allocator
  r.layOut shadow? header len size.aligned

/-- Gives back the block of a user address and poisons its user bytes. There is nothing to do for address zero. -/
def free (r : Redzones) (shadow? : Option ShadowMap) (user : Address) : Action A (HeapError E) Unit := do
  Action.emit (.free user)
  if user ≠ 0 then
    let header ← Action.require (r.headerOf? user) (.invalidAddress user)
    let aligned := alignedSize (← Action.memory) header
    (HeapAllocator.free header).mapError .allocator
    track shadow? (·.poison user aligned .heapFreed) (.freeUntracked user)

/-- Gives the block of a user address another length. The old user bytes are poisoned before the allocator is asked,
and stay so if it refuses; a length that no block can have is refused before that. For address zero this is an
allocation. -/
def reallocate (r : Redzones) (shadow? : Option ShadowMap) (user : Address) (len : UInt64) :
    Action A (HeapError E) Address := do
  Action.emit (.realloc user len)
  if user = 0 then r.allocate shadow? len
  else
    let header ← Action.require (r.headerOf? user) (.invalidAddress user)
    let size ← Action.ofExcept (r.blockSize len)
    let oldAligned := alignedSize (← Action.memory) header
    track shadow? (·.poison user oldAligned .heapFreed) (.reallocUntracked user)
    let header ← (HeapAllocator.reallocate header size.total).mapError .allocator
    r.layOut shadow? header len size.aligned

end Redzones

end AddressSanitizer
