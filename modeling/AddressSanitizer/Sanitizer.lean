/-
The sanitizer of a whole program: one context, made and initialized in one go, and the entry points that instrumented
code and the heap call. Until there is a context every check passes and shadow writes are dropped. The heap hooks lay
out redzones from the start, with the default sizes, so that a block allocated early can be freed late; therefore the
first context must have those sizes if a hook has been called before.
-/
import AddressSanitizer.Context
import AddressSanitizer.Global.Registration

namespace AddressSanitizer

/-- the program's context, and whether a heap hook has been called without one -/
structure Sanitizer where
  context : Latch Context := .empty
  heapUsed : Bool := false

namespace Sanitizer

variable {A E : Type}

/-- the context over a layout's own shadow region, initialized; redzones other than the defaults are refused once the
heap is in use -/
def prepare (s : Sanitizer) (layout : Layout) (config : Config) : Action A ContextError Context := do
  if s.heapUsed ∧ Redzones.ofConfig config ≠ {} then Action.fail .redzonesChanged
  let shadow : ShadowMap :=
    { space := .program, base := layout.shadowStart, len := layout.shadowSize, translation := ⟨layout.shadowOffset⟩ }
  match Context.new shadow config with
  | .error e => Action.fail e
  | .ok context => do
    let boundaries ← context.prepare layout
    return { context with boundaries := .filled boundaries }

/-- Makes the program's context, or hands back the one there is. -/
def init (s : Sanitizer) (layout : Layout) (config : Config) (m : Machine A) :
    Outcome ContextError Context × Sanitizer × Machine A :=
  let (outcome, context, m') := s.context.fillWith (s.prepare layout config) m
  (outcome, { s with context }, m')

/-! ## Checks and shadow writes of instrumented code -/

/-- validates an access; a violation is reported and then forgotten -/
def checkAccess (s : Sanitizer) (access : Access) : Action A Empty Unit := do
  match s.context.get? with
  | none => pure ()
  | some c => do let _ ← (c.check access).attempt

/-- checks a read of `size` bytes; the calling code is not known -/
def load (s : Sanitizer) (addr : Address) (size : UInt64) : Action A Empty Unit := s.checkAccess (.load addr size 0)

/-- checks a write of `size` bytes -/
def store (s : Sanitizer) (addr : Address) (size : UInt64) : Action A Empty Unit := s.checkAccess (.store addr size 0)

/-- writes a tag into shadow bytes; a refusal is only logged -/
def setShadow (s : Sanitizer) (shadow : Address) (len : UInt64) (tag : Tag) : Action A Empty Unit := do
  match s.context.get? with
  | none => pure ()
  | some c =>
    match ← (c.shadow.setTag shadow len tag).attempt with
    | .ok () => pure ()
    | .error e => Action.emit (.setShadowFailed shadow len e)

/-- registers the globals of `count` descriptors; a refusal is only logged -/
def registerGlobals (s : Sanitizer) (descriptors : Address) (count : UInt64) : Action A Empty Unit := do
  Action.emit (.registerGlobals descriptors count)
  if descriptors ≠ 0 ∧ count ≠ 0 then
    match s.context.get? with
    | none => Action.emit (.registerGlobalsUninitialized descriptors)
    | some c =>
      match ← (c.shadow.registerGlobals (Global.Descriptor.array descriptors count.toNat)).attempt with
      | .ok () => pure ()
      | .error e => Action.emit (.registerGlobalsFailed e)

/-! ## Entry points with nothing to do -/

/-- globals are never taken back -/
def unregisterGlobals (_descriptors : Address) (_count : UInt64) : Action A Empty Unit := pure ()

/-- stack frames left behind by code that does not return keep their tags -/
def handleNoReturn : Action A Empty Unit := pure ()

def beforeDynamicInit : Action A Empty Unit := pure ()

def afterDynamicInit : Action A Empty Unit := pure ()

/-! ## Heap hooks -/

/-- the redzones that heap blocks are laid out with -/
def redzones (s : Sanitizer) : Redzones := (s.context.get?.map Context.redzones).getD {}

/-- the shadow map that heap blocks are tracked in -/
def shadow? (s : Sanitizer) : Option ShadowMap := s.context.get?.map Context.shadow

/-- Runs a heap operation with the redzones and the shadow map of the sanitizer. Without a context this puts the heap in
use, whatever the operation does. -/
def withHeap {α : Type} (s : Sanitizer) (x : Redzones → Option ShadowMap → Action A Empty α) (m : Machine A) :
    Outcome Empty α × Sanitizer × Machine A :=
  let (outcome, m') := (x s.redzones s.shadow?).run m
  (outcome, { s with heapUsed := s.heapUsed || s.context.get?.isNone }, m')

variable [HeapAllocator A E]

/-- a block for `len` user bytes, or null -/
def allocateHook (s : Sanitizer) (len : UInt64) : Machine A → Outcome Empty Address × Sanitizer × Machine A :=
  s.withHeap fun redzones shadow? => do
    match ← (redzones.allocate shadow? len).attempt with
    | .ok user => return user
    | .error e =>
      Action.emit (.allocateHookFailed len (e.short (HeapAllocator.errorText A)))
      return 0

/-- the block with another length, or null; then the old block is still allocated, though it may be poisoned -/
def reallocateHook (s : Sanitizer) (user : Address) (len : UInt64) :
    Machine A → Outcome Empty Address × Sanitizer × Machine A :=
  s.withHeap fun redzones shadow? => do
    match ← (redzones.reallocate shadow? user len).attempt with
    | .ok user => return user
    | .error e =>
      Action.emit (.reallocateHookFailed user len (e.short (HeapAllocator.errorText A)))
      return 0

/-- gives a block back -/
def freeHook (s : Sanitizer) (user : Address) : Machine A → Outcome Empty Unit × Sanitizer × Machine A :=
  s.withHeap fun redzones shadow? => do
    match ← (redzones.free shadow? user).attempt with
    | .ok () => pure ()
    | .error e => Action.emit (.freeHookFailed user (e.short (HeapAllocator.errorText A)))

end Sanitizer

end AddressSanitizer
