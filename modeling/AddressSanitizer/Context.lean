/-
Contexts. A context ties the shadow map, the heap redzones and the reports together. As long as it is not initialized
every check passes, since the shadow bytes may be anything. `init` clears the shadow map, marks the shadow bytes
of the shadow region as reserved and records the boundaries of the layout; from then on accesses are validated. The
boundaries are recorded in a latch of any kind; a `Context` that does not say which has a plain `Latch`.
-/
import AddressSanitizer.Heap.Redzones
import AddressSanitizer.Latch
import AddressSanitizer.Report.Dump

namespace AddressSanitizer

/-- a shadow map, its settings, and the boundaries recorded by its initialization -/
structure Context (L : Type := Latch Boundaries) where
  shadow : ShadowMap
  config : Config
  boundaries : L
  deriving DecidableEq, Repr

/-- why a context cannot be made or initialized -/
inductive ContextError where
  | config (cause : ConfigError)
  | shadow (cause : ShadowError)
  /-- the layout's shadow region does not start where the shadow map does -/
  | baseMismatch (region base : UInt64)
  /-- the layout's offset is not that of the shadow map -/
  | offsetMismatch (layout translation : UInt64)
  /-- blocks have been laid out with other redzones already -/
  | redzonesChanged
  deriving DecidableEq, Repr

namespace ContextError

def name : ContextError → String
  | config _ => "ConfigError"
  | shadow _ => "ShadowError"
  | baseMismatch .. => "ShadowBaseMismatch"
  | offsetMismatch .. => "ShadowOffsetMismatch"
  | redzonesChanged => "HeapRedzonesChanged"

def message : ContextError → String
  | config cause => s!"Config error: {cause.message}"
  | shadow cause => s!"Shadow error: {cause.message}"
  | baseMismatch region base =>
    s!"Shadow region at {Hex.lower region} does not match the shadow memory at {Hex.lower base}"
  | offsetMismatch layout translation =>
    s!"Shadow offset {Hex.lower layout} does not match the translator offset {Hex.lower translation}"
  | redzonesChanged => "Heap redzones changed after the first allocation"

end ContextError

namespace Context

/-- a context that is not initialized, if the configuration is valid -/
def new (shadow : ShadowMap) (config : Config) : Except ContextError Context :=
  match config.validate with
  | .ok () => .ok { shadow, config, boundaries := .empty }
  | .error e => .error (.config e)

variable {L A E ε : Type}

def redzones (c : Context L) : Redzones := .ofConfig c.config

def initialized [LatchLike L Boundaries] (c : Context L) : Bool := (LatchLike.get? c.boundaries).isSome

/-- Checks that a layout fits the shadow map, clears the map and reserves the shadow region in it. -/
def prepare (c : Context L) (layout : Layout) : Action A ContextError Boundaries := do
  let b := Boundaries.ofLayout layout
  let s := c.shadow
  if b.shadowStart ≠ s.base then Action.fail (.baseMismatch b.shadowStart s.base)
  let size ← Action.orTrap b.shadowSize? .subOverflow
  if s.len < size then Action.fail (.shadow (.regionTooLarge size s.len))
  if layout.shadowOffset ≠ s.translation.offset then
    Action.fail (.offsetMismatch layout.shadowOffset s.translation.offset)
  Action.modifyMemory (s.clear Tag.valid.byte)
  let region ← Action.orTrap (alignUp size) .alignUpOverflow
  (s.poison b.shadowStart region .reserved).mapError .shadow
  Action.emit (.initialized b)
  return b

/-- Initializes the context. Only the first call that succeeds has any effect; after one that traps none ever will. -/
def init [LatchLike L Boundaries] (c : Context L) (layout : Layout) (m : Machine A) :
    Outcome ContextError Unit × Context L × Machine A :=
  match LatchLike.fillWith c.boundaries (c.prepare layout) m with
  | (.done _, boundaries, m') => (.done (), { c with boundaries }, m')
  | (.failed e, boundaries, m') => (.failed e, { c with boundaries }, m')
  | (.trapped t, boundaries, m') => (.trapped t, { c with boundaries }, m')

/-! ## Checks -/

/-- logs a report of a violation -/
def report (c : Context L) (v : Violation) : Action A ε Unit :=
  c.shadow.report v c.config.rowsBefore c.config.rowsAfter

section Checks

variable [LatchLike L Boundaries]

/-- the violation that a check of the access finds; before initialization, and in trusted memory, there is none -/
def violation? (c : Context L) (memory : Memory) (access : Access) : Option Violation := do
  let b ← LatchLike.get? c.boundaries
  let last ← access.last?
  if b.Trusted access.addr last then none else c.shadow.violation? memory access

/-- validates an access; a violation is reported, and is the error -/
def check (c : Context L) (access : Access) : Action A Violation Unit := do
  match c.violation? (← Action.memory) access with
  | none => pure ()
  | some v => do
    c.report v
    Action.fail v

def load (c : Context L) (addr : Address) (size : UInt64) (pc : Address) : Action A Violation Unit :=
  c.check (.load addr size pc)

def store (c : Context L) (addr : Address) (size : UInt64) (pc : Address) : Action A Violation Unit :=
  c.check (.store addr size pc)

/-- Checks a copy of `n` bytes, the destination as a write and then the source as a read. Both are reported; of two
violations the destination's is the error. -/
def checkCopy (c : Context L) (dst src : Address) (n : UInt64) (pc : Address) : Action A Violation Unit := do
  let written ← (c.store dst n pc).attempt
  let read ← (c.load src n pc).attempt
  match written, read with
  | .error v, _ | .ok _, .error v => Action.fail v
  | .ok _, .ok _ => pure ()

/-- checks that `n` bytes may be filled -/
def checkFill (c : Context L) (buffer : Address) (n : UInt64) (pc : Address) : Action A Violation Unit :=
  c.store buffer n pc

end Checks

/-! ## The heap -/

section Heap

variable [HeapAllocator A E]

def allocate (c : Context L) (len : UInt64) : Action A (HeapError E) Address := c.redzones.allocate (some c.shadow) len

def free (c : Context L) (user : Address) : Action A (HeapError E) Unit := c.redzones.free (some c.shadow) user

def reallocate (c : Context L) (user : Address) (len : UInt64) : Action A (HeapError E) Address :=
  c.redzones.reallocate (some c.shadow) user len

end Heap

end Context

end AddressSanitizer
