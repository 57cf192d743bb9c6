/-
An allocator whose calls are recorded. Around any allocator, `Recorded` keeps the list of the calls it has received, with
their arguments, and otherwise does as the allocator inside does.
-/
import AddressSanitizer.Heap.Scripted

namespace AddressSanitizer

/-- an allocator, and the calls it has received so far -/
structure Recorded (A : Type) where
  inner : A
  calls : Array AllocatorCall := #[]

namespace Recorded

variable {A E α : Type}

/-- the machine as the allocator inside sees it -/
def unwrap (m : Machine (Recorded A)) : Machine A := { m with allocator := m.allocator.inner }

/-- the same action for the allocator inside -/
def lift (x : Action A E α) : Action (Recorded A) E α := fun m =>
  let (o, m') := x.run (unwrap m)
  (o, { m' with allocator := { m.allocator with inner := m'.allocator } })

/-- records a call -/
def note (call : AllocatorCall) : Action (Recorded A) E Unit := do
  let a ← Action.allocator
  Action.setAllocator { a with calls := a.calls.push call }

instance [HeapAllocator A E] : HeapAllocator (Recorded A) E where
  allocate len := do
    note (.allocate len)
    lift (HeapAllocator.allocate len)
  reallocate block len := do
    note (.reallocate block len)
    lift (HeapAllocator.reallocate block len)
  free block := do
    note (.free block)
    lift (HeapAllocator.free block)
  errorText := HeapAllocator.errorText A

end Recorded

end AddressSanitizer
