/-
An allocator that does as it is told: every call takes the next answer of a script, whatever the call, and is
recorded. An answer is a block's address, or the lack of one; when the script has ended there are no more blocks.
-/
import AddressSanitizer.Heap.Allocator

namespace AddressSanitizer

/-- a call that the allocator received -/
inductive AllocatorCall where
  | allocate (len : UInt64)
  | reallocate (block : Address) (len : UInt64)
  | free (block : Address)
  deriving DecidableEq, Repr

/-- the answers still to give, and the calls so far -/
structure Scripted where
  script : List (Option Address) := []
  calls : Array AllocatorCall := #[]

/-- there is no block -/
inductive ScriptedError where
  | exhausted
  deriving DecidableEq, Repr

namespace Scripted

/-- the next answer, and the script that remains -/
def answer (s : Scripted) (call : AllocatorCall) : Option Address × Scripted :=
  match s.script with
  | [] => (none, { s with calls := s.calls.push call })
  | a :: script => (a, { script, calls := s.calls.push call })

/-- records the call and takes the next answer -/
def respond (call : AllocatorCall) : Action Scripted ScriptedError Address := do
  let (block?, s) := (← Action.allocator).answer call
  Action.setAllocator s
  Action.require block? .exhausted

instance : HeapAllocator Scripted ScriptedError where
  allocate len := respond (.allocate len)
  reallocate block len := respond (.reallocate block len)
  free block := do let _ ← respond (.free block)
  errorText | .exhausted => "Exhausted"

end Scripted

end AddressSanitizer
