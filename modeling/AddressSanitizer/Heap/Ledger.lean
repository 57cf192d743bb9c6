/-
An allocator whose dealings are kept in a ledger. Around any allocator, `Ledger` has an entry for each call that was
received, with its arguments and what came of it, and otherwise does as the allocator inside does.
-/
import AddressSanitizer.Heap.Scripted

namespace AddressSanitizer

/-- what came of a call that the allocator received -/
inductive AllocatorAnswer where
  /-- a block was handed out -/
  | gave (block : Address)
  /-- a block was taken back -/
  | took
  | refused
  deriving DecidableEq, Repr

/-- an allocator, and its calls so far with their answers, in order -/
structure Ledger (A : Type) where
  inner : A
  entries : List (AllocatorCall × AllocatorAnswer) := []

namespace Ledger

variable {A E α : Type}

/-- A call that does not end with a value is refused. -/
def answerOf (answer : α → AllocatorAnswer) : Outcome E α → AllocatorAnswer
  | .done v => answer v
  | .failed _ | .trapped _ => .refused

/-- runs an action of the allocator inside, and enters the call with its answer -/
def enter (call : AllocatorCall) (answer : α → AllocatorAnswer) (x : Action A E α) : Action (Ledger A) E α := fun m =>
  let (o, m') := x.run { m with allocator := m.allocator.inner }
  (o, { m' with allocator := ⟨m'.allocator, m.allocator.entries ++ [(call, answerOf answer o)]⟩ })

theorem run_enter (call : AllocatorCall) (answer : α → AllocatorAnswer) (x : Action A E α) (m : Machine (Ledger A)) :
    (enter call answer x).run m =
      match x.run { m with allocator := m.allocator.inner } with
      | (o, m') => (o, { m' with allocator := ⟨m'.allocator, m.allocator.entries ++ [(call, answerOf answer o)]⟩ }) := rfl

instance [HeapAllocator A E] : HeapAllocator (Ledger A) E where
  allocate len := enter (.allocate len) .gave (HeapAllocator.allocate len)
  reallocate block len := enter (.reallocate block len) .gave (HeapAllocator.reallocate block len)
  free block := enter (.free block) (fun _ => .took) (HeapAllocator.free block)
  errorText := HeapAllocator.errorText A

/-- the answer to the last call -/
def lastAnswer? (l : Ledger A) : Option AllocatorAnswer := l.entries.getLast?.map Prod.snd

end Ledger

end AddressSanitizer
