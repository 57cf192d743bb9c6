/-
Latches. A latch is filled once, by an action. The latches that are used come from outside this library, so what a latch does
to an action is a parameter, `LatchLike`, and `LatchLike.Laws` says what is relied on: an empty latch runs the action and is
filled with its value; as long as the action fails, the latch stays empty and can be tried again; once it is filled, attempts
answer without running anything; and an action that traps breaks the latch, so that the next attempt traps too.

`Latch` is the plainest latch with these laws: its three states and nothing else.
-/
import AddressSanitizer.Machine

namespace AddressSanitizer

/-- the operations of latches of type `L` that are filled with values of type `α` -/
class LatchLike (L : Type) (α : outParam Type) where
  /-- a latch that has not been filled -/
  empty : L
  /-- what the latch was filled with -/
  get? : L → Option α
  /-- an action that was to fill the latch has trapped -/
  Broken : L → Prop
  /-- fills an empty latch with the value of an action -/
  fillWith {A ε : Type} (latch : L) (x : Action A ε α) (m : Machine A) : Outcome ε α × L × Machine A

/-- What is relied on of latches, one attempt at a time. -/
structure LatchLike.Laws (L : Type) {α : Type} [LatchLike L α] : Prop where
  get?_empty : get? (empty : L) = none
  get?_of_broken {latch : L} (h : Broken latch) : get? latch = none
  fillWith_of_done {A ε : Type} {x : Action A ε α} {m m' : Machine A} {a : α} (h : x.run m = (.done a, m')) :
    ∃ latch : L, fillWith empty x m = (.done a, latch, m') ∧ get? latch = some a
  fillWith_of_failed {A ε : Type} {x : Action A ε α} {m m' : Machine A} {e : ε} (h : x.run m = (.failed e, m')) :
    fillWith (empty : L) x m = (.failed e, empty, m')
  fillWith_of_trapped {A ε : Type} {x : Action A ε α} {m m' : Machine A} {t : Trap} (h : x.run m = (.trapped t, m')) :
    ∃ latch : L, fillWith empty x m = (.trapped t, latch, m') ∧ Broken latch
  fillWith_filled {A ε : Type} {latch : L} {a : α} (h : get? latch = some a) (x : Action A ε α) (m : Machine A) :
    fillWith latch x m = (.done a, latch, m)
  fillWith_broken {A ε : Type} {latch : L} (h : Broken latch) (x : Action A ε α) (m : Machine A) :
    fillWith latch x m = (.trapped .brokenLatch, latch, m)

/-- a latch that is nothing but its state -/
inductive Latch (α : Type) where
  | empty
  | filled (value : α)
  | broken
  deriving DecidableEq, Repr

namespace Latch

variable {A ε α : Type}

/-- what the latch was filled with -/
def get? : Latch α → Option α
  | filled a => some a
  | empty | broken => none

/-- fills an empty latch with the value of an action -/
def fillWith (latch : Latch α) (x : Action A ε α) (m : Machine A) : Outcome ε α × Latch α × Machine A :=
  match latch with
  | filled a => (.done a, latch, m)
  | broken => (.trapped .brokenLatch, latch, m)
  | empty =>
    match x.run m with
    | (.done a, m') => (.done a, filled a, m')
    | (.failed e, m') => (.failed e, empty, m')
    | (.trapped t, m') => (.trapped t, broken, m')

instance : LatchLike (Latch α) α where
  empty := empty
  get? := get?
  Broken latch := latch = broken
  fillWith := fillWith

theorem fillWith_eq (latch : Latch α) (x : Action A ε α) (m : Machine A) :
    LatchLike.fillWith latch x m = latch.fillWith x m := rfl

theorem laws : LatchLike.Laws (Latch α) where
  get?_empty := rfl
  get?_of_broken := by
    rintro _ rfl
    rfl
  fillWith_of_done h := by
    refine ⟨filled _, ?_, rfl⟩
    simp only [LatchLike.fillWith, LatchLike.empty, fillWith, h]
  fillWith_of_failed h := by simp only [LatchLike.fillWith, LatchLike.empty, fillWith, h]
  fillWith_of_trapped h := by
    refine ⟨broken, ?_, rfl⟩
    simp only [LatchLike.fillWith, LatchLike.empty, fillWith, h]
  fillWith_filled {_ _ latch _} h _ _ := by
    cases latch with
    | filled a =>
      cases h
      rfl
    | empty | broken => cases h
  fillWith_broken := by
    rintro _ _ _ rfl _ _
    rfl

end Latch

end AddressSanitizer
