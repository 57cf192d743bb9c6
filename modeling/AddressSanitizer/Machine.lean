/-
The machine and the actions on it. A machine is its memory, the log written so far and the heap allocator of the
platform, whose type is a parameter. An action runs on a machine and ends in one of three ways: it is done and has a
value, it has failed with an error of the domain, or a trap stopped it. In all three the machine it leaves is known.
-/
import AddressSanitizer.Log.Event
import AddressSanitizer.Memory
import AddressSanitizer.Trap

namespace AddressSanitizer

/-- memory, log and heap allocator -/
structure Machine (A : Type) where
  memory : Memory := {}
  log : Array Event := #[]
  allocator : A

/-- how an action ended -/
inductive Outcome (ε α : Type) where
  | done (value : α)
  | failed (error : ε)
  | trapped (trap : Trap)
  deriving DecidableEq, Repr

/-- a step of a machine whose allocator is an `A`, with errors in `ε` and values in `α` -/
def Action (A ε α : Type) := Machine A → Outcome ε α × Machine A

namespace Action

variable {A ε ε' α β : Type}

/-- the action's end and the machine it leaves -/
def run (x : Action A ε α) (m : Machine A) : Outcome ε α × Machine A := x m

/-- ends with a value and leaves the machine alone -/
def done (a : α) : Action A ε α := fun m => (.done a, m)

/-- ends with an error and leaves the machine alone -/
def fail (e : ε) : Action A ε α := fun m => (.failed e, m)

/-- stops here -/
def trap (t : Trap) : Action A ε α := fun m => (.trapped t, m)

/-- goes on with the value of `x`, if it has one -/
def andThen (x : Action A ε α) (f : α → Action A ε β) : Action A ε β := fun m =>
  match x m with
  | (.done a, m') => f a m'
  | (.failed e, m') => (.failed e, m')
  | (.trapped t, m') => (.trapped t, m')

instance : Monad (Action A ε) where
  pure := done
  bind := andThen

/-- the same action with its error renamed -/
def mapError (f : ε → ε') (x : Action A ε α) : Action A ε' α := fun m =>
  match x m with
  | (.done a, m') => (.done a, m')
  | (.failed e, m') => (.failed (f e), m')
  | (.trapped t, m') => (.trapped t, m')

/-- the action's error or value, as a value -/
def attempt (x : Action A ε α) : Action A ε' (Except ε α) := fun m =>
  match x m with
  | (.done a, m') => (.done (.ok a), m')
  | (.failed e, m') => (.done (.error e), m')
  | (.trapped t, m') => (.trapped t, m')

/-- fails if there is no value -/
def require (value? : Option α) (e : ε) : Action A ε α :=
  match value? with
  | some a => done a
  | none => fail e

/-- goes on with a value, or fails with its error -/
def ofExcept : Except ε α → Action A ε α
  | .ok a => done a
  | .error e => fail e

/-- traps if there is no value -/
def orTrap (value? : Option α) (t : Trap) : Action A ε α :=
  match value? with
  | some a => done a
  | none => trap t

/-- traps unless the condition holds -/
def assert (p : Prop) [Decidable p] (t : Trap) : Action A ε Unit :=
  if p then done () else trap t

/-- the sum, by an addition that traps on overflow -/
def add (a b : UInt64) : Action A ε UInt64 := orTrap (checkedAdd a b) .addOverflow

/-- writes an event to the log -/
def emit (e : Event) : Action A ε Unit := fun m => (.done (), { m with log := m.log.push e })

/-- the memory as it is now -/
def memory : Action A ε Memory := fun m => (.done m.memory, m)

/-- changes the memory -/
def modifyMemory (f : Memory → Memory) : Action A ε Unit := fun m => (.done (), { m with memory := f m.memory })

/-- changes the memory, unless `f` refuses to -/
def updateMemory (f : Memory → Except ε Memory) : Action A ε Unit := fun m =>
  match f m.memory with
  | .ok memory => (.done (), { m with memory })
  | .error e => (.failed e, m)

/-- the heap allocator as it is now -/
def allocator : Action A ε A := fun m => (.done m.allocator, m)

def setAllocator (a : A) : Action A ε Unit := fun m => (.done (), { m with allocator := a })

/-! ## How actions run -/

variable (m : Machine A)

@[simp] theorem run_pure (a : α) : (pure a : Action A ε α).run m = (.done a, m) := rfl

@[simp] theorem run_done (a : α) : (done a : Action A ε α).run m = (.done a, m) := rfl

@[simp] theorem run_fail (e : ε) : (fail e : Action A ε α).run m = (.failed e, m) := rfl

@[simp] theorem run_trap (t : Trap) : (trap t : Action A ε α).run m = (.trapped t, m) := rfl

@[simp] theorem run_memory : (memory : Action A ε Memory).run m = (.done m.memory, m) := rfl

@[simp] theorem run_allocator : (allocator : Action A ε A).run m = (.done m.allocator, m) := rfl

@[simp] theorem run_setAllocator (a : A) :
    (setAllocator a : Action A ε Unit).run m = (.done (), { m with allocator := a }) := rfl

@[simp] theorem run_emit (e : Event) :
    (emit e : Action A ε Unit).run m = (.done (), { m with log := m.log.push e }) := rfl

@[simp] theorem run_modifyMemory (f : Memory → Memory) :
    (modifyMemory f : Action A ε Unit).run m = (.done (), { m with memory := f m.memory }) := rfl

theorem run_updateMemory (f : Memory → Except ε Memory) :
    (updateMemory f).run m =
      match f m.memory with
      | .ok memory => (.done (), { m with memory })
      | .error e => (.failed e, m) := rfl

theorem run_assert_of {p : Prop} [Decidable p] (h : p) (t : Trap) :
    (assert p t : Action A ε Unit).run m = (.done (), m) := by
  simp [assert, h]

@[simp] theorem run_require_some (a : α) (e : ε) : (require (some a) e : Action A ε α).run m = (.done a, m) := rfl

@[simp] theorem run_orTrap_some (a : α) (t : Trap) : (orTrap (some a) t : Action A ε α).run m = (.done a, m) := rfl

/-! What runs first decides how a longer action goes on. -/

theorem run_bind (x : Action A ε α) (f : α → Action A ε β) :
    (x >>= f).run m =
      match x.run m with
      | (.done a, m') => (f a).run m'
      | (.failed e, m') => (.failed e, m')
      | (.trapped t, m') => (.trapped t, m') := rfl

theorem run_bind_of_done {x : Action A ε α} {f : α → Action A ε β} {m m' : Machine A} {a : α}
    (h : x.run m = (.done a, m')) : (x >>= f).run m = (f a).run m' := by
  rw [run_bind, h]

theorem run_mapError_bind (x : Action A ε α) (f : ε → ε') (g : α → Action A ε' β) :
    (x.mapError f >>= g).run m =
      match x.run m with
      | (.done a, m') => (g a).run m'
      | (.failed e, m') => (.failed (f e), m')
      | (.trapped t, m') => (.trapped t, m') := by
  rw [run_bind]
  unfold run mapError
  rcases x m with ⟨_ | _ | _, m'⟩ <;> rfl

theorem run_attempt (x : Action A ε α) :
    (x.attempt : Action A ε' (Except ε α)).run m =
      match x.run m with
      | (.done a, m') => (.done (.ok a), m')
      | (.failed e, m') => (.done (.error e), m')
      | (.trapped t, m') => (.trapped t, m') := rfl

/-- Events are logged in order. -/
theorem run_forM_emit (f : α → Event) (l : List α) :
    (l.forM fun a => (emit (f a) : Action A ε Unit)).run m =
      (.done (), { m with log := m.log ++ (l.map f).toArray }) := by
  induction l generalizing m with
  | nil => simp
  | cons a l ih =>
    have hcons : ((a :: l).forM fun a => (emit (f a) : Action A ε Unit)) =
        emit (f a) >>= fun _ => l.forM fun a => emit (f a) := rfl
    rw [hcons, run_bind, run_emit]
    simp only [ih, List.map_cons]
    simp

end Action

end AddressSanitizer
