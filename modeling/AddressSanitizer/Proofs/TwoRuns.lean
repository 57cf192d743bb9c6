/-
Two runs side by side. Machines are alike up to a footprint if they have the same allocator and their memories differ at
most in the footprint; their logs may be anything. `Mirrors` relates two actions on two machines: they end the same way
and leave machines that are alike. It composes along the sequence of an action, so a comparison of two runs follows the
text of the actions.

- `SameOutside.writeWord`, `SameOutside.copy`: the same write to two memories that agree keeps them in agreement.
- `Confined.bind`: an action made of confined steps never traps, and changes memory in the footprint only.
- `Mirrors.bind`: sequences mirror each other step by step.
- `Mirrors.modifyMemory`, `Mirrors.memory_bind`: the steps that touch memory.
-/
import Mathlib.Tactic
import AddressSanitizer.Machine
import AddressSanitizer.Proofs.Frame

namespace AddressSanitizer

/-! ## The same write to two memories -/

namespace Memory

variable {F : Footprint} {m m' : Memory}

theorem SameOutside.write (h : SameOutside F m m') (space : Space) (a : Address) (v : UInt8) :
    SameOutside F (m.write space a v) (m'.write space a v) := by
  intro space' b hb
  rw [read_write, read_write, h space' b hb]

theorem SameOutside.writeNumber (h : SameOutside F m m') (a : Address) (n : Nat) (w : UInt64) :
    SameOutside F (m.writeNumber a n w) (m'.writeNumber a n w) := by
  induction n generalizing m m' a w with
  | zero => exact h
  | succ n ih => exact ih (h.write .program a w.toUInt8) (a + 1) (w / 256)

theorem SameOutside.writeWord (h : SameOutside F m m') (a : Address) (w : UInt64) :
    SameOutside F (m.writeWord a w) (m'.writeWord a w) := h.writeNumber a 8 w

theorem SameOutside.writeBytes (h : SameOutside F m m') (a : Address) (bytes : List UInt8) :
    SameOutside F (m.writeBytes a bytes) (m'.writeBytes a bytes) := by
  induction bytes generalizing m m' a with
  | nil => exact h
  | cons v vs ih => exact ih (h.write .program a v) (a + 1)

theorem SameOutside.fill (h : SameOutside F m m') (space : Space) (a : Address) (n : Nat) (v : UInt8) :
    SameOutside F (m.fill space a n v) (m'.fill space a n v) := by
  induction n generalizing m m' a with
  | zero => exact h
  | succ n ih => exact ih (h.write space a v) (a + 1)

/-- The bytes that are copied must lie outside the footprint. -/
theorem SameOutside.copy (h : SameOutside F m m') {dst src : Address} {n : Nat} (hsrc : src.toNat + n < 2 ^ 64)
    (hoff : F.Avoids src.toNat (src.toNat + n)) : SameOutside F (m.copy dst src n) (m'.copy dst src n) := by
  induction n generalizing m m' dst src with
  | zero => exact h
  | succ n ih =>
    have hsucc := toNat_succ (a := src) (by omega)
    rw [Memory.copy, Memory.copy, h .program src (hoff src le_rfl (by omega))]
    exact ih (h.write .program dst _) (by omega) (hoff.mono (by omega) (by omega))

end Memory

variable {A E ε ε' α β : Type} {F G : Footprint}

/-- The same allocator, and memories that differ at most at the bytes of `F`. The logs may differ. -/
structure Machine.Alike (F : Footprint) (m m' : Machine A) : Prop where
  allocator_eq : m'.allocator = m.allocator
  memory_same : m.memory.SameOutside F m'.memory

namespace Machine.Alike

variable {m m' m'' : Machine A}

theorem refl (F : Footprint) (m : Machine A) : m.Alike F m := ⟨rfl, Memory.SameOutside.refl _ _⟩

theorem trans (h : m.Alike F m') (h' : m'.Alike F m'') : m.Alike F m'' :=
  ⟨h'.allocator_eq.trans h.allocator_eq, h.memory_same.trans h'.memory_same⟩

theorem mono (h : m.Alike F m') (hFG : F ⊆ G) : m.Alike G m' := ⟨h.allocator_eq, h.memory_same.mono hFG⟩

end Machine.Alike

namespace Action

/-! ## Actions that stay in a footprint -/

/-- The action does not trap, keeps the allocator and changes no byte outside `F`. -/
structure Confined (F : Footprint) (x : Action A ε α) (m : Machine A) : Prop where
  never_traps : ∀ t, (x.run m).1 ≠ .trapped t
  alike : m.Alike F (x.run m).2

namespace Confined

variable {m : Machine A} {x : Action A ε α} {f : α → Action A ε β}

theorem bind (h : x.Confined F m) (hf : ∀ a m', x.run m = (.done a, m') → (f a).Confined F m') :
    (x >>= f).Confined F m := by
  obtain ⟨htraps, halike⟩ := h
  constructor <;> rw [run_bind] <;> rcases hx : x.run m with ⟨a | e | t, m'⟩ <;> rw [hx] at htraps halike
  case never_traps.done => exact (hf a m' hx).never_traps
  case never_traps.failed => exact nofun
  case never_traps.trapped => exact absurd rfl (htraps t)
  case alike.done => exact halike.trans (hf a m' hx).alike
  case alike.failed => exact halike
  case alike.trapped => exact halike

theorem pure (a : α) : (Pure.pure a : Action A ε α).Confined F m := ⟨nofun, .refl F m⟩

theorem emit (e : Event) : (Action.emit e : Action A ε Unit).Confined F m := ⟨nofun, rfl, Memory.SameOutside.refl _ _⟩

theorem require (a? : Option α) (e : ε) : (Action.require a? e : Action A ε α).Confined F m := by
  cases a? <;> exact ⟨nofun, .refl F m⟩

theorem assert {p : Prop} [Decidable p] (h : p) (t : Trap) : (Action.assert p t : Action A ε Unit).Confined F m := by
  constructor <;> rw [run_assert_of m h]
  · exact nofun
  · exact .refl F m

/-- a sum that stays in the address space -/
theorem add {a b : UInt64} (h : a.toNat + b.toNat < 2 ^ 64) : (Action.add a b : Action A ε UInt64).Confined F m := by
  rw [Action.add, checkedAdd_of_lt h]
  exact pure (a + b)

theorem updateMemory {f : Memory → Except ε Memory}
    (h : ∀ memory memory', f memory = .ok memory' → memory.SameOutside F memory') :
    (Action.updateMemory f : Action A ε Unit).Confined F m := by
  constructor <;> rw [run_updateMemory] <;> cases hf : f m.memory
  case never_traps.error => exact nofun
  case never_traps.ok => exact nofun
  case alike.error => exact .refl F m
  case alike.ok memory => exact ⟨rfl, h _ _ hf⟩

end Confined

/-! ## Actions that mirror each other -/

/-- On `m'`, `y` ends as `x` does on `m`, and the machines they leave are alike. -/
structure Mirrors (F : Footprint) (x y : Action A ε α) (m m' : Machine A) : Prop where
  outcome_eq : (y.run m').1 = (x.run m).1
  alike : (x.run m).2.Alike F (y.run m').2

namespace Mirrors

variable {m m' m₁ m₁' : Machine A} {x y : Action A ε α} {f g : α → Action A ε β} {o : Outcome ε α}

theorem refl (F : Footprint) (x : Action A ε α) (m : Machine A) : x.Mirrors F x m m := ⟨rfl, .refl F _⟩

theorem of_run (hx : x.run m = (o, m₁)) (hy : y.run m' = (o, m₁')) (h : m₁.Alike F m₁') : x.Mirrors F y m m' := by
  constructor <;> rw [hx, hy]
  exact h

/-- Actions mirror each other if those do that they come to. -/
theorem of_run_eq {x' y' : Action A ε α} (hx : x.run m = x'.run m₁) (hy : y.run m' = y'.run m₁')
    (h : x'.Mirrors F y' m₁ m₁') : x.Mirrors F y m m' := by
  constructor <;> rw [hx, hy]
  · exact h.outcome_eq
  · exact h.alike

theorem run_eq (h : x.Mirrors F y m m') (hx : x.run m = (o, m₁)) : ∃ m₁', y.run m' = (o, m₁') ∧ m₁.Alike F m₁' := by
  obtain ⟨houtcome, halike⟩ := h
  rw [hx] at houtcome halike
  exact ⟨(y.run m').2, Prod.ext houtcome rfl, halike⟩

theorem eq_run (h : x.Mirrors F y m m') (hy : y.run m' = (o, m₁')) : ∃ m₁, x.run m = (o, m₁) ∧ m₁.Alike F m₁' := by
  obtain ⟨houtcome, halike⟩ := h
  rw [hy] at houtcome halike
  exact ⟨(x.run m).2, Prod.ext houtcome.symm rfl, halike⟩

theorem bind (h : x.Mirrors F y m m')
    (hf : ∀ a m₁ m₁', x.run m = (.done a, m₁) → m₁.Alike F m₁' → (f a).Mirrors F (g a) m₁ m₁') :
    (x >>= f).Mirrors F (y >>= g) m m' := by
  rcases hx : x.run m with ⟨a | e | t, m₁⟩ <;> obtain ⟨m₁', hy, halike⟩ := h.run_eq hx
  case done =>
    obtain ⟨houtcome, halike'⟩ := hf a m₁ m₁' hx halike
    constructor <;> rw [run_bind, run_bind, hx, hy]
    · exact houtcome
    · exact halike'
  all_goals
    constructor <;> rw [run_bind, run_bind, hx, hy]
    exact halike

theorem mapError_bind {f g : α → Action A ε' β} (h : x.Mirrors F y m m') (k : ε → ε')
    (hf : ∀ a m₁ m₁', x.run m = (.done a, m₁) → m₁.Alike F m₁' → (f a).Mirrors F (g a) m₁ m₁') :
    (x.mapError k >>= f).Mirrors F (y.mapError k >>= g) m m' := by
  rcases hx : x.run m with ⟨a | e | t, m₁⟩ <;> obtain ⟨m₁', hy, halike⟩ := h.run_eq hx
  case done =>
    obtain ⟨houtcome, halike'⟩ := hf a m₁ m₁' hx halike
    constructor <;> rw [run_mapError_bind, run_mapError_bind, hx, hy]
    · exact houtcome
    · exact halike'
  all_goals
    constructor <;> rw [run_mapError_bind, run_mapError_bind, hx, hy]
    exact halike

/-! Steps that leave memory and allocator alone -/

theorem pure (h : m.Alike F m') (a : α) : (Pure.pure a : Action A ε α).Mirrors F (Pure.pure a) m m' := ⟨rfl, h⟩

theorem emit (h : m.Alike F m') (e e' : Event) :
    (Action.emit e : Action A ε Unit).Mirrors F (Action.emit e') m m' := ⟨rfl, h.allocator_eq, h.memory_same⟩

theorem require (h : m.Alike F m') (a? : Option α) (e : ε) :
    (Action.require a? e : Action A ε α).Mirrors F (Action.require a? e) m m' := by
  cases a? <;> exact ⟨rfl, h⟩

theorem orTrap (h : m.Alike F m') (a? : Option α) (t : Trap) :
    (Action.orTrap a? t : Action A ε α).Mirrors F (Action.orTrap a? t) m m' := by
  cases a? <;> exact ⟨rfl, h⟩

theorem assert (h : m.Alike F m') (p : Prop) [Decidable p] (t : Trap) :
    (Action.assert p t : Action A ε Unit).Mirrors F (Action.assert p t) m m' := by
  unfold Action.assert
  split_ifs
  · exact ⟨rfl, h⟩
  · exact ⟨rfl, h⟩

theorem ofExcept (h : m.Alike F m') (r : Except ε α) :
    (Action.ofExcept r : Action A ε α).Mirrors F (Action.ofExcept r) m m' := by
  cases r <;> exact ⟨rfl, h⟩

/-! Steps on memory and allocator -/

theorem memory_bind {f g : Memory → Action A ε α} (h : (f m.memory).Mirrors F (g m'.memory) m m') :
    (Action.memory >>= f).Mirrors F (Action.memory >>= g) m m' := ⟨h.outcome_eq, h.alike⟩

theorem allocator_bind {f g : A → Action A ε α} (halike : m.Alike F m')
    (h : (f m.allocator).Mirrors F (g m.allocator) m m') :
    (Action.allocator >>= f).Mirrors F (Action.allocator >>= g) m m' := by
  have hg : (Action.allocator >>= g).run m' = (g m.allocator).run m' := by
    rw [← halike.allocator_eq]
    rfl
  constructor <;> rw [hg]
  · exact h.outcome_eq
  · exact h.alike

theorem setAllocator (h : m.Alike F m') (a : A) :
    (Action.setAllocator a : Action A ε Unit).Mirrors F (Action.setAllocator a) m m' := ⟨rfl, rfl, h.memory_same⟩

theorem modifyMemory (h : m.Alike F m') {k k' : Memory → Memory}
    (hk : (k m.memory).SameOutside F (k' m'.memory)) :
    (Action.modifyMemory k : Action A ε Unit).Mirrors F (Action.modifyMemory k') m m' := ⟨rfl, h.allocator_eq, hk⟩

end Mirrors

end Action

end AddressSanitizer
