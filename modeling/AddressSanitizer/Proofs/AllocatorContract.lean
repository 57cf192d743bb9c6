/-
The contract of a heap allocator: what the owners of its blocks may count on. `Valid a memory live` is the allocator's own
account of its state, of the memory it keeps its books in and of the blocks in use; what it says is left to the allocator.
A footprint of shadow bytes is given, which the allocator neither hands out nor looks at.

- `Contract`: blocks are made of whole granules of the address space and are disjoint; their owners may write into them;
  an operation that is done hands out or takes back the block it is about and keeps the bytes of all others, one that is
  refused keeps all of them; and nothing depends on the shadow bytes.
- `Preserves`, `Sound`, `KeepsOff`: beyond the contract, a block that is resized keeps its own bytes, the operations do not
  trap, and they write no shadow byte.
- `Action.Wraps`, `Contract.wrap`: an allocator around another one, which only adds to it, keeps the contract as well;
  `Recorded.contract`, `Ledger.contract`: those that keep track of their calls do.
-/
import Mathlib.Tactic
import AddressSanitizer.Heap.Ledger
import AddressSanitizer.Heap.Recorded
import AddressSanitizer.Proofs.BumpBlocks
import AddressSanitizer.Proofs.TwoRuns

namespace AddressSanitizer

/-- the bytes of blocks -/
def Footprint.blocks (live : List Block) : Footprint := {p | ∃ x ∈ live, p ∈ Footprint.program x.addr.toNat x.stop}

/-- `m'` has the bytes of `m` at `F` -/
abbrev Memory.SameAt (F : Footprint) (m m' : Memory) : Prop := m.SameOutside Fᶜ m'

theorem Memory.SameAt.mono {F G : Footprint} {m m' : Memory} (h : m.SameAt F m') (hGF : G ⊆ F) : m.SameAt G m' :=
  SameOutside.mono h (Set.compl_subset_compl.mpr hGF)

/-- A change outside some bytes keeps them. -/
theorem Memory.SameOutside.sameAt {F G : Footprint} {m m' : Memory} (h : m.SameOutside F m') (hFG : ∀ p ∈ G, p ∉ F) :
    m.SameAt G m' :=
  SameOutside.mono h fun p hF hG => hFG p hG hF

/-- A change of a range in which none of them lies does, too. -/
theorem Memory.SameOutside.sameAt_of_avoids {F : Footprint} {lo hi : Nat} {m m' : Memory}
    (h : m.SameOutside (Footprint.program lo hi) m') (hoff : F.Avoids lo hi) : m.SameAt F m' :=
  SameOutside.mono h (Set.subset_compl_comm.mp hoff.subset_compl)

namespace Block

variable {x y : Block} {live : List Block}

/-- no byte belongs to both blocks -/
def Disjoint (x y : Block) : Prop :=
  ∀ a : Nat, x.addr.toNat ≤ a → a < x.stop → y.addr.toNat ≤ a → a < y.stop → False

instance : Std.Symm Disjoint := ⟨fun _ _ h a hy hy' hx hx' => h a hx hx' hy hy'⟩

theorem program_subset_blocks (hx : x ∈ live) {lo hi : Nat} (hlo : x.addr.toNat ≤ lo) (hhi : hi ≤ x.stop) :
    Footprint.program lo hi ⊆ Footprint.blocks live := by
  rintro ⟨space, a⟩ ⟨hspace, h1, h2⟩
  have h1' : x.addr.toNat ≤ a.toNat := le_trans hlo h1
  have h2' : a.toNat < x.stop := lt_of_lt_of_le h2 hhi
  exact ⟨x, hx, hspace, h1', h2'⟩

end Block

/-- The action was done, or it failed with an error that `P` allows; no trap stopped it. -/
def Outcome.Within {ε α : Type} (P : ε → Prop) : Outcome ε α → Prop
  | done _ => True
  | failed e => P e
  | trapped _ => False

theorem Outcome.Within.mono {ε α : Type} {P Q : ε → Prop} {o : Outcome ε α} (h : o.Within P) (hPQ : ∀ e, P e → Q e) :
    o.Within Q := by
  cases o with
  | done v => trivial
  | failed e => exact hPQ e h
  | trapped t => exact h

theorem Outcome.Within.not_trapped {ε α : Type} {P : ε → Prop} {o : Outcome ε α} (h : o.Within P) (t : Trap) :
    o ≠ .trapped t := by
  rintro rfl
  exact h

namespace HeapAllocator

variable {A E α β : Type}

/-- What the owners of the blocks `live` get from an operation that is about all of them but `others`. If it is done, it
has handed out the blocks `new`, and `others` have kept their bytes; if it is not, all blocks are in use as before, with
their bytes. -/
structure Serves (Valid : A → Memory → List β → Prop) (bytes : List β → Footprint) (x : Action A E α) (m : Machine A)
    (live others : List β) (new : α → List β) : Prop where
  done : ∀ v m', x.run m = (.done v, m') →
    Valid m'.allocator m'.memory (new v ++ others) ∧ m.memory.SameAt (bytes others) m'.memory
  refused : ∀ o m', x.run m = (o, m') → (∀ v, o ≠ .done v) →
    Valid m'.allocator m'.memory live ∧ m.memory.SameAt (bytes live) m'.memory

/-- Neither how an operation ends nor what it leaves depends on the shadow bytes or on the log. -/
def Blind (shadow : Footprint) (x : Action A E α) (m : Machine A) : Prop :=
  ∀ m', m.Alike shadow m' → x.Mirrors shadow x m m'

/-- the contract of a heap allocator, given its own account of the blocks in use -/
structure Contract [HeapAllocator A E] (shadow : Footprint) (Valid : A → Memory → List Block → Prop) : Prop where
  /-- a block starts with a granule, ends inside the address space and has no shadow byte in it -/
  placed : ∀ {a memory live}, Valid a memory live → ∀ x ∈ live,
    x.addr.toNat % 8 = 0 ∧ x.stop < 2 ^ 64 ∧ shadow.Avoids x.addr.toNat x.stop
  disjoint : ∀ {a memory live}, Valid a memory live → live.Pairwise Block.Disjoint
  /-- the owner of a block may write into it, and shadow bytes may change -/
  owned : ∀ {a memory memory' live}, Valid a memory live →
    memory.SameOutside (shadow ∪ Footprint.blocks live) memory' → Valid a memory' live
  allocate : ∀ {m : Machine A} {live} (len : UInt64), Valid m.allocator m.memory live →
    Serves Valid Footprint.blocks (HeapAllocator.allocate len) m live live fun addr => [⟨addr, len⟩]
  reallocate : ∀ {m : Machine A} {live} {x : Block} (len : UInt64), Valid m.allocator m.memory live → x ∈ live →
    Serves Valid Footprint.blocks (HeapAllocator.reallocate x.addr len) m live (live.filter (·.addr ≠ x.addr))
      fun addr => [⟨addr, len⟩]
  free : ∀ {m : Machine A} {live} {x : Block}, Valid m.allocator m.memory live → x ∈ live →
    Serves Valid Footprint.blocks (HeapAllocator.free x.addr) m live (live.filter (·.addr ≠ x.addr)) fun _ => []
  allocate_blind : ∀ {m : Machine A} {live} (len : UInt64), Valid m.allocator m.memory live →
    Blind shadow (HeapAllocator.allocate len) m
  reallocate_blind : ∀ {m : Machine A} {live} {x : Block} (len : UInt64), Valid m.allocator m.memory live → x ∈ live →
    Blind shadow (HeapAllocator.reallocate x.addr len) m
  free_blind : ∀ {m : Machine A} {live} {x : Block}, Valid m.allocator m.memory live → x ∈ live →
    Blind shadow (HeapAllocator.free x.addr) m

/-- A block that is resized keeps its bytes, as far as they fit. -/
def Preserves [HeapAllocator A E] (Valid : A → Memory → List Block → Prop) : Prop :=
  ∀ {m m' : Machine A} {live} {x : Block} {len : UInt64} {addr : Address}, Valid m.allocator m.memory live → x ∈ live →
    (HeapAllocator.reallocate x.addr len).run m = (.done addr, m') → ∀ i, i < min x.len.toNat len.toNat →
      m'.memory.read .program (addr + i.toUInt64) = m.memory.read .program (x.addr + i.toUInt64)

/-- On the blocks in use, the allocator's operations are done or fail with an error that `P` allows. -/
structure Sound [HeapAllocator A E] (P : E → Prop) (Valid : A → Memory → List Block → Prop) : Prop where
  allocate : ∀ {m : Machine A} {live} (len : UInt64), Valid m.allocator m.memory live →
    ((HeapAllocator.allocate len).run m).1.Within P
  reallocate : ∀ {m : Machine A} {live} {x : Block} (len : UInt64), Valid m.allocator m.memory live → x ∈ live →
    ((HeapAllocator.reallocate x.addr len).run m).1.Within P
  free : ∀ {m : Machine A} {live} {x : Block}, Valid m.allocator m.memory live → x ∈ live →
    ((HeapAllocator.free x.addr).run m).1.Within P

theorem Sound.mono [HeapAllocator A E] {P Q : E → Prop} {Valid : A → Memory → List Block → Prop} (h : Sound P Valid)
    (hPQ : ∀ e, P e → Q e) : Sound Q Valid where
  allocate len hvalid := (h.allocate len hvalid).mono hPQ
  reallocate len hvalid hx := (h.reallocate len hvalid hx).mono hPQ
  free hvalid hx := (h.free hvalid hx).mono hPQ

/-- Whatever becomes of them, the allocator's operations leave the shadow bytes as they are. -/
structure KeepsOff [HeapAllocator A E] (shadow : Footprint) (Valid : A → Memory → List Block → Prop) : Prop where
  allocate : ∀ {m : Machine A} {live} (len : UInt64), Valid m.allocator m.memory live →
    m.memory.SameAt shadow ((HeapAllocator.allocate len).run m).2.memory
  reallocate : ∀ {m : Machine A} {live} {x : Block} (len : UInt64), Valid m.allocator m.memory live → x ∈ live →
    m.memory.SameAt shadow ((HeapAllocator.reallocate x.addr len).run m).2.memory
  free : ∀ {m : Machine A} {live} {x : Block}, Valid m.allocator m.memory live → x ∈ live →
    m.memory.SameAt shadow ((HeapAllocator.free x.addr).run m).2.memory

namespace Serves

variable {Valid : A → Memory → List β → Prop} {bytes : List β → Footprint} {x : Action A E α} {m : Machine A}
  {live others : List β} {new : α → List β}

/-- What an operation gives does not depend on the log. -/
theorem congr {m₀ : Machine A} {y : Action A E α} (h : Serves Valid bytes x m₀ live others new)
    (hmemory : m₀.memory = m.memory) (hrun : y.run m = x.run m₀) : Serves Valid bytes y m live others new := by
  constructor <;> rw [hrun, ← hmemory]
  case done => exact h.done
  case refused => exact h.refused

theorem of_done {v : α} {m' : Machine A} (hrun : x.run m = (.done v, m'))
    (hvalid : Valid m'.allocator m'.memory (new v ++ others)) (hsame : m.memory.SameAt (bytes others) m'.memory) :
    Serves Valid bytes x m live others new where
  done w m'' hrun' := by
    cases hrun.symm.trans hrun'
    exact ⟨hvalid, hsame⟩
  refused o m'' hrun' hnot := by
    cases hrun.symm.trans hrun'
    exact absurd rfl (hnot v)

theorem of_refused {o : Outcome E α} {m' : Machine A} (hrun : x.run m = (o, m')) (ho : ∀ v, o ≠ .done v)
    (hvalid : Valid m'.allocator m'.memory live) (hsame : m.memory.SameAt (bytes live) m'.memory) :
    Serves Valid bytes x m live others new where
  done v m'' hrun' := by
    cases hrun.symm.trans hrun'
    exact absurd rfl (ho v)
  refused o' m'' hrun' hnot := by
    cases hrun.symm.trans hrun'
    exact ⟨hvalid, hsame⟩

end Serves

end HeapAllocator

/-! ## Allocators around allocators -/

section Wraps

variable {A B E α : Type} {shadow : Footprint} {Valid : A → Memory → List Block → Prop} {inner : B → A}
  {outer : B → Outcome E α → A → B} {x : Action A E α} {y : Action B E α}

/-- the machine as the allocator inside another one sees it -/
def Machine.inside (inner : B → A) (m : Machine B) : Machine A := { m with allocator := inner m.allocator }

/-- `y` does what `x` does to the allocator inside. What it adds to that depends on what was there, and on how `x` ends. -/
structure Action.Wraps (inner : B → A) (outer : B → Outcome E α → A → B) (x : Action A E α) (y : Action B E α) : Prop where
  inner_outer : ∀ b o a, inner (outer b o a) = a
  run_eq : ∀ m, y.run m = ((x.run (m.inside inner)).1, { (x.run (m.inside inner)).2 with
    allocator := outer m.allocator (x.run (m.inside inner)).1 (x.run (m.inside inner)).2.allocator })

namespace Action.Wraps

variable {m : Machine B}

theorem run_inside (h : x.Wraps inner outer y) {o : Outcome E α} {m' : Machine B} (hrun : y.run m = (o, m')) :
    x.run (m.inside inner) = (o, m'.inside inner) := by
  rw [h.run_eq] at hrun
  obtain ⟨rfl, rfl⟩ := Prod.mk.inj hrun
  refine Prod.ext rfl ?_
  simp only [Machine.inside, h.inner_outer]

theorem serves {live others : List Block} {new : α → List Block} (h : x.Wraps inner outer y)
    (hx : HeapAllocator.Serves Valid Footprint.blocks x (m.inside inner) live others new) :
    HeapAllocator.Serves (fun b => Valid (inner b)) Footprint.blocks y m live others new where
  done v _ hrun := hx.done v _ (h.run_inside hrun)
  refused o _ hrun hnot := hx.refused o _ (h.run_inside hrun) hnot

theorem blind (h : x.Wraps inner outer y) (hx : HeapAllocator.Blind shadow x (m.inside inner)) :
    HeapAllocator.Blind shadow y m := by
  intro m' halike
  have hinside : (m.inside inner).Alike shadow (m'.inside inner) :=
    ⟨congrArg inner halike.allocator_eq, halike.memory_same⟩
  obtain ⟨houtcome, halike'⟩ := hx _ hinside
  constructor <;> rw [h.run_eq, h.run_eq]
  case outcome_eq => exact houtcome
  case alike => exact ⟨by rw [halike.allocator_eq, houtcome, halike'.allocator_eq], halike'.memory_same⟩

end Action.Wraps

/-- An allocator that wraps the operations of one inside keeps the contract of the one inside. -/
theorem HeapAllocator.Contract.wrap [HeapAllocator A E] [HeapAllocator B E]
    (h : HeapAllocator.Contract (A := A) shadow Valid) (outer : AllocatorCall → B → Outcome E Address → A → B)
    (taken : AllocatorCall → B → Outcome E Unit → A → B)
    (hallocate : ∀ len, (HeapAllocator.allocate len).Wraps inner (outer (.allocate len)) (HeapAllocator.allocate len))
    (hreallocate : ∀ block len,
      (HeapAllocator.reallocate block len).Wraps inner (outer (.reallocate block len)) (HeapAllocator.reallocate block len))
    (hfree : ∀ block, (HeapAllocator.free block).Wraps inner (taken (.free block)) (HeapAllocator.free block)) :
    HeapAllocator.Contract (A := B) shadow fun b => Valid (inner b) where
  placed := h.placed
  disjoint := h.disjoint
  owned := h.owned
  allocate {m _} len hvalid := (hallocate len).serves (h.allocate (m := m.inside inner) len hvalid)
  reallocate {m _ _} len hvalid hx := (hreallocate _ len).serves (h.reallocate (m := m.inside inner) len hvalid hx)
  free {m _ _} hvalid hx := (hfree _).serves (h.free (m := m.inside inner) hvalid hx)
  allocate_blind {m _} len hvalid := (hallocate len).blind (h.allocate_blind (m := m.inside inner) len hvalid)
  reallocate_blind {m _ _} len hvalid hx :=
    (hreallocate _ len).blind (h.reallocate_blind (m := m.inside inner) len hvalid hx)
  free_blind {m _ _} hvalid hx := (hfree _).blind (h.free_blind (m := m.inside inner) hvalid hx)

/-- So does one whose calls are recorded, -/
theorem Recorded.contract [HeapAllocator A E] (h : HeapAllocator.Contract (A := A) shadow Valid) :
    HeapAllocator.Contract (A := Recorded A) shadow fun a => Valid a.inner :=
  h.wrap (fun call b _ a => ⟨a, b.calls.push call⟩) (fun call b _ a => ⟨a, b.calls.push call⟩)
    (fun _ => ⟨fun _ _ _ => rfl, fun _ => rfl⟩) (fun _ _ => ⟨fun _ _ _ => rfl, fun _ => rfl⟩)
    fun _ => ⟨fun _ _ _ => rfl, fun _ => rfl⟩

/-- and one whose dealings are kept in a ledger. -/
theorem Ledger.contract [HeapAllocator A E] (h : HeapAllocator.Contract (A := A) shadow Valid) :
    HeapAllocator.Contract (A := Ledger A) shadow fun a => Valid a.inner :=
  h.wrap (fun call b o a => ⟨a, b.entries ++ [(call, answerOf .gave o)]⟩)
    (fun call b o a => ⟨a, b.entries ++ [(call, answerOf (fun _ => .took) o)]⟩)
    (fun _ => ⟨fun _ _ _ => rfl, fun _ => rfl⟩) (fun _ _ => ⟨fun _ _ _ => rfl, fun _ => rfl⟩)
    fun _ => ⟨fun _ _ _ => rfl, fun _ => rfl⟩

end Wraps

end AddressSanitizer
