/-
The blocks of a bump allocator. `Bump.Inv b memory live` ties the allocator, its two words of metadata below every block
and the blocks in use together: the length word of a block is its length, and of any two blocks the one ends no later
than the cursor that the other one has saved. So giving back the block at the cursor never moves the cursor below a
block in use, and a block that was shrunk is mistaken for the last one only if it is.

- `run_carve`, `run_reallocate`, `run_free`: how the operations run, as equations; a new block is placed at `placement`,
  the least multiple of the alignment with room for the metadata above the cursor.
- `Inv.allocate`, `Inv.reallocate`, `Inv.free`: on blocks in use the operations keep the invariant, and touch no more
  than the length word of the block and the bytes above the cursor.
-/
import Mathlib.Tactic
import AddressSanitizer.Heap.Bump
import AddressSanitizer.Proofs.Frame

namespace AddressSanitizer

theorem isPowerOfTwo_iff {a : UInt64} : isPowerOfTwo a = true ↔ ∃ k, k < 64 ∧ a.toNat = 2 ^ k := by
  simp [isPowerOfTwo, Nat.one_shiftLeft]

/-- a block in use: its address and its length -/
structure Block where
  addr : Address
  len : UInt64
  deriving DecidableEq, Repr

namespace Block

/-- where the block ends -/
def stop (x : Block) : Nat := x.addr.toNat + x.len.toNat

/-- the cursor that is saved below the block -/
def saved (x : Block) (memory : Memory) : Nat := (memory.readWord (x.addr - Bump.metadata)).toNat

theorem addr_le_stop (x : Block) : x.addr.toNat ≤ x.stop := Nat.le_add_right _ _

/-- of two blocks, one ends no later than the cursor saved below the other -/
def Apart (memory : Memory) (x y : Block) : Prop := x.stop ≤ y.saved memory ∨ y.stop ≤ x.saved memory

instance (memory : Memory) : Std.Symm (Apart memory) := ⟨fun _ _ => Or.symm⟩

/-- the saved cursor is a word of its own -/
theorem saved_frame (x : Block) {memory memory' : Memory} {F : Footprint} (hroom : 16 ≤ x.addr.toNat)
    (hsame : memory.SameOutside F memory') (hoff : F.Avoids (x.addr.toNat - 16) (x.addr.toNat - 8)) :
    x.saved memory' = x.saved memory := by
  have hbelow : (x.addr - Bump.metadata).toNat = x.addr.toNat - 16 :=
    toNat_sub_of_le (show 16 ≤ x.addr.toNat from hroom)
  have haddr := x.addr.toNat_lt
  rw [saved, saved, hsame.readWord_eq (by omega) (hoff.mono (by omega) (by omega))]

end Block

namespace Bump

variable {b b' : Bump} {m : Machine Bump} {memory memory' : Memory} {F : Footprint} {live : List Block} {x y : Block}
  {len : UInt64}

/-! ## How the operations run -/

/-- the least multiple of the alignment that leaves room for the metadata above the cursor -/
def placement (b : Bump) : Nat := (b.cursor.toNat + 16 + (b.align.toNat - 1)) / b.align.toNat * b.align.toNat

theorem align_bounds (h : isPowerOfTwo b.align = true) : 0 < b.align.toNat ∧ b.align.toNat ≤ 2 ^ 63 := by
  obtain ⟨k, hk, ha⟩ := isPowerOfTwo_iff.mp h
  rw [ha]
  exact ⟨Nat.pow_pos (by decide), Nat.pow_le_pow_right (by decide) (by omega)⟩

theorem align_mod (h : isPowerOfTwo b.align = true) (h8 : 8 ≤ b.align.toNat) : b.align.toNat % 8 = 0 := by
  obtain ⟨k, -, hk⟩ := isPowerOfTwo_iff.mp h
  have h3 : 3 ≤ k := by
    by_contra hlt
    have : 2 ^ k ≤ 2 ^ 2 := Nat.pow_le_pow_right (by decide) (by omega)
    omega
  rw [hk]
  exact Nat.mod_eq_zero_of_dvd (Nat.pow_dvd_pow 2 h3)

theorem placement_mod (b : Bump) : b.placement % b.align.toNat = 0 := Nat.mul_mod_left _ _

theorem placement_add_mod (b : Bump) :
    b.placement + (b.cursor.toNat + 16 + (b.align.toNat - 1)) % b.align.toNat =
      b.cursor.toNat + 16 + (b.align.toNat - 1) := by
  rw [placement, Nat.mul_comm]
  exact Nat.div_add_mod _ _

theorem cursor_add_le_placement (h : isPowerOfTwo b.align = true) : b.cursor.toNat + 16 ≤ b.placement := by
  have hpos := (align_bounds h).1
  have hmod := Nat.mod_lt (b.cursor.toNat + 16 + (b.align.toNat - 1)) hpos
  have := b.placement_add_mod
  omega

/-- The next block is the placement, unless that lies outside the address space. -/
theorem nextBlock?_cases (h : isPowerOfTwo b.align = true) :
    (∃ block, b.nextBlock? = some block ∧ block.toNat = b.placement) ∨ (b.nextBlock? = none ∧ 2 ^ 64 ≤ b.placement) := by
  obtain ⟨hpos, hle⟩ := align_bounds h
  have hplace := b.placement_add_mod
  have hroom : (metadata + b.align - 1).toNat = 16 + (b.align.toNat - 1) := by
    have hmeta : metadata.toNat = 16 := rfl
    have hsum : (metadata + b.align).toNat = 16 + b.align.toNat := by
      rw [toNat_add_of_lt (by omega), hmeta]
    have hpred : (metadata + b.align - 1).toNat = (metadata + b.align).toNat - 1 :=
      toNat_sub_of_le (show 1 ≤ (metadata + b.align).toNat by omega)
    omega
  unfold nextBlock?
  cases hadd : checkedAdd b.cursor (metadata + b.align - 1) with
  | some a =>
    left
    have ha := checkedAdd_eq_some_iff.mp hadd
    have hmod : (a % b.align).toNat = a.toNat % b.align.toNat := UInt64.toNat_mod _ _
    have hle' := Nat.mod_le a.toNat b.align.toNat
    refine ⟨a - a % b.align, rfl, ?_⟩
    rw [toNat_sub_of_le (by omega), hmod]
    have hsame : a.toNat = b.cursor.toNat + 16 + (b.align.toNat - 1) := by omega
    rw [hsame] at hmod ⊢
    omega
  | none =>
    right
    refine ⟨rfl, ?_⟩
    have hover := checkedAdd_eq_none_iff.mp hadd
    -- the alignment divides the size of the address space, so that rounding down does not fall below it
    obtain ⟨k, hk, ha⟩ := isPowerOfTwo_iff.mp h
    have hdvd : 2 ^ 64 / b.align.toNat * b.align.toNat = 2 ^ 64 := by
      rw [ha]
      exact Nat.div_mul_cancel (Nat.pow_dvd_pow 2 (by omega))
    calc 2 ^ 64 = 2 ^ 64 / b.align.toNat * b.align.toNat := hdvd.symm
      _ ≤ b.placement := Nat.mul_le_mul_right _ (Nat.div_le_div_right (by omega))

theorem stopOf?_cases (b : Bump) (block : Address) (len : UInt64) :
    (∃ stop, b.stopOf? block len = some stop ∧ stop.toNat = block.toNat + len.toNat ∧ stop.toNat ≤ b.stop.toNat) ∨
      (b.stopOf? block len = none ∧ b.stop.toNat < block.toNat + len.toNat) := by
  have hstop := b.stop.toNat_lt
  unfold stopOf?
  cases hadd : checkedAdd block len with
  | none =>
    have := checkedAdd_eq_none_iff.mp hadd
    exact Or.inr ⟨rfl, by omega⟩
  | some stop =>
    have hsum := checkedAdd_eq_some_iff.mp hadd
    by_cases hle : stop ≤ b.stop
    · exact Or.inl ⟨stop, by simp [Option.filter, hle], hsum, UInt64.le_iff_toNat_le.mp hle⟩
    · rw [UInt64.le_iff_toNat_le] at hle
      exact Or.inr ⟨by simp [Option.filter, UInt64.le_iff_toNat_le, hle], by omega⟩

/-- A block is carved at the placement if it ends in the region there; otherwise nothing happens. -/
theorem run_carve (h : isPowerOfTwo m.allocator.align = true) (len : UInt64) :
    (∃ block stop : Address, block.toNat = m.allocator.placement ∧ stop.toNat = block.toNat + len.toNat ∧
      stop.toNat ≤ m.allocator.stop.toNat ∧
      (carve len).run m = (.done block,
        { memory := (m.memory.writeWord (block - 8) len).writeWord (block - metadata) m.allocator.cursor
          log := m.log.push (.bumpBlock block len)
          allocator := { m.allocator with cursor := stop } })) ∨
      (m.allocator.stop.toNat < m.allocator.placement + len.toNat ∧
        (carve len).run m = (.failed (.outOfMemory len), m)) := by
  have hstop := m.allocator.stop.toNat_lt
  simp only [carve, Action.run_bind, Action.run_allocator]
  rcases nextBlock?_cases h with ⟨block, hblock, hplace⟩ | ⟨hnone, hover⟩
  · simp only [hblock, Action.run_require_some]
    rcases m.allocator.stopOf?_cases block len with ⟨stop, hstop?, hsum, hle⟩ | ⟨hnone, hover⟩
    · rw [hstop?]
      exact Or.inl ⟨block, stop, hplace, hsum, hle, rfl⟩
    · rw [hnone]
      exact Or.inr ⟨by omega, rfl⟩
  · rw [hnone]
    exact Or.inr ⟨by omega, rfl⟩

theorem run_lengthOf {block : Address} (hstart : m.allocator.start.toNat + 16 ≤ block.toNat)
    (hcursor : block.toNat ≤ m.allocator.cursor.toNat) :
    (lengthOf block).run m = (.done (m.memory.readWord (block - 8)), m) := by
  have hblock := block.toNat_lt
  have hmeta : metadata.toNat = 16 := rfl
  have hadd : checkedAdd m.allocator.start metadata = some (m.allocator.start + metadata) := checkedAdd_of_lt (by omega)
  have hfirst : (m.allocator.start + metadata).toNat = m.allocator.start.toNat + 16 := by
    rw [toNat_add_of_lt (by omega), hmeta]
  have hinside : ¬(block < m.allocator.start + metadata ∨ m.allocator.cursor < block) := by
    rw [UInt64.lt_iff_toNat_lt, UInt64.lt_iff_toNat_lt]
    omega
  simp only [lengthOf, Action.run_bind, Action.run_allocator, Action.add, hadd, Action.run_orTrap_some, if_neg hinside,
    Action.run_memory, Action.run_pure]

theorem run_isLast {block : Address} (h : block.toNat + len.toNat < 2 ^ 64) :
    (isLast block len).run m = (.done (decide (block.toNat + len.toNat = m.allocator.cursor.toNat)), m) := by
  have hadd : checkedAdd block len = some (block + len) := checkedAdd_of_lt h
  have hsame : block + len = m.allocator.cursor ↔ block.toNat + len.toNat = m.allocator.cursor.toNat := by
    rw [← UInt64.toNat_inj, toNat_add_of_lt h]
  simp only [isLast, Action.run_bind, Action.add, hadd, Action.run_orTrap_some, Action.run_allocator, Action.run_pure,
    decide_eq_decide.mpr hsame]

/-- A fresh allocator is one with the cursor at the start of a region that ends inside the address space. -/
theorem ofRegion_eq_ok_iff {start len align : UInt64} :
    ofRegion start len align = .ok b ↔
      isPowerOfTwo align = true ∧ start.toNat + len.toNat < 2 ^ 64 ∧ b = ⟨start, start + len, start, align⟩ := by
  unfold ofRegion
  by_cases hpower : isPowerOfTwo align = true
  · simp only [hpower, if_true, true_and]
    by_cases hsum : start.toNat + len.toNat < 2 ^ 64
    · simp only [checkedAdd_of_lt hsum, hsum, true_and, Except.ok.injEq]
      exact eq_comm
    · have hnone : checkedAdd start len = none := checkedAdd_eq_none_iff.mpr (by omega)
      simp only [hnone, hsum, reduceCtorEq, false_and]
  · simp only [hpower, if_false, reduceCtorEq, false_and, Bool.false_eq_true]

theorem toNat_of_ofRegion {start len align : UInt64} (h : ofRegion start len align = .ok b) :
    b.start.toNat = start.toNat ∧ b.stop.toNat = start.toNat + len.toNat ∧ b.align = align := by
  obtain ⟨-, hsum, rfl⟩ := ofRegion_eq_ok_iff.mp h
  exact ⟨rfl, toNat_add_of_lt hsum, rfl⟩

/-- As long as the cursor has not left the region, what remains of it is known. -/
theorem exists_remaining (h : b.cursor.toNat ≤ b.stop.toNat) :
    ∃ n, b.remaining? = some n ∧ b.cursor.toNat + n.toNat = b.stop.toNat := by
  have hsub : (b.stop - b.cursor).toNat = b.stop.toNat - b.cursor.toNat := toNat_sub_of_le h
  refine ⟨b.stop - b.cursor, checkedSub_eq_some_iff.mpr ?_, ?_⟩ <;> omega

/-! ## The invariant -/

/-- What the allocator and the memory say about a block in use. -/
structure Holds (b : Bump) (memory : Memory) (x : Block) : Prop where
  aligned : x.addr.toNat % b.align.toNat = 0
  length_eq : memory.readWord (x.addr - 8) = x.len
  start_le_saved : b.start.toNat ≤ x.saved memory
  saved_add_le : x.saved memory + 16 ≤ x.addr.toNat
  stop_le : x.stop ≤ b.cursor.toNat

/-- The cursor lies in the region, every block in use is described by the two words below it, and of any two of them
one ends no later than the cursor saved below the other. -/
structure Inv (b : Bump) (memory : Memory) (live : List Block) : Prop where
  power : isPowerOfTwo b.align = true
  start_le : b.start.toNat ≤ b.cursor.toNat
  le_stop : b.cursor.toNat ≤ b.stop.toNat
  holds : ∀ x ∈ live, b.Holds memory x
  apart : live.Pairwise (Block.Apart memory)

/-- the same region and alignment; the cursor may differ -/
structure SameRegion (b b' : Bump) : Prop where
  start_eq : b'.start = b.start
  stop_eq : b'.stop = b.stop
  align_eq : b'.align = b.align

theorem SameRegion.refl (b : Bump) : b.SameRegion b := ⟨rfl, rfl, rfl⟩

theorem SameRegion.trans {b'' : Bump} (h : b.SameRegion b') (h' : b'.SameRegion b'') : b.SameRegion b'' :=
  ⟨h'.start_eq.trans h.start_eq, h'.stop_eq.trans h.stop_eq, h'.align_eq.trans h.align_eq⟩

/-- A block in use stays one under a change that keeps off its metadata, as long as the cursor does not fall below its
end. -/
theorem Holds.frame (h : b.Holds memory x) (hregion : b.SameRegion b') (hcursor : x.stop ≤ b'.cursor.toNat)
    (hsame : memory.SameOutside F memory') (hoff : F.Avoids (x.addr.toNat - 16) x.addr.toNat) : b'.Holds memory' x := by
  have hroom := h.saved_add_le
  have hsaved := x.saved_frame (by omega) hsame (hoff.mono le_rfl (by omega))
  have hbelow : (x.addr - 8).toNat = x.addr.toNat - 8 := toNat_sub_of_le (show 8 ≤ x.addr.toNat by omega)
  have haddr := x.addr.toNat_lt
  refine ⟨?_, ?_, ?_, ?_, hcursor⟩
  · rw [hregion.align_eq]
    exact h.aligned
  · rw [hsame.readWord_eq (by omega) (hoff.mono (by omega) (by omega))]
    exact h.length_eq
  · rw [hregion.start_eq, hsaved]
    exact h.start_le_saved
  · rw [hsaved]
    exact hroom

/-- The saved cursor stays under a change that keeps off it. -/
theorem Holds.saved_frame (h : b.Holds memory x) (hsame : memory.SameOutside F memory')
    (hoff : F.Avoids (x.addr.toNat - 16) (x.addr.toNat - 8)) : x.saved memory' = x.saved memory := by
  have hroom := h.saved_add_le
  exact Block.saved_frame x (by omega) hsame hoff

/-- The length of a block is a word of its own. -/
theorem Holds.sameOutside_length (h : b.Holds memory x) (len : UInt64) :
    memory.SameOutside (Footprint.program (x.addr.toNat - 8) x.addr.toNat) (memory.writeWord (x.addr - 8) len) := by
  have hroom := h.saved_add_le
  have hbelow : (x.addr - 8).toNat = x.addr.toNat - 8 := toNat_sub_of_le (show 8 ≤ x.addr.toNat by omega)
  have haddr := x.addr.toNat_lt
  exact (Memory.sameOutside_writeWord (by omega) _).mono (Footprint.program_subset (by omega))

namespace Inv

theorem apart_of_ne (h : b.Inv memory live) (hx : x ∈ live) (hy : y ∈ live) (hne : x.addr ≠ y.addr) :
    x.Apart memory y :=
  h.apart.forall hx hy fun heq => hne (congrArg Block.addr heq)

/-- A block that does not end at the cursor, or starts elsewhere than the last one, ends below the last one. -/
theorem stop_le_saved_of_last (h : b.Inv memory live) (hx : x ∈ live) (hy : y ∈ live) (hne : x.addr ≠ y.addr)
    (hlast : x.stop = b.cursor.toNat) : y.stop ≤ x.saved memory := by
  rcases h.apart_of_ne hx hy hne with hxy | hyx
  · have := (h.holds y hy).saved_add_le
    have := (h.holds y hy).stop_le
    have := y.addr_le_stop
    omega
  · exact hyx

/-- Some of the blocks stay in use under a change that keeps off their metadata and puts the cursor no lower than their
ends. -/
theorem keep (h : b.Inv memory live) {rest : List Block} (hrest : rest.Sublist live) (hregion : b.SameRegion b')
    (hlo : b.start.toNat ≤ b'.cursor.toNat) (hhi : b'.cursor.toNat ≤ b.stop.toNat)
    (hcursor : ∀ y ∈ rest, y.stop ≤ b'.cursor.toNat) (hsame : memory.SameOutside F memory')
    (hoff : ∀ y ∈ rest, F.Avoids (y.addr.toNat - 16) y.addr.toNat) : b'.Inv memory' rest := by
  have hsaved (y : Block) (hy : y ∈ rest) : y.saved memory' = y.saved memory :=
    (h.holds y (hrest.subset hy)).saved_frame hsame ((hoff y hy).mono le_rfl (by omega))
  constructor
  case power =>
    rw [hregion.align_eq]
    exact h.power
  case start_le =>
    rw [hregion.start_eq]
    exact hlo
  case le_stop =>
    rw [hregion.stop_eq]
    exact hhi
  case holds =>
    intro y hy
    exact (h.holds y (hrest.subset hy)).frame hregion (hcursor y hy) hsame (hoff y hy)
  case apart =>
    refine (h.apart.sublist hrest).imp_of_mem fun {x y} hx hy hxy => ?_
    rw [Block.Apart, hsaved x hx, hsaved y hy]
    exact hxy

/-- One more block in use, apart from the others. -/
theorem cons (h : b.Inv memory live) (hx : b.Holds memory x) (hapart : ∀ y ∈ live, x.Apart memory y) :
    b.Inv memory (x :: live) where
  power := h.power
  start_le := h.start_le
  le_stop := h.le_stop
  holds := by
    rintro y (_ | ⟨_, hy⟩)
    · exact hx
    · exact h.holds y hy
  apart := List.pairwise_cons.mpr ⟨hapart, h.apart⟩

end Inv

theorem Holds.run_lengthOf (h : m.allocator.Holds m.memory x) : (lengthOf x.addr).run m = (.done x.len, m) := by
  have := h.start_le_saved
  have := h.saved_add_le
  have := h.stop_le
  have := x.addr_le_stop
  rw [Bump.run_lengthOf (by omega) (by omega), h.length_eq]

theorem Holds.run_isLast (h : m.allocator.Holds m.memory x) :
    (isLast x.addr x.len).run m = (.done (decide (x.stop = m.allocator.cursor.toNat)), m) := by
  have hstop := h.stop_le
  have hcursor := m.allocator.cursor.toNat_lt
  rw [Block.stop] at hstop
  exact Bump.run_isLast (by omega)

/-- The last block moves its end, another one is shrunk where it is, and otherwise its bytes are copied to a new one. -/
theorem run_reallocate (h : m.allocator.Holds m.memory x) (len : UInt64) :
    (reallocate x.addr len).run m =
      if x.stop = m.allocator.cursor.toNat then
        match m.allocator.stopOf? x.addr len with
        | some stop => (.done x.addr, { m with
            memory := m.memory.writeWord (x.addr - 8) len
            allocator := { m.allocator with cursor := stop } })
        | none => (.failed (.outOfMemory len), m)
      else if len ≤ x.len then (.done x.addr, { m with memory := m.memory.writeWord (x.addr - 8) len })
      else match (carve len).run m with
        | (.done moved, m') => (.done moved, { m' with memory := m'.memory.copy moved x.addr x.len.toNat })
        | (.failed e, m') => (.failed e, m')
        | (.trapped t, m') => (.trapped t, m') := by
  simp only [reallocate, Action.run_bind, h.run_lengthOf, h.run_isLast]
  by_cases hlast : x.stop = m.allocator.cursor.toNat
  · simp only [hlast, decide_true, if_true, resizeLast, Action.run_bind, Action.run_allocator]
    cases m.allocator.stopOf? x.addr len <;> rfl
  · simp only [hlast, decide_false, if_false, Bool.false_eq_true]
    by_cases hle : len ≤ x.len
    · simp only [hle, if_true]
      rfl
    · simp only [hle, if_false, Action.run_bind]
      rcases (carve len).run m with ⟨_ | _ | _, m'⟩ <;> rfl

/-- Looking at a block changes nothing, whatever is given for one. -/
theorem unchanged_lengthOf (block : Address) (m : Machine Bump) : ((lengthOf block).run m).2 = m := by
  simp only [lengthOf, Action.run_bind, Action.run_allocator, Action.add]
  cases checkedAdd m.allocator.start metadata with
  | none => rfl
  | some first =>
    simp only [Action.run_orTrap_some]
    split_ifs <;> rfl

theorem unchanged_isLast (block len : Address) (m : Machine Bump) : ((isLast block len).run m).2 = m := by
  simp only [isLast, Action.run_bind, Action.add]
  cases checkedAdd block len <;> rfl

/-- Giving back a block writes nothing, whatever is given for one. -/
theorem memory_free (block : Address) (m : Machine Bump) : ((free block).run m).2.memory = m.memory := by
  have hlength := unchanged_lengthOf block m
  rw [free, Action.run_bind]
  rcases hrun : (lengthOf block).run m with ⟨len | e | t, m₁⟩ <;> rw [hrun] at hlength <;> obtain rfl := hlength
  · have hlast := unchanged_isLast block len m₁
    dsimp only
    rw [Action.run_bind]
    rcases hrun' : (isLast block len).run m₁ with ⟨last | e | t, m₂⟩ <;> rw [hrun'] at hlast <;> obtain rfl := hlast
    · cases last with
      | true => simp only [if_true, Action.run_bind, Action.run_memory, Action.run_allocator, Action.run_setAllocator]
      | false => rfl
    · rfl
    · rfl
  · rfl
  · rfl

/-- Giving the last block back moves the cursor to where it stood before; giving back another one does nothing. -/
theorem run_free (h : m.allocator.Holds m.memory x) :
    (free x.addr).run m = (.done (), if x.stop = m.allocator.cursor.toNat
      then { m with allocator := { m.allocator with cursor := m.memory.readWord (x.addr - metadata) } } else m) := by
  simp only [free, Action.run_bind, h.run_lengthOf, h.run_isLast]
  by_cases hlast : x.stop = m.allocator.cursor.toNat
  · simp only [hlast, decide_true, if_true]
    rfl
  · simp only [hlast, decide_false, if_false, Bool.false_eq_true]
    rfl

/-! ## What the operations preserve -/

namespace Inv

/-- A new block lies above the cursor, and only its metadata is written. -/
theorem allocate (h : m.allocator.Inv m.memory live) (len : UInt64) :
    (∃ addr m', (carve len).run m = (.done addr, m') ∧ m.allocator.SameRegion m'.allocator ∧
      m'.allocator.Inv m'.memory (⟨addr, len⟩ :: live) ∧ m.allocator.cursor.toNat + 16 ≤ addr.toNat ∧
      m.memory.SameOutside (Footprint.program m.allocator.cursor.toNat addr.toNat) m'.memory) ∨
      (carve len).run m = (.failed (.outOfMemory len), m) := by
  rcases run_carve h.power len with ⟨addr, stop, hplace, hstop, hle, hrun⟩ | ⟨-, hrun⟩
  · left
    have habove := cursor_add_le_placement h.power
    have haddr := addr.toNat_lt
    have hregion : m.allocator.SameRegion { m.allocator with cursor := stop } := ⟨rfl, rfl, rfl⟩
    have hlength : (addr - 8).toNat = addr.toNat - 8 := toNat_sub_of_le (show 8 ≤ addr.toNat by omega)
    have hsaved : (addr - metadata).toNat = addr.toNat - 16 := toNat_sub_of_le (show 16 ≤ addr.toNat by omega)
    have hsame : m.memory.SameOutside (Footprint.program m.allocator.cursor.toNat addr.toNat)
        ((m.memory.writeWord (addr - 8) len).writeWord (addr - metadata) m.allocator.cursor) :=
      ((Memory.sameOutside_writeWord (by omega) _).mono (Footprint.program_subset (by omega))).trans
        ((Memory.sameOutside_writeWord (by omega) _).mono (Footprint.program_subset (by omega)))
    have hlive : Inv { m.allocator with cursor := stop }
        ((m.memory.writeWord (addr - 8) len).writeWord (addr - metadata) m.allocator.cursor) live := by
      refine h.keep (List.Sublist.refl _) hregion ?_ hle (fun y hy => ?_) hsame fun y hy => ?_
      · have := h.start_le
        show m.allocator.start.toNat ≤ stop.toNat
        omega
      · have := (h.holds y hy).stop_le
        show y.stop ≤ stop.toNat
        omega
      · have := (h.holds y hy).stop_le
        have := y.addr_le_stop
        exact Footprint.avoids_program (Or.inr (by omega))
    have hnew : Block.saved ⟨addr, len⟩
        ((m.memory.writeWord (addr - 8) len).writeWord (addr - metadata) m.allocator.cursor) =
          m.allocator.cursor.toNat := by
      rw [Block.saved, Memory.readWord_writeWord]
    refine ⟨addr, _, hrun, hregion, hlive.cons ⟨?_, ?_, ?_, ?_, ?_⟩ fun y hy => Or.inr ?_, by omega, hsame⟩
    · show addr.toNat % m.allocator.align.toNat = 0
      rw [hplace]
      exact placement_mod _
    · have hoff : (Footprint.program (addr - metadata).toNat ((addr - metadata).toNat + 8)).Avoids
          (addr - 8).toNat ((addr - 8).toNat + 8) := Footprint.avoids_program (by omega)
      rw [(Memory.sameOutside_writeWord (by omega) _).readWord_eq (by omega) hoff, Memory.readWord_writeWord]
    · rw [hnew]
      exact h.start_le
    · rw [hnew]
      show m.allocator.cursor.toNat + 16 ≤ addr.toNat
      omega
    · exact hstop.ge
    · rw [hnew]
      exact (h.holds y hy).stop_le
  · exact Or.inr hrun

/-- Of a block that stays where it is only the length is written. -/
theorem resize (h : m.allocator.Inv m.memory live) (hx : x ∈ live) (len : UInt64) (hregion : m.allocator.SameRegion b')
    (hlo : x.addr.toNat + len.toNat ≤ b'.cursor.toNat) (hhi : b'.cursor.toNat ≤ m.allocator.stop.toNat)
    (hcursor : ∀ y ∈ live, y.addr ≠ x.addr → y.stop ≤ b'.cursor.toNat)
    (happart : len ≤ x.len ∨ ∀ y ∈ live, y.addr ≠ x.addr → y.stop ≤ x.saved m.memory) :
    b'.Inv (m.memory.writeWord (x.addr - 8) len) (⟨x.addr, len⟩ :: live.filter (·.addr ≠ x.addr)) ∧
      m.memory.SameOutside (Footprint.program (x.addr.toNat - 8) x.addr.toNat)
        (m.memory.writeWord (x.addr - 8) len) := by
  have hhold := h.holds x hx
  have hroom := hhold.saved_add_le
  have hsaved := hhold.start_le_saved
  have hsame := hhold.sameOutside_length len
  have hmem (y : Block) (hy : y ∈ live.filter (·.addr ≠ x.addr)) : y ∈ live ∧ y.addr ≠ x.addr := by
    simpa using hy
  have hoff (y : Block) (hy : y ∈ live.filter (·.addr ≠ x.addr)) :
      (Footprint.program (x.addr.toNat - 8) x.addr.toNat).Avoids (y.addr.toNat - 16) y.addr.toNat := by
    obtain ⟨hy, hne⟩ := hmem y hy
    have := (h.holds y hy).saved_add_le
    have := x.addr_le_stop
    have := y.addr_le_stop
    apply Footprint.avoids_program
    rcases h.apart_of_ne hx hy (Ne.symm hne) with hxy | hyx <;> omega
  have hkeep := hhold.saved_frame hsame (Footprint.avoids_program (by omega))
  have hnew : Block.saved ⟨x.addr, len⟩ (m.memory.writeWord (x.addr - 8) len) = x.saved m.memory := hkeep
  have hlive : b'.Inv (m.memory.writeWord (x.addr - 8) len) (live.filter (·.addr ≠ x.addr)) :=
    h.keep List.filter_sublist hregion (by omega) hhi
      (fun y hy => hcursor y (hmem y hy).1 (hmem y hy).2) hsame hoff
  refine ⟨hlive.cons ⟨?_, Memory.readWord_writeWord _ _ _, ?_, ?_, hlo⟩ fun y hy => ?_, hsame⟩
  · rw [hregion.align_eq]
    exact hhold.aligned
  · rw [hnew, hregion.start_eq]
    exact hsaved
  · rw [hnew]
    exact hroom
  · have hysaved := y.saved_frame (by have := (hlive.holds y hy).saved_add_le; omega) hsame
      ((hoff y hy).mono le_rfl (by omega))
    obtain ⟨hy, hne⟩ := hmem y hy
    rw [Block.Apart, hysaved, hnew]
    rcases happart with hle | hlast
    · have hle := UInt64.le_iff_toNat_le.mp hle
      rcases h.apart_of_ne hx hy (Ne.symm hne) with hxy | hyx
      · have hstop : x.stop = x.addr.toNat + x.len.toNat := rfl
        exact Or.inl (show x.addr.toNat + len.toNat ≤ _ by omega)
      · exact Or.inr hyx
    · exact Or.inr (hlast y hy hne)

/-- The bytes of a block move to a new one above the cursor, and the old block is no longer in use. -/
theorem move (h : m.allocator.Inv m.memory live) (hx : x ∈ live) (hgrow : x.len.toNat < len.toNat) {addr : Address}
    (hinv : b'.Inv memory (⟨addr, len⟩ :: live)) (hstop_eq : b'.stop = m.allocator.stop)
    (habove : m.allocator.cursor.toNat + 16 ≤ addr.toNat)
    (hsame : m.memory.SameOutside (Footprint.program m.allocator.cursor.toNat addr.toNat) memory) :
    b'.Inv (memory.copy addr x.addr x.len.toNat) (⟨addr, len⟩ :: live.filter (·.addr ≠ x.addr)) ∧
      m.memory.SameOutside (Footprint.program m.allocator.cursor.toNat m.allocator.stop.toNat)
        (memory.copy addr x.addr x.len.toNat) ∧
      ∀ i, i < x.len.toNat → (memory.copy addr x.addr x.len.toNat).read .program (addr + i.toUInt64) =
        m.memory.read .program (x.addr + i.toUInt64) := by
  have hxstop := (h.holds x hx).stop_le
  have hspan : x.stop = x.addr.toNat + x.len.toNat := rfl
  have hstop : addr.toNat + len.toNat ≤ b'.cursor.toNat := (hinv.holds _ (List.mem_cons_self ..)).stop_le
  have hfits := hinv.le_stop
  rw [hstop_eq] at hfits
  have hlt := m.allocator.stop.toNat_lt
  have hcopy : memory.SameOutside (Footprint.program addr.toNat (addr.toNat + x.len.toNat))
      (memory.copy addr x.addr x.len.toNat) := Memory.sameOutside_copy (by omega)
  have hrest : (⟨addr, len⟩ :: live.filter (·.addr ≠ x.addr)).Sublist (⟨addr, len⟩ :: live) :=
    List.filter_sublist.cons_cons _
  refine ⟨?_, ?_, fun i hi => ?_⟩
  · refine hinv.keep hrest (SameRegion.refl _) hinv.start_le hinv.le_stop
      (fun y hy => (hinv.holds y (hrest.subset hy)).stop_le) hcopy fun y hy => ?_
    apply Footprint.avoids_program
    rcases List.mem_cons.mp hy with rfl | hy
    · exact Or.inr le_rfl
    · have := (h.holds y (List.mem_filter.mp hy).1).stop_le
      have := y.addr_le_stop
      omega
  · exact (hsame.mono (Footprint.program_subset (by omega))).trans (hcopy.mono (Footprint.program_subset (by omega)))
  · have hold : (x.addr + i.toUInt64).toNat = x.addr.toNat + i := toNat_add_toUInt64 (by omega)
    rw [Memory.read_copy (by omega) (by omega) (by omega)]
    exact hsame _ _ fun hin => by
      have : m.allocator.cursor.toNat ≤ (x.addr + i.toUInt64).toNat := hin.2.1
      omega

/-- A block gets another length where it is, or its bytes move to a new block. Written are the length of the block and
memory above the cursor; if there is no room, nothing is. -/
theorem reallocate (h : m.allocator.Inv m.memory live) (hx : x ∈ live) (len : UInt64) :
    (∃ addr m', (Bump.reallocate x.addr len).run m = (.done addr, m') ∧ m.allocator.SameRegion m'.allocator ∧
      m'.allocator.Inv m'.memory (⟨addr, len⟩ :: live.filter (·.addr ≠ x.addr)) ∧
      m.memory.SameOutside (Footprint.program (x.addr.toNat - 8) x.addr.toNat ∪
        Footprint.program m.allocator.cursor.toNat m.allocator.stop.toNat) m'.memory ∧
      ∀ i, i < min x.len.toNat len.toNat →
        m'.memory.read .program (addr + i.toUInt64) = m.memory.read .program (x.addr + i.toUInt64)) ∨
      (Bump.reallocate x.addr len).run m = (.failed (.outOfMemory len), m) := by
  have hhold := h.holds x hx
  have hxstop := hhold.stop_le
  have hspan : x.stop = x.addr.toNat + x.len.toNat := rfl
  have hcursor := m.allocator.cursor.toNat_lt
  -- in place, no byte of the block is written
  have hcontents (memory : Memory)
      (hsame : m.memory.SameOutside (Footprint.program (x.addr.toNat - 8) x.addr.toNat) memory) (i : Nat)
      (hi : i < min x.len.toNat len.toNat) :
      memory.read .program (x.addr + i.toUInt64) = m.memory.read .program (x.addr + i.toUInt64) := by
    have hbyte : (x.addr + i.toUInt64).toNat = x.addr.toNat + i := toNat_add_toUInt64 (by omega)
    exact hsame _ _ fun hin => by
      have : (x.addr + i.toUInt64).toNat < x.addr.toNat := hin.2.2
      omega
  rw [run_reallocate hhold]
  by_cases hlast : x.stop = m.allocator.cursor.toNat
  · rw [if_pos hlast]
    rcases m.allocator.stopOf?_cases x.addr len with ⟨stop, hstop?, hsum, hle⟩ | ⟨hnone, -⟩
    · left
      rw [hstop?]
      have hbelow (y : Block) (hy : y ∈ live) (hne : y.addr ≠ x.addr) : y.stop ≤ x.saved m.memory :=
        h.stop_le_saved_of_last hx hy (Ne.symm hne) hlast
      have hregion : m.allocator.SameRegion { m.allocator with cursor := stop } := ⟨rfl, rfl, rfl⟩
      have hroom := hhold.saved_add_le
      obtain ⟨hinv, hsame⟩ := h.resize hx len hregion hsum.ge hle (fun y hy hne => by
          have := hbelow y hy hne
          show y.stop ≤ stop.toNat
          omega) (Or.inr hbelow)
      exact ⟨x.addr, _, rfl, hregion, hinv, hsame.mono Set.subset_union_left, hcontents _ hsame⟩
    · exact Or.inr (by rw [hnone])
  · rw [if_neg hlast]
    by_cases hshrink : len ≤ x.len
    · left
      rw [if_pos hshrink]
      have hshrink' := UInt64.le_iff_toNat_le.mp hshrink
      obtain ⟨hinv, hsame⟩ := h.resize hx len (SameRegion.refl _) (by omega) h.le_stop
        (fun y hy _ => (h.holds y hy).stop_le) (Or.inl hshrink)
      exact ⟨x.addr, _, rfl, SameRegion.refl _, hinv, hsame.mono Set.subset_union_left, hcontents _ hsame⟩
    · rw [if_neg hshrink]
      rw [UInt64.le_iff_toNat_le, not_le] at hshrink
      rcases h.allocate len with ⟨addr, m₁, hrun, hregion, hinv, habove, hsame⟩ | hrun
      · left
        obtain ⟨hinv, hsame, hmoved⟩ := h.move hx hshrink hinv hregion.stop_eq habove hsame
        exact ⟨addr, { m₁ with memory := m₁.memory.copy addr x.addr x.len.toNat }, by rw [hrun], hregion, hinv,
          hsame.mono Set.subset_union_right, fun i hi => hmoved i (by omega)⟩
      · exact Or.inr (by rw [hrun])

/-- Giving a block back writes nothing, and takes no memory from the blocks that stay in use. -/
theorem free (h : m.allocator.Inv m.memory live) (hx : x ∈ live) :
    ∃ b', (Bump.free x.addr).run m = (.done (), { m with allocator := b' }) ∧ m.allocator.SameRegion b' ∧
      b'.Inv m.memory (live.filter (·.addr ≠ x.addr)) := by
  have hhold := h.holds x hx
  have hmem (y : Block) (hy : y ∈ live.filter (·.addr ≠ x.addr)) : y ∈ live ∧ y.addr ≠ x.addr := by
    simpa using hy
  have hsub : (live.filter (·.addr ≠ x.addr)).Sublist live := List.filter_sublist
  have hoff (y : Block) (_ : y ∈ live.filter (·.addr ≠ x.addr)) :
      Footprint.Avoids ∅ (y.addr.toNat - 16) y.addr.toNat := Footprint.empty_avoids
  rw [run_free hhold]
  by_cases hlast : x.stop = m.allocator.cursor.toNat
  · rw [if_pos hlast]
    have := hhold.saved_add_le
    have := hhold.stop_le
    have := x.addr_le_stop
    have := h.le_stop
    have hbelow (y : Block) (hy : y ∈ live.filter (·.addr ≠ x.addr)) : y.stop ≤ x.saved m.memory := by
      obtain ⟨hy, hne⟩ := hmem y hy
      exact h.stop_le_saved_of_last hx hy (Ne.symm hne) hlast
    exact ⟨_, rfl, ⟨rfl, rfl, rfl⟩, h.keep hsub ⟨rfl, rfl, rfl⟩ hhold.start_le_saved
      (show x.saved m.memory ≤ _ by omega) hbelow (Memory.SameOutside.refl _ _) hoff⟩
  · rw [if_neg hlast]
    exact ⟨_, rfl, SameRegion.refl _, h.keep hsub (SameRegion.refl _) h.start_le h.le_stop
      (fun y hy => (h.holds y (hmem y hy).1).stop_le) (Memory.SameOutside.refl _ _) hoff⟩

end Inv

end Bump

end AddressSanitizer
