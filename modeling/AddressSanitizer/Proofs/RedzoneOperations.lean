/-
The operations on blocks with redzones, as they run: what is left to the allocator, and what is done before and after it is
asked. The equations hold for any allocator, with a shadow map and without one.

- `handOut`: asks the allocator for a block and lays it out, which is what allocating and resizing have in common.
- `run_allocate`, `run_reallocate`, `run_free`: each operation as a question to the allocator, and what comes around it.
- `freed`: memory after a block has been marked freed; `freed_cases`: what has changed, if the map holds the block or not.
- `run_reallocate_tracked`, `run_free_tracked`: resizing a block, or giving it back, comes with marking it freed.
-/
import Mathlib.Tactic
import AddressSanitizer.Proofs.RedzoneBlocks

namespace AddressSanitizer.Redzones

variable {A E ε : Type} {r : Redzones} {s : ShadowMap} {shadow F : Footprint} {m m₁ : Machine A} {memory memory' : Memory}
  {live : List UserBlock} {x y : UserBlock} {len aligned : UInt64} {size : BlockSize}

/-! ## The allocator's blocks and the users' -/

/-- what is recorded about a user's block -/
structure Records (r : Redzones) (memory : Memory) (x : UserBlock) : Prop extends r.Fits x where
  recorded : (memory.readWord (x.user - r.head)).toNat = roundUp x.len.toNat

theorem Records.frame (h : r.Records memory x) (hsame : memory.SameOutside F memory')
    (hoff : F.Avoids (r.start x) (r.start x + 8)) (hfit : r.start x + 8 ≤ 2 ^ 64) : r.Records memory' x := by
  have haddr := h.block_addr
  refine ⟨h.toFits, ?_⟩
  rw [hsame.readWord_eq (by omega) (by rwa [haddr])]
  exact h.recorded

/-- where a block may lie: at a multiple of eight, inside the address space and apart from the shadow bytes -/
structure Placed (r : Redzones) (shadow : Footprint) (x : UserBlock) : Prop extends r.Fits x where
  user_mod : x.user.toNat % 8 = 0
  stop_lt : r.stop x < 2 ^ 64
  avoids : shadow.Avoids (r.start x) (r.stop x)

theorem Placed.user_ne_zero (h : r.Placed shadow x) (hr : r.Valid) : x.user ≠ 0 := by
  intro hzero
  have hhead := h.head_le
  have hle_head := hr.le_head
  have h0 : (0 : UInt64).toNat = 0 := rfl
  rw [hzero] at hhead
  omega

/-- The allocator's new block, seen as a user's block. -/
theorem exists_block (hsize : r.blockSize? len = some size) (header : Address)
    (hlt : header.toNat + size.total.toNat < 2 ^ 64) :
    ∃ user, user - r.head = header ∧ r.Fits ⟨user, len⟩ ∧ r.block ⟨user, len⟩ = ⟨header, size.total⟩ := by
  obtain ⟨-, htotal⟩ := blockSize?_eq_some_iff.mp hsize
  have hspan : r.total len = roundUp len.toNat + r.head.toNat + r.tail.toNat := rfl
  have huser : (header + r.head).toNat = header.toNat + r.head.toNat := toNat_add_of_lt (by omega)
  have hsub : header + r.head - r.head = header := UInt64.add_sub_cancel _ _
  refine ⟨header + r.head, hsub, ⟨?_, ?_⟩, ?_⟩
  · show r.head.toNat ≤ (header + r.head).toNat
    omega
  · show r.total len < 2 ^ 64
    have := size.total.toNat_lt
    omega
  · rw [block, hsub, ← htotal]
    exact congrArg (Block.mk header) UInt64.ofNat_toNat

theorem block_addr_inj : (r.block x).addr = (r.block y).addr ↔ x.user = y.user := UInt64.sub_left_inj _

/-- the allocator's blocks of all users' blocks but one -/
theorem map_block_filter (x : UserBlock) :
    (live.filter (·.user ≠ x.user)).map r.block = (live.map r.block).filter (·.addr ≠ (r.block x).addr) := by
  simp only [List.filter_map, Function.comp_def, ne_eq, block_addr_inj]

/-! ## Handing out a block -/

/-- asks the allocator for a block and lays it out -/
def handOut (r : Redzones) (shadow? : Option ShadowMap) (ask : Action A E Address) (len aligned : UInt64) :
    Action A (HeapError E) Address := do
  let header ← ask.mapError .allocator
  r.layOut shadow? header len aligned

/-- A block that the allocator hands out is laid out; if the allocator refuses, nothing more is done. -/
theorem run_handOut (r : Redzones) (shadow? : Option ShadowMap) (ask : Action A E Address) (len aligned : UInt64)
    (m : Machine A) :
    (r.handOut shadow? ask len aligned).run m =
      match ask.run m with
      | (.done header, m₁) => (r.layOut shadow? header len aligned).run m₁
      | (.failed e, m₁) => (.failed (.allocator e), m₁)
      | (.trapped t, m₁) => (.trapped t, m₁) := by
  rw [handOut, Action.run_mapError_bind]
  rcases ask.run m with ⟨_ | _ | _, m₁⟩ <;> rfl

/-- Without a shadow map, recording the length of the block that the allocator has handed out is all there is to do. -/
theorem run_handOut_none (hx : r.Fits x) {ask : Action A E Address} (hask : ask.run m = (.done (x.user - r.head), m₁)) :
    (r.handOut none ask x.len aligned).run m = (.done x.user, { m₁ with
      memory := m₁.memory.writeWord (x.user - r.head) aligned
      log := m₁.log.push (.allocated (x.user - r.head) x.user aligned) }) := by
  rw [run_handOut, hask]
  simp only [layOut, hx.userOf?_header, Action.run_bind, Action.run_modifyMemory, Action.run_orTrap_some, Action.run_emit]
  rfl

/-- The block that the allocator has handed out is laid out, whatever becomes of its shadow bytes. -/
theorem run_handOut_tracked (hr : r.Valid) (hx : r.Placed shadow x) (haligned : aligned.toNat = roundUp x.len.toNat)
    (hwritable : s.InSpace ∨ s.Covers (r.start x) (r.stop x)) {ask : Action A E Address}
    (hask : ask.run m = (.done (x.user - r.head), m₁)) :
    ∃ m' : Machine A, (r.handOut (some s) ask x.len aligned).run m = (.done x.user, m') ∧
      m'.allocator = m₁.allocator ∧ r.Marked s x (m₁.memory.writeWord (x.user - r.head) aligned) m'.memory := by
  obtain ⟨m', hrun, halloc, hmarked⟩ := run_layOut (ε := HeapError E) hx.toFits hx.user_mod hx.stop_lt hr haligned
    hwritable m₁
  refine ⟨m', ?_, halloc, hmarked⟩
  rw [run_handOut, hask]
  exact hrun

section Operations

variable [HeapAllocator A E]

/-- An allocation comes to asking the allocator for a block, unless there is none that long. -/
theorem run_allocate (r : Redzones) (shadow? : Option ShadowMap) (len : UInt64) (m : Machine A) :
    (r.allocate shadow? len).run m =
      match r.blockSize? len with
      | none => (.failed (.sizeOverflow len), { m with log := m.log.push (.alloc len) })
      | some size => (r.handOut shadow? (HeapAllocator.allocate size.total) len size.aligned).run
          { m with log := m.log.push (.alloc len) } := by
  simp only [allocate, Action.run_bind, Action.run_emit, blockSize]
  cases r.blockSize? len <;> rfl

/-- For address zero, resizing is an allocation. -/
theorem run_reallocate_zero (r : Redzones) (shadow? : Option ShadowMap) (len : UInt64) (m : Machine A) :
    (r.reallocate shadow? 0 len).run m =
      (r.allocate shadow? len).run { m with log := m.log.push (.realloc 0 len) } := rfl

/-- For address zero, there is nothing to give back. -/
theorem run_free_zero (r : Redzones) (shadow? : Option ShadowMap) (m : Machine A) :
    (r.free shadow? 0).run m = (.done (), { m with log := m.log.push (.free 0) }) := rfl

variable {user header : Address} (hzero : user ≠ 0) (hheader : r.headerOf? user = some header)
include hzero hheader

/-- Resizing a block comes to marking it freed and asking the allocator for a block of another length in its place, unless
there is no block that long. -/
theorem run_reallocate (shadow? : Option ShadowMap) (len : UInt64) (m : Machine A) :
    (r.reallocate shadow? user len).run m =
      match r.blockSize? len with
      | none => (.failed (.sizeOverflow len), { m with log := m.log.push (.realloc user len) })
      | some size =>
        (track shadow? (·.poison user (alignedSize m.memory header) .heapFreed) (.reallocUntracked user) >>=
          fun _ => r.handOut shadow? (HeapAllocator.reallocate header size.total) len size.aligned).run
            { m with log := m.log.push (.realloc user len) } := by
  simp only [reallocate, Action.run_bind, Action.run_emit, if_neg hzero, hheader, Action.run_require_some, blockSize]
  cases r.blockSize? len <;> rfl

theorem run_reallocate_none (len : UInt64) (m : Machine A) :
    (r.reallocate none user len).run m =
      match r.blockSize? len with
      | none => (.failed (.sizeOverflow len), { m with log := m.log.push (.realloc user len) })
      | some size => (r.handOut none (HeapAllocator.reallocate header size.total) len size.aligned).run
          { m with log := m.log.push (.realloc user len) } := by
  rw [run_reallocate hzero hheader]
  cases r.blockSize? len <;> rfl

/-- A block that is given back is marked freed once the allocator has taken it. -/
theorem run_free (shadow? : Option ShadowMap) (m : Machine A) :
    (r.free shadow? user).run m =
      match (HeapAllocator.free header : Action A E Unit).run { m with log := m.log.push (.free user) } with
      | (.done _, m₁) =>
        (track shadow? (·.poison user (alignedSize m.memory header) .heapFreed) (.freeUntracked user)).run m₁
      | (.failed e, m₁) => (.failed (.allocator e), m₁)
      | (.trapped t, m₁) => (.trapped t, m₁) := by
  simp only [free, Action.run_bind, Action.run_emit, ne_eq, hzero, not_false_eq_true, if_true, hheader,
    Action.run_require_some]
  show ((HeapAllocator.free header : Action A E Unit).mapError HeapError.allocator >>= fun _ =>
    track shadow? (·.poison user (alignedSize m.memory header) .heapFreed) (.freeUntracked user)).run _ = _
  rw [Action.run_mapError_bind]
  rcases (HeapAllocator.free header : Action A E Unit).run _ with ⟨_ | _ | _, m₁⟩ <;> rfl

end Operations

/-! ## Marking a block freed -/

/-- memory after the granules of a user's block have been marked freed, if the map holds them all -/
def freed (s : ShadowMap) (memory : Memory) (x : UserBlock) : Memory :=
  match s.writeGranules x.user (roundUp x.len.toNat).toUInt64 Tag.heapFreed.byte memory with
  | .ok memory' => memory'
  | .error _ => memory

theorem toNat_roundUp_len (hfits : r.Fits x) : (roundUp x.len.toNat).toUInt64.toNat = roundUp x.len.toNat := by
  have htotal := hfits.total_lt
  rw [total] at htotal
  exact UInt64.toNat_ofNat_of_lt' (show roundUp x.len.toNat < 2 ^ 64 by omega)

theorem run_track_freed (hx : r.Placed shadow x) (haligned : aligned.toNat = roundUp x.len.toNat)
    (untracked : ShadowError → Event) (m : Machine A) :
    ∃ m' : Machine A, (track (some s) (·.poison x.user aligned .heapFreed) untracked : Action A ε Unit).run m =
      (.done (), m') ∧ m'.memory = freed s m.memory x ∧ m'.allocator = m.allocator := by
  have hsame : (roundUp x.len.toNat).toUInt64 = aligned := by
    rw [← UInt64.toNat_inj, toNat_roundUp_len hx.toFits, haligned]
  have hmod := roundUp_mod x.len.toNat
  rw [run_track, ShadowMap.run_poison hx.user_mod (by omega), freed, hsame]
  cases s.writeGranules x.user aligned Tag.heapFreed.byte m.memory with
  | ok memory => exact ⟨_, rfl, rfl, rfl⟩
  | error e => exact ⟨_, rfl, rfl, rfl⟩

theorem freed_cases (hx : r.Placed shadow x) (hwritable : s.InSpace ∨ s.Covers (r.start x) (r.stop x)) (memory : Memory) :
    memory.SameOutside (s.footprint x.user.toNat (x.user.toNat + roundUp x.len.toNat)) (freed s memory x) ∧
    (s.Covers x.user.toNat (x.user.toNat + roundUp x.len.toNat) → ∀ a : Address, x.user.toNat ≤ a.toNat →
      a.toNat < x.user.toNat + roundUp x.len.toNat → s.byteAt (freed s memory x) a = Tag.heapFreed.byte) ∧
    (¬s.Covers x.user.toNat (x.user.toNat + roundUp x.len.toNat) → freed s memory x = memory) := by
  have hlen := toNat_roundUp_len hx.toFits
  have hmod := roundUp_mod x.len.toNat
  have hstart := hx.start_add
  have hstop_lt := hx.stop_lt
  have hspan : r.stop x = x.user.toNat + roundUp x.len.toNat + r.tail.toNat := rfl
  by_cases h : s.Covers x.user.toNat (x.user.toNat + roundUp x.len.toNat)
  · obtain ⟨memory', hw, hsame, hbyte⟩ := ShadowMap.writeGranules_of_covers (m := memory)
      (roundUp x.len.toNat).toUInt64 Tag.heapFreed.byte hx.user_mod (by omega) (by omega) (by rwa [hlen])
    rw [hlen] at hsame hbyte
    simp only [freed, hw]
    exact ⟨hsame, fun _ => hbyte, fun hnot => absurd h hnot⟩
  · have hspace := hwritable.resolve_right fun hall => h (hall.mono (by omega) (by omega))
    obtain ⟨e, he, -⟩ := ShadowMap.writeGranules_of_not_covers (m := memory)
      (roundUp x.len.toNat).toUInt64 Tag.heapFreed.byte hspace hx.user_mod (by omega) (fun _ => by rwa [hlen])
    simp only [freed, he]
    exact ⟨Memory.SameOutside.refl _ _, fun hall => absurd hall h, fun _ => trivial⟩

section Operations

variable [HeapAllocator A E] (hr : r.Valid) (hx : r.Placed shadow x) (hrecords : r.Records m.memory x)
include hr hx hrecords

/-- Resizing a block in use comes to asking the allocator once the block is marked freed. -/
theorem run_reallocate_tracked (hsize : r.blockSize? len = some size) :
    ∃ m₁ : Machine A, m₁.memory = freed s m.memory x ∧ m₁.allocator = m.allocator ∧
      (r.reallocate (some s) x.user len).run m =
        (r.handOut (some s) (HeapAllocator.reallocate (r.block x).addr size.total) len size.aligned).run m₁ := by
  obtain ⟨m₁, hrun₁, hmemory₁, halloc₁⟩ := run_track_freed (ε := HeapError E) (s := s) hx hrecords.recorded
    (.reallocUntracked x.user) { m with log := m.log.push (.realloc x.user len) }
  refine ⟨m₁, hmemory₁, halloc₁, ?_⟩
  rw [run_reallocate (hx.user_ne_zero hr) hx.headerOf?_user, hsize]
  exact Action.run_bind_of_done hrun₁

/-- A block that the allocator has taken back is marked freed. -/
theorem run_free_tracked (hask : (HeapAllocator.free (r.block x).addr : Action A E Unit).run
      { m with log := m.log.push (.free x.user) } = (.done (), m₁)) :
    ∃ m' : Machine A, (r.free (some s) x.user).run m = (.done (), m') ∧ m'.memory = freed s m₁.memory x ∧
      m'.allocator = m₁.allocator := by
  obtain ⟨m', hrun, hmemory, halloc⟩ := run_track_freed (ε := HeapError E) (s := s) hx hrecords.recorded
    (.freeUntracked x.user) m₁
  refine ⟨m', ?_, hmemory, halloc⟩
  rw [run_free (hx.user_ne_zero hr) hx.headerOf?_user, hask]
  exact hrun

end Operations

end AddressSanitizer.Redzones
