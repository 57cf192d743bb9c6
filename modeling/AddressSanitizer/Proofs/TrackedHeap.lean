/-
Heaps with redzones as their shadow map sees them: which shadow bytes a call writes, besides what it does to the blocks in
use. The allocator keeps the contract, does not trap and writes no shadow byte. The map may hold any part of the shadow
bytes, unless it runs past the end of the address space; then it must hold those of all blocks.

- `Setting`: what is assumed of the redzones, the map and the allocator; `setting_of_ofRegion`: a fresh bump allocator.
- `HandsOut`: what is known of a block right after it has been handed out.
- `allocate_tracked`, `reallocate_tracked`, `free_tracked`: how the operations on blocks in use end.
- `Effect`, `act_effect`: what a call does is one of a few effects.
- `run_secured_tracked`: the blocks in use stay secured, by induction on the calls.
-/
import Mathlib.Tactic
import AddressSanitizer.Proofs.HeapRuns

namespace AddressSanitizer

variable {A E : Type}

/-- the map holds the shadow bytes of all blocks that the allocator hands out -/
def ShadowMap.CoversBlocks (s : ShadowMap) (Valid : A → Memory → List Block → Prop) : Prop :=
  ∀ a memory live, Valid a memory live → ∀ x ∈ live, s.Covers x.addr.toNat x.stop

namespace Redzones

variable {r : Redzones} {s : ShadowMap} {Valid : A → Memory → List Block → Prop} {a a' : A} {m m' : Machine A}
  {memory memory' : Memory} {live others : List UserBlock} {x y : UserBlock} {len : UInt64} {size : BlockSize}

/-! ## The setting -/

/-- what is assumed of the redzones, the shadow map and the allocator -/
structure Setting [HeapAllocator A E] (r : Redzones) (s : ShadowMap) (Valid : A → Memory → List Block → Prop) : Prop where
  valid : r.Valid
  contract : HeapAllocator.Contract (A := A) s.bytes Valid
  sound : HeapAllocator.Sound (A := A) (fun _ => True) Valid
  keepsOff : HeapAllocator.KeepsOff (A := A) s.bytes Valid
  writable : s.InSpace ∨ s.CoversBlocks Valid

theorem Secured.covers (h : r.Secured Valid a memory live) (hall : s.CoversBlocks Valid) (hx : x ∈ live) :
    s.Covers (r.start x) (r.stop x) := by
  have hfits := (h.records x hx).toFits
  have hblock := hall _ _ _ h.valid _ (List.mem_map_of_mem hx)
  have haddr : (r.block x).addr.toNat = r.start x := hfits.block_addr
  rwa [haddr, hfits.block_stop] at hblock

section Setting

variable [HeapAllocator A E] (hset : r.Setting s Valid)
include hset

theorem Setting.placed (h : r.Secured Valid a memory live) (hx : x ∈ live) : r.Placed s.bytes x :=
  h.placed hset.contract hset.valid hx

theorem Setting.writable_block (h : r.Secured Valid a memory live) (hx : x ∈ live) :
    s.InSpace ∨ s.Covers (r.start x) (r.stop x) := hset.writable.imp_right fun hall => h.covers hall hx

/-- A change of shadow bytes keeps the blocks in use secured. -/
theorem Setting.secured_of_bytes (h : r.Secured Valid a memory live) (halloc : a' = a)
    (hsame : memory.SameOutside s.bytes memory') : r.Secured Valid a' memory' live := by
  have halike : Machine.Alike s.bytes { allocator := a, memory } { allocator := a', memory := memory' } := ⟨halloc, hsame⟩
  exact h.of_alike hset.contract hset.valid halike

theorem Setting.freed_bytes (h : r.Secured Valid a memory live) (hx : x ∈ live) (memory' : Memory) :
    memory'.SameOutside s.bytes (freed s memory' x) :=
  (freed_cases (hset.placed h hx) (hset.writable_block h hx) memory').1.mono ShadowMap.footprint_subset_bytes

end Setting

/-- A map that holds the shadow bytes of the region of a bump allocator holds those of all its blocks. -/
theorem coversBlocks_of_ofRegion {b : Bump} {start len align : UInt64} (hfresh : Bump.ofRegion start len align = .ok b)
    (hcovers : s.Covers start.toNat (start.toNat + len.toNat)) : s.CoversBlocks (Bump.Account b) := by
  intro a memory live h x hx
  obtain ⟨hstart, hstop, -⟩ := Bump.toNat_of_ofRegion hfresh
  have hin := h.inv.in_region hx
  rw [h.region.start_eq, h.region.stop_eq, hstart, hstop] at hin
  exact hcovers.mono (by omega) hin.2

/-- On a fresh bump allocator all this holds if no shadow byte lies in the region. -/
theorem setting_of_ofRegion {c : Config} {b : Bump} {start len align : UInt64} (hconfig : c.validate = .ok ())
    (halign : 8 ≤ align.toNat) (hfresh : Bump.ofRegion start len align = .ok b)
    (hapart : s.space = .program → ∀ a : Address, start.toNat ≤ a.toNat → a.toNat < start.toNat + len.toNat → ¬s.Backs a)
    (hwritable : s.InSpace ∨ s.Covers start.toNat (start.toNat + len.toNat)) :
    (ofConfig c).Setting s (Bump.Account b) := by
  have hoff : s.bytes.Avoids start.toNat (start.toNat + len.toNat) := fun a h1 h2 ⟨hspace, hbacked⟩ =>
    hapart hspace.symm a h1 h2 hbacked
  obtain ⟨hstart, hstop, -⟩ := Bump.toNat_of_ofRegion hfresh
  have hcontract := Bump.contract_of_ofRegion hfresh halign hoff
  rw [← hstop, ← hstart] at hoff
  exact ⟨valid_of_validate hconfig, hcontract, (Bump.sound b).mono fun _ _ => trivial, Bump.keepsOff b hoff,
    hwritable.imp_right (coversBlocks_of_ofRegion hfresh)⟩

/-! ## The operations -/

/-- What is known of a block right after it has been handed out: from some memory that has the shadow bytes of `memory`, the
shadow map has been updated for it. -/
structure HandsOut (r : Redzones) (s : ShadowMap) (Valid : A → Memory → List Block → Prop) (memory : Memory)
    (m' : Machine A) (x : UserBlock) (others : List UserBlock) : Prop where
  secured : r.Secured Valid m'.allocator m'.memory (x :: others)
  marked : ∃ memory₁, memory.SameAt s.bytes memory₁ ∧ r.Marked s x memory₁ m'.memory

section Operations

variable [HeapAllocator A E] (hset : r.Setting s Valid) (h : r.Secured Valid m.allocator m.memory live)
include hset h

/-- What becomes of asking the allocator for a block: it is handed out, or the allocator has refused. -/
theorem handOut_tracked {ask : Action A E Address} (hsub : ∀ y ∈ others, y ∈ live) (hsize : r.blockSize? len = some size)
    (hask : HeapAllocator.Serves Valid Footprint.blocks ask m (live.map r.block) (others.map r.block)
      fun header => [⟨header, size.total⟩])
    (hsound : (ask.run m).1.Within fun _ => True) (hkept : m.memory.SameAt s.bytes (ask.run m).2.memory) :
    (∃ user m', (r.handOut (some s) ask len size.aligned).run m = (.done user, m') ∧
      r.HandsOut s Valid m.memory m' ⟨user, len⟩ others) ∨
    ∃ e m', (r.handOut (some s) ask len size.aligned).run m = (.failed (.allocator e), m') ∧
      r.Secured Valid m'.allocator m'.memory live ∧ m.memory.SameAt s.bytes m'.memory := by
  rcases hrun : ask.run m with ⟨header | e | t, m₁⟩ <;> rw [hrun] at hsound hkept
  case done =>
    left
    obtain ⟨user, rfl, hsecured, -⟩ := secured_of_ask hset.contract hset.valid h hsub hsize hask hrun
    have hx : (⟨user, len⟩ : UserBlock) ∈ ⟨user, len⟩ :: others := List.mem_cons_self ..
    have hplaced := hset.placed hsecured hx
    obtain ⟨m', hrun', halloc, hmarked⟩ := run_handOut_tracked hset.valid hplaced (blockSize?_eq_some_iff.mp hsize).1
      (hset.writable_block hsecured hx) hrun
    have hword : m₁.memory.SameAt s.bytes (m₁.memory.writeWord (user - r.head) size.aligned) :=
      hplaced.sameAt_writeWord hset.valid m₁.memory size.aligned
    refine ⟨user, m', hrun', ?_, _, hkept.trans hword, hmarked⟩
    exact hset.secured_of_bytes hsecured halloc (hmarked.frame.mono ShadowMap.footprint_subset_bytes)
  case failed =>
    right
    obtain ⟨hvalid, hsame⟩ := hask.refused _ _ hrun (by exact nofun)
    refine ⟨e, m₁, ?_, (h.of_sameAt hset.valid (fun _ => id) hvalid hsame).1, hkept⟩
    rw [run_handOut, hrun]
  case trapped => exact hsound.elim

/-- An allocation hands out a new block, or leaves the blocks in use and the shadow bytes as they are. -/
theorem allocate_tracked (len : UInt64) :
    (∃ user m', (r.allocate (some s) len).run m = (.done user, m') ∧
      r.HandsOut s Valid m.memory m' ⟨user, len⟩ live) ∨
    ∃ e m', (r.allocate (some s) len).run m = (.failed e, m') ∧ r.Secured Valid m'.allocator m'.memory live ∧
      m.memory.SameAt s.bytes m'.memory := by
  rw [run_allocate]
  cases hsize : r.blockSize? len with
  | none => exact Or.inr ⟨_, _, rfl, h, Memory.SameOutside.refl _ _⟩
  | some size =>
    exact (handOut_tracked (m := { m with log := m.log.push (.alloc len) }) hset h (fun _ => id) hsize
      (hset.contract.allocate _ h.valid) (hset.sound.allocate _ h.valid) (hset.keepsOff.allocate _ h.valid)).imp id
      fun ⟨e, m', hrun, hsecured, hsame⟩ => ⟨_, m', hrun, hsecured, hsame⟩

/-- A block in use is handed out anew, after its old bytes have been marked freed. If the allocator refuses, they stay
so; if the new length is one that no block can have, nothing changes. -/
theorem reallocate_tracked (hx : x ∈ live) (len : UInt64) :
    (∃ user m', (r.reallocate (some s) x.user len).run m = (.done user, m') ∧
      r.HandsOut s Valid (freed s m.memory x) m' ⟨user, len⟩ (live.filter (·.user ≠ x.user))) ∨
    (∃ e m', (r.reallocate (some s) x.user len).run m = (.failed (.allocator e), m') ∧
      r.Secured Valid m'.allocator m'.memory live ∧ (freed s m.memory x).SameAt s.bytes m'.memory) ∨
    ∃ m', (r.reallocate (some s) x.user len).run m = (.failed (.sizeOverflow len), m') ∧
      r.Secured Valid m'.allocator m'.memory live ∧ m.memory.SameAt s.bytes m'.memory := by
  have hplaced := hset.placed h hx
  cases hsize : r.blockSize? len with
  | none =>
    refine Or.inr (Or.inr ⟨{ m with log := m.log.push (.realloc x.user len) }, ?_, h, Memory.SameOutside.refl _ _⟩)
    rw [run_reallocate (hplaced.user_ne_zero hset.valid) hplaced.headerOf?_user, hsize]
  | some size =>
    obtain ⟨m₁, hmemory₁, halloc₁, hrun₁⟩ := run_reallocate_tracked (s := s) hset.valid hplaced (h.records x hx) hsize
    have h₁ : r.Secured Valid m₁.allocator m₁.memory live :=
      hset.secured_of_bytes h halloc₁ (hmemory₁ ▸ hset.freed_bytes h hx m.memory)
    rw [hrun₁, ← hmemory₁]
    exact (handOut_tracked hset h₁ (fun _ hy => (List.mem_filter.mp hy).1) hsize
      (serves_ask hset.contract h₁ hx size.total m₁.log) (hset.sound.reallocate _ h₁.valid (List.mem_map_of_mem hx))
      (hset.keepsOff.reallocate _ h₁.valid (List.mem_map_of_mem hx))).imp id Or.inl

/-- A block in use is given back, and then its bytes are marked freed; or the allocator has not taken it. -/
theorem free_tracked (hx : x ∈ live) :
    (∃ m' memory₁, (r.free (some s) x.user).run m = (.done (), m') ∧
      r.Secured Valid m'.allocator m'.memory (live.filter (·.user ≠ x.user)) ∧ m.memory.SameAt s.bytes memory₁ ∧
      m'.memory = freed s memory₁ x) ∨
    ∃ e m', (r.free (some s) x.user).run m = (.failed e, m') ∧ r.Secured Valid m'.allocator m'.memory live ∧
      m.memory.SameAt s.bytes m'.memory := by
  have hplaced := hset.placed h hx
  have hserves := serves_take hset.contract hset.valid h hx (m.log.push (.free x.user))
  have hsound := hset.sound.free (m := { m with log := m.log.push (.free x.user) }) h.valid (List.mem_map_of_mem hx)
  have hkept := hset.keepsOff.free (m := { m with log := m.log.push (.free x.user) }) h.valid (List.mem_map_of_mem hx)
  rcases hask : (HeapAllocator.free (r.block x).addr : Action A E Unit).run { m with log := m.log.push (.free x.user) }
    with ⟨_ | e | t, m₁⟩ <;> rw [hask] at hsound hkept
  case done =>
    left
    obtain ⟨m', hrun, hmemory, halloc⟩ := run_free_tracked (s := s) hset.valid hplaced (h.records x hx) hask
    obtain ⟨hsecured, -⟩ := hserves.done _ _ hask
    exact ⟨m', m₁.memory, hrun, hset.secured_of_bytes hsecured halloc (hmemory ▸ hset.freed_bytes h hx m₁.memory), hkept,
      hmemory⟩
  case failed =>
    right
    obtain ⟨hsecured, -⟩ := hserves.refused _ _ hask (by exact nofun)
    refine ⟨.allocator e, m₁, ?_, hsecured, hkept⟩
    rw [run_free (hplaced.user_ne_zero hset.valid) hplaced.headerOf?_user, hask]
  case trapped => exact hsound.elim

end Operations

end Redzones

/-! ## What a call can do -/

namespace HeapCall

/-- the block that the call has handed out -/
def newBlock? : HeapCall → Outcome (HeapError E) (Option Address) → Option UserBlock
  | allocate len, .done (some user) | reallocate _ len, .done (some user) => some ⟨user, len⟩
  | _, _ => none

/-- the address of the block that the allocator has refused to resize -/
def refused? : HeapCall → Outcome (HeapError E) (Option Address) → Option Address
  | reallocate user _, .failed (.allocator _) => some user
  | _, _ => none

end HeapCall

namespace RedzoneHeap

variable {r : Redzones} {s : ShadowMap} {Valid : A → Memory → List Block → Prop} {h : RedzoneHeap A E}
  {x : UserBlock} {call : HeapCall} {ended : Outcome (HeapError E) (Option Address) × Machine A}

/-- What a call can have done that has `ended` so, with its answer and the machine it has left. -/
inductive Effect (r : Redzones) (s : ShadowMap) (Valid : A → Memory → List Block → Prop) (h : RedzoneHeap A E)
    (call : HeapCall) (ended : Outcome (HeapError E) (Option Address) × Machine A) : Prop where
  /-- no block is handed out or taken away, and no shadow byte is written -/
  | quiet (live_eq : call.liveAfter h.live ended.1 = h.live) (new_eq : call.newBlock? ended.1 = none)
    (secured : r.Secured Valid ended.2.allocator ended.2.memory h.live)
    (bytes : h.machine.memory.SameAt s.bytes ended.2.memory)
  | allocated {x : UserBlock} (live_eq : call.liveAfter h.live ended.1 = x :: h.live)
    (new_eq : call.newBlock? ended.1 = some x) (handsOut : r.HandsOut s Valid h.machine.memory ended.2 x h.live)
  | resized {x y : UserBlock} (mem : x ∈ h.live)
    (live_eq : call.liveAfter h.live ended.1 = y :: h.live.filter (·.user ≠ x.user))
    (new_eq : call.newBlock? ended.1 = some y)
    (handsOut : r.HandsOut s Valid (Redzones.freed s h.machine.memory x) ended.2 y (h.live.filter (·.user ≠ x.user)))
  /-- the allocator has refused to resize a block, which has been marked freed -/
  | refused {x : UserBlock} (mem : x ∈ h.live) (live_eq : call.liveAfter h.live ended.1 = h.live)
    (new_eq : call.newBlock? ended.1 = none) (refused_eq : call.refused? ended.1 = some x.user)
    (secured : r.Secured Valid ended.2.allocator ended.2.memory h.live)
    (bytes : (Redzones.freed s h.machine.memory x).SameAt s.bytes ended.2.memory)
  | freed {x : UserBlock} {memory₁ : Memory} (mem : x ∈ h.live)
    (live_eq : call.liveAfter h.live ended.1 = h.live.filter (·.user ≠ x.user)) (new_eq : call.newBlock? ended.1 = none)
    (secured : r.Secured Valid ended.2.allocator ended.2.memory (h.live.filter (·.user ≠ x.user)))
    (bytes : h.machine.memory.SameAt s.bytes memory₁) (memory_eq : ended.2.memory = Redzones.freed s memory₁ x)

theorem Effect.secured (he : Effect r s Valid h call ended) :
    r.Secured Valid ended.2.allocator ended.2.memory (call.liveAfter h.live ended.1) := by
  cases he with
  | quiet hlive _ hsecured _ => rwa [hlive]
  | allocated hlive _ hout =>
    rw [hlive]
    exact hout.secured
  | resized _ hlive _ hout =>
    rw [hlive]
    exact hout.secured
  | refused _ hlive _ _ hsecured _ => rwa [hlive]
  | freed _ hlive _ hsecured _ _ => rwa [hlive]

section Effects

variable [HeapAllocator A E] (hset : r.Setting s Valid) (hsecured : h.Secured r Valid)
include hset hsecured

theorem allocate_effect (len : UInt64) :
    Effect r s Valid h (.allocate len) (((HeapCall.allocate len).act r (some s)).run h.machine) := by
  simp only [HeapCall.act, Action.run_bind]
  rcases Redzones.allocate_tracked hset hsecured len with ⟨user, m', hrun, hout⟩ | ⟨e, m', hrun, hsecured', hsame⟩ <;>
    rw [hrun]
  · exact .allocated rfl rfl hout
  · exact .quiet rfl rfl hsecured' hsame

theorem reallocate_zero_effect (len : UInt64) :
    Effect r s Valid h (.reallocate 0 len) (((HeapCall.reallocate 0 len).act r (some s)).run h.machine) := by
  have hzero := filter_zero hset.contract hset.valid hsecured
  simp only [HeapCall.act, Action.run_bind, Redzones.run_reallocate_zero]
  have htracked := Redzones.allocate_tracked (m := { h.machine with log := h.machine.log.push (.realloc 0 len) })
    hset hsecured len
  rcases htracked with ⟨user, m', hrun, hout⟩ | ⟨e, m', hrun, hsecured', hsame⟩ <;> rw [hrun]
  · have hlive : (⟨user, len⟩ : UserBlock) :: h.live.filter (·.user ≠ 0) = ⟨user, len⟩ :: h.live := by rw [hzero]
    exact .allocated hlive rfl hout
  · exact .quiet rfl rfl hsecured' hsame

theorem reallocate_effect (hx : x ∈ h.live) (len : UInt64) :
    Effect r s Valid h (.reallocate x.user len) (((HeapCall.reallocate x.user len).act r (some s)).run h.machine) := by
  simp only [HeapCall.act, Action.run_bind]
  rcases Redzones.reallocate_tracked hset hsecured hx len with
    ⟨user, m', hrun, hout⟩ | ⟨e, m', hrun, hsecured', hsame⟩ | ⟨m', hrun, hsecured', hsame⟩ <;> rw [hrun]
  · exact .resized hx rfl rfl hout
  · exact .refused hx rfl rfl rfl hsecured' hsame
  · exact .quiet rfl rfl hsecured' hsame

theorem free_zero_effect :
    Effect r s Valid h (.free 0) (((HeapCall.free 0).act r (some s)).run h.machine) := by
  simp only [HeapCall.act, Action.run_bind, Redzones.run_free_zero]
  exact .quiet (filter_zero hset.contract hset.valid hsecured) rfl hsecured (Memory.SameOutside.refl _ _)

theorem free_effect (hx : x ∈ h.live) :
    Effect r s Valid h (.free x.user) (((HeapCall.free x.user).act r (some s)).run h.machine) := by
  simp only [HeapCall.act, Action.run_bind]
  rcases Redzones.free_tracked hset hsecured hx with
    ⟨m', memory₁, hrun, hsecured', hsame, hmemory⟩ | ⟨e, m', hrun, hsecured', hsame⟩ <;> rw [hrun]
  · exact .freed hx rfl rfl hsecured' hsame hmemory
  · exact .quiet rfl rfl hsecured' hsame

/-- A block has no shadow byte in it, so storing into it writes none. -/
theorem store_effect (hx : x ∈ h.live) {addr : Address} {bytes : List UInt8}
    (hin : (HeapCall.store addr bytes).Concerns x) :
    Effect r s Valid h (.store addr bytes) (((HeapCall.store addr bytes).act r (some s)).run h.machine) := by
  have hallowed : (HeapCall.store addr bytes).Allowed h.live := Or.inr ⟨x, hx, hin⟩
  have hstored := (store_preserved hset.contract hset.valid hsecured hx hin).secured
  rw [step_of_allowed hallowed] at hstored
  obtain ⟨hlo, hhi⟩ : x.user.toNat ≤ addr.toNat ∧ addr.toNat + bytes.length ≤ x.user.toNat + x.len.toNat := hin
  have hplaced := hset.placed hsecured hx
  have hspan := hplaced.spans hset.valid
  have hlt := hplaced.stop_lt
  exact .quiet rfl rfl hstored
    ((Memory.sameOutside_writeBytes (by omega)).sameAt_of_avoids (hplaced.avoids.mono (by omega) (by omega)))

/-- Every call that the program has a right to has one of the effects. -/
theorem act_effect (hallowed : call.Allowed h.live) :
    Effect r s Valid h call ((call.act r (some s)).run h.machine) := by
  cases call with
  | allocate len => exact allocate_effect hset hsecured len
  | reallocate user len =>
    rcases hallowed with rfl | ⟨x, hx, rfl⟩
    · exact reallocate_zero_effect hset hsecured len
    · exact reallocate_effect hset hsecured hx len
  | free user =>
    rcases hallowed with rfl | ⟨x, hx, rfl⟩
    · exact free_zero_effect hset hsecured
    · exact free_effect hset hsecured hx
  | store addr bytes =>
    obtain ⟨x, hx, hin⟩ := hallowed.resolve_left id
    exact store_effect hset hsecured hx hin

/-! ## Runs -/

theorem step_secured_tracked (call : HeapCall) : (h.step r (some s) call).Secured r Valid := by
  by_cases hallowed : call.Allowed h.live
  · rw [step_of_allowed hallowed]
    exact (act_effect hset hsecured hallowed).secured
  · rw [step, if_neg hallowed]
    exact hsecured

theorem run_secured_tracked (calls : List HeapCall) : (h.run r (some s) calls).Secured r Valid := by
  induction calls generalizing h with
  | nil => exact hsecured
  | cons call calls ih => exact ih (step_secured_tracked hset hsecured call)

end Effects

end RedzoneHeap

end AddressSanitizer
