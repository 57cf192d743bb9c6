/-
Redzones over any allocator that keeps the contract. `Secured` ties the blocks that a program holds to those of the
allocator: each lies in one, whose first word records the user's length in whole granules. The operations are looked at
without a shadow map first; then with one, where every step ends the same way and differs in shadow bytes only.

- `serves_allocate`, `serves_reallocate`, `serves_free`: without a shadow map, what the owners of blocks get.
- `read_of_reallocate`: a block that is resized keeps the user's bytes, as far as they fit.
- `marks_confined`, `mirrors_track`: the updates of a shadow map neither trap nor reach anything but its own bytes.
- `mirrors_allocate`, `mirrors_reallocate`, `mirrors_free`: with a shadow map the operations mirror those without one.
-/
import Mathlib.Tactic
import AddressSanitizer.Proofs.AllocatorContract
import AddressSanitizer.Proofs.RedzoneOperations

namespace AddressSanitizer

/-- the bytes that users may access in their blocks -/
def Footprint.users (live : List UserBlock) : Footprint :=
  {p | ∃ x ∈ live, p ∈ Footprint.program x.user.toNat (x.user.toNat + x.len.toNat)}

/-- A change that keeps the bytes of a range keeps a word in it. -/
theorem Footprint.compl_avoids {F : Footprint} {lo hi : Nat} (h : Footprint.program lo hi ⊆ F) : Fᶜ.Avoids lo hi :=
  fun _ h1 h2 hnot => hnot (h ⟨rfl, h1, h2⟩)

namespace ShadowMap

variable {A : Type} {s : ShadowMap} {start len : UInt64}

/-- An update of the map that consists of whole granules may be refused, and that is all that can go wrong. -/
theorem poison_confined (hstart : start.toNat % 8 = 0) (hlen : len.toNat % 8 = 0) (tag : Tag) (m : Machine A) :
    (s.poison start len tag).Confined s.cells m := by
  refine .bind (.emit _) fun _ m₁ _ => .bind (.assert ?_ _) fun _ m₂ _ =>
    .updateMemory fun _ _ => sameOutside_of_writeGranules
  exact ⟨aligned_iff.mpr hstart, aligned_iff.mpr hlen⟩

theorem unpoison_confined (hstart : start.toNat % 8 = 0) (len : UInt64) (m : Machine A) :
    (s.unpoison start len).Confined s.cells m := by
  refine .bind (.emit _) fun _ m₁ _ => .bind (.assert (aligned_iff.mpr hstart) _) fun _ m₂ _ =>
    .bind (.updateMemory fun _ _ => sameOutside_of_writeGranules) fun _ m₃ _ => ?_
  split
  · exact .bind (.require _ _) fun _ m₄ _ => .updateMemory fun _ _ => sameOutside_of_write
  · exact .pure _

end ShadowMap

namespace Redzones

variable {A E ε : Type} {r : Redzones} {s : ShadowMap} {shadow : Footprint} {Valid : A → Memory → List Block → Prop}
  {a a' : A} {m m' : Machine A} {memory memory' : Memory} {live others : List UserBlock} {x y : UserBlock}
  {len aligned : UInt64} {size : BlockSize}

/-! ## Blocks in use -/

/-- The allocator's blocks are those that the user's blocks lie in, and each records the length of its user's block. -/
structure Secured (r : Redzones) (Valid : A → Memory → List Block → Prop) (a : A) (memory : Memory)
    (live : List UserBlock) : Prop where
  valid : Valid a memory (live.map r.block)
  records : ∀ x ∈ live, r.Records memory x

theorem Fits.header_add (h : r.Fits x) {i : Nat} (hlt : x.user.toNat + i < 2 ^ 64) :
    x.user - r.head + (r.head.toNat + i).toUInt64 = x.user + i.toUInt64 := by
  have haddr := h.block_addr
  have hstart := h.start_add
  rw [← UInt64.toNat_inj, toNat_add_toUInt64 (by omega), toNat_add_toUInt64 hlt]
  omega

/-- the part of a block from its start on that holds the redzone in front, the user's bytes and the redzone behind -/
theorem Fits.spans (h : r.Fits x) (hr : r.Valid) :
    r.start x + 8 ≤ x.user.toNat ∧ x.user.toNat + x.len.toNat ≤ r.stop x := by
  have hstart := h.start_add
  have hle_head := hr.le_head
  have hround := le_roundUp x.len.toNat
  have hstop : r.stop x = x.user.toNat + roundUp x.len.toNat + r.tail.toNat := rfl
  omega

/-- The first word of a block, which records the length, is none of the shadow bytes. -/
theorem Placed.sameAt_writeWord (h : r.Placed shadow x) (hr : r.Valid) (memory : Memory) (aligned : UInt64) :
    memory.SameAt shadow (memory.writeWord (x.user - r.head) aligned) := by
  have haddr := h.block_addr
  have hspan := h.spans hr
  have huser := x.user.toNat_lt
  exact (Memory.sameOutside_writeWord (by omega) _).sameAt_of_avoids (h.avoids.mono haddr.ge (by omega))

theorem Fits.program_subset_blocks (h : r.Fits x) (hx : x ∈ live) {lo hi : Nat} (hlo : r.start x ≤ lo)
    (hhi : hi ≤ r.stop x) : Footprint.program lo hi ⊆ Footprint.blocks (live.map r.block) := by
  have haddr : (r.block x).addr.toNat = r.start x := h.block_addr
  exact Block.program_subset_blocks (List.mem_map_of_mem hx) (by omega) (by rw [h.block_stop]; omega)

theorem users_subset_blocks (hr : r.Valid) (hfits : ∀ x ∈ live, r.Fits x) :
    Footprint.users live ⊆ Footprint.blocks (live.map r.block) := by
  rintro p ⟨x, hx, hp⟩
  obtain ⟨h1, h2⟩ := (hfits x hx).spans hr
  exact (hfits x hx).program_subset_blocks hx (by omega) h2 hp

/-- The recorded length of a block survives a change that keeps the bytes of the allocator's blocks. -/
theorem Records.of_sameAt (h : r.Records memory x) (hr : r.Valid) (hx : x ∈ live)
    (hsame : memory.SameAt (Footprint.blocks (live.map r.block)) memory') : r.Records memory' x := by
  obtain ⟨h1, h2⟩ := h.toFits.spans hr
  have huser := x.user.toNat_lt
  exact h.frame hsame (Footprint.compl_avoids (h.toFits.program_subset_blocks hx le_rfl (by omega))) (by omega)

theorem apart_of_disjoint (hr : r.Valid) (hx : r.Fits x) (hy : r.Fits y) (hxy : (r.block x).Disjoint (r.block y)) :
    r.stop x ≤ r.start y ∨ r.stop y ≤ r.start x := by
  have hxaddr : (r.block x).addr.toNat = r.start x := hx.block_addr
  have hyaddr : (r.block y).addr.toNat = r.start y := hy.block_addr
  have hxspan := hx.spans hr
  have hyspan := hy.spans hr
  by_contra hoverlap
  refine hxy (max (r.start x) (r.start y)) ?_ ?_ ?_ ?_ <;> simp only [hxaddr, hyaddr, hx.block_stop, hy.block_stop]
  all_goals omega

/-- Blocks stay secured while the allocator's bytes are kept, and so do the bytes of their users. -/
theorem Secured.of_sameAt (h : r.Secured Valid a memory live) (hr : r.Valid) (hsub : ∀ y ∈ others, y ∈ live)
    (hvalid : Valid a' memory' (others.map r.block))
    (hsame : memory.SameAt (Footprint.blocks (others.map r.block)) memory') :
    r.Secured Valid a' memory' others ∧ memory.SameAt (Footprint.users others) memory' := by
  have hrecords (y : UserBlock) (hy : y ∈ others) : r.Records memory' y :=
    (h.records y (hsub y hy)).of_sameAt hr hy hsame
  exact ⟨⟨hvalid, hrecords⟩, hsame.mono (users_subset_blocks hr fun y hy => (hrecords y hy).toFits)⟩

section Contract

variable [HeapAllocator A E] (hc : HeapAllocator.Contract (A := A) shadow Valid) (hr : r.Valid)
include hc hr

theorem placed_of_contract (hvalid : Valid a memory (live.map r.block)) (hx : x ∈ live) (hfits : r.Fits x) :
    r.Placed shadow x := by
  obtain ⟨hmod, hlt, havoids⟩ := hc.placed hvalid _ (List.mem_map_of_mem hx)
  have haddr : (r.block x).addr.toNat = r.start x := hfits.block_addr
  rw [haddr] at hmod havoids
  rw [hfits.block_stop] at hlt havoids
  have hstart := hfits.start_add
  have hhead := hr.head_mod
  exact ⟨hfits, by omega, hlt, havoids⟩

theorem Secured.placed (h : r.Secured Valid a memory live) (hx : x ∈ live) : r.Placed shadow x :=
  placed_of_contract hc hr h.valid hx (h.records x hx).toFits

/-- None of this depends on the shadow bytes. -/
theorem Secured.of_alike (h : r.Secured Valid m.allocator m.memory live) (halike : m.Alike shadow m') :
    r.Secured Valid m'.allocator m'.memory live := by
  rw [halike.allocator_eq]
  refine ⟨hc.owned h.valid (halike.memory_same.mono Set.subset_union_left), fun x hx => ?_⟩
  have hplaced := h.placed hc hr hx
  have hspan := hplaced.spans hr
  have huser := x.user.toNat_lt
  exact (h.records x hx).frame halike.memory_same (hplaced.avoids.mono le_rfl (by omega)) (by omega)

/-- The blocks in use lie one behind the other. -/
theorem Secured.apart (h : r.Secured Valid a memory live) (hx : x ∈ live) (hy : y ∈ live) (hne : x ≠ y) :
    r.stop x ≤ r.start y ∨ r.stop y ≤ r.start x :=
  apart_of_disjoint hr (h.records x hx).toFits (h.records y hy).toFits
    ((List.pairwise_map.mp (hc.disjoint h.valid)).forall hx hy hne)

theorem Secured.head_apart (h : r.Secured Valid a memory (x :: others)) (hy : y ∈ others) :
    r.stop x ≤ r.start y ∨ r.stop y ≤ r.start x :=
  apart_of_disjoint hr (h.records x (List.mem_cons_self ..)).toFits (h.records y (List.mem_cons_of_mem _ hy)).toFits
    ((List.pairwise_cons.mp (List.pairwise_map.mp (hc.disjoint h.valid))).1 y hy)

/-- No other block has the address of the first one. -/
theorem Secured.head_user_ne (h : r.Secured Valid a memory (x :: others)) (hy : y ∈ others) : x.user ≠ y.user := by
  have hapart := h.head_apart hc hr hy
  have hxspan := (h.records x (List.mem_cons_self ..)).toFits.spans hr
  have hyspan := (h.records y (List.mem_cons_of_mem _ hy)).toFits.spans hr
  intro heq
  rw [heq] at hxspan
  omega

/-- Recording the length of a new block secures it: the word lies in no other block. -/
theorem Secured.of_recorded (hvalid : Valid a memory ((x :: others).map r.block)) (hfits : r.Fits x)
    (hothers : ∀ y ∈ others, r.Records memory y) (haligned : aligned.toNat = roundUp x.len.toNat) :
    r.Secured Valid a (memory.writeWord (x.user - r.head) aligned) (x :: others) ∧
      memory.SameAt (Footprint.users others) (memory.writeWord (x.user - r.head) aligned) := by
  obtain ⟨h1, h2⟩ := hfits.spans hr
  have huser := x.user.toNat_lt
  have hword : memory.SameOutside (Footprint.program (r.start x) (r.start x + 8))
      (memory.writeWord (x.user - r.head) aligned) := by
    have hsame := Memory.sameOutside_writeWord (m := memory) (a := x.user - r.head) (by rw [hfits.block_addr]; omega) aligned
    rwa [hfits.block_addr] at hsame
  have hapart (y : UserBlock) (hy : y ∈ others) : r.stop x ≤ r.start y ∨ r.stop y ≤ r.start x := by
    have hxy := (List.pairwise_cons.mp (List.pairwise_map.mp (hc.disjoint hvalid))).1 y hy
    exact apart_of_disjoint hr hfits (hothers y hy).toFits hxy
  refine ⟨⟨hc.owned hvalid (hword.mono (subset_trans ?_ Set.subset_union_right)), fun y hy => ?_⟩, hword.sameAt ?_⟩
  · exact hfits.program_subset_blocks (List.mem_cons_self ..) le_rfl (by omega)
  · rcases List.mem_cons.mp hy with rfl | hy
    · exact ⟨hfits, by rw [Memory.readWord_writeWord, haligned]⟩
    · have hyspan := (hothers y hy).toFits.spans hr
      have hyuser := y.user.toNat_lt
      have hxy := hapart y hy
      exact (hothers y hy).frame hword (Footprint.avoids_program (by omega)) (by omega)
  · rintro ⟨space, b⟩ ⟨y, hy, hspace, h3, h4⟩ ⟨-, h5, h6⟩
    obtain ⟨hy1, hy2⟩ := (hothers y hy).toFits.spans hr
    have hxy := hapart y hy
    omega

end Contract

/-! ## Without a shadow map -/

section Untracked

variable [HeapAllocator A E] (hc : HeapAllocator.Contract (A := A) shadow Valid) (hr : r.Valid)

section Ask

variable {ask : Action A E Address} (h : r.Secured Valid m.allocator m.memory live) (hsub : ∀ y ∈ others, y ∈ live)
  (hsize : r.blockSize? len = some size)
  (hask : HeapAllocator.Serves Valid Footprint.blocks ask m (live.map r.block) (others.map r.block)
    fun header => [⟨header, size.total⟩])
include hc hr h hsub hsize hask

/-- If the allocator has handed out a block, a user's block lies in it, and is secured once its length is recorded. -/
theorem secured_of_ask {header : Address} {m₁ : Machine A} (hrun : ask.run m = (.done header, m₁)) :
    ∃ user, header = user - r.head ∧
      r.Secured Valid m₁.allocator (m₁.memory.writeWord header size.aligned) (⟨user, len⟩ :: others) ∧
      m.memory.SameAt (Footprint.users others) (m₁.memory.writeWord header size.aligned) := by
  obtain ⟨hvalid, hsame⟩ := hask.done _ _ hrun
  obtain ⟨-, hlt, -⟩ := hc.placed hvalid ⟨header, size.total⟩ (List.mem_cons_self ..)
  obtain ⟨user, rfl, hfits, hblock⟩ := exists_block hsize header hlt
  have hothers (y : UserBlock) (hy : y ∈ others) : r.Records m₁.memory y := (h.records y (hsub y hy)).of_sameAt hr hy hsame
  have hvalid : Valid m₁.allocator m₁.memory ((⟨user, len⟩ :: others).map r.block) := by
    rw [List.map_cons, hblock]
    exact hvalid
  obtain ⟨hsecured, hword⟩ := Secured.of_recorded hc hr hvalid hfits hothers (blockSize?_eq_some_iff.mp hsize).1
  have husers : Footprint.users others ⊆ Footprint.blocks (others.map r.block) :=
    users_subset_blocks hr fun y hy => (hothers y hy).toFits
  exact ⟨user, rfl, hsecured, (hsame.mono husers).trans hword⟩

/-- That is where it is laid out. -/
theorem run_handOut_of_done {header : Address} {m₁ : Machine A} (hrun : ask.run m = (.done header, m₁)) :
    ∃ user m', header = user - r.head ∧ (r.handOut none ask len size.aligned).run m = (.done user, m') ∧
      m'.memory = m₁.memory.writeWord header size.aligned ∧
      r.Secured Valid m'.allocator m'.memory (⟨user, len⟩ :: others) ∧
      m.memory.SameAt (Footprint.users others) m'.memory := by
  obtain ⟨user, rfl, hsecured, hsame⟩ := secured_of_ask hc hr h hsub hsize hask hrun
  have hfits : r.Fits ⟨user, len⟩ := (hsecured.records _ (List.mem_cons_self ..)).toFits
  exact ⟨user, _, rfl, run_handOut_none hfits hrun, rfl, hsecured, hsame⟩

theorem exists_of_run_handOut {user : Address} (hrun : (r.handOut none ask len size.aligned).run m = (.done user, m')) :
    ∃ m₁, ask.run m = (.done (user - r.head), m₁) ∧ r.Placed shadow ⟨user, len⟩ ∧
      m'.memory = m₁.memory.writeWord (user - r.head) size.aligned := by
  rcases hheader : ask.run m with ⟨header | e | t, m₁⟩
  case done =>
    obtain ⟨user', m₂, rfl, hrun', hmemory, hsecured, -⟩ := run_handOut_of_done hc hr h hsub hsize hask hheader
    cases hrun.symm.trans hrun'
    exact ⟨m₁, rfl, hsecured.placed hc hr (List.mem_cons_self ..), hmemory⟩
  all_goals
    rw [run_handOut, hheader] at hrun
    cases hrun

theorem serves_handOut : HeapAllocator.Serves (r.Secured Valid) Footprint.users (r.handOut none ask len size.aligned) m
    live others fun user => [⟨user, len⟩] := by
  rcases hrun : ask.run m with ⟨header | e | t, m₁⟩
  case done =>
    obtain ⟨user, m', -, hrun', -, hsecured, hsame⟩ := run_handOut_of_done hc hr h hsub hsize hask hrun
    exact .of_done hrun' hsecured hsame
  all_goals
    obtain ⟨hvalid, hsame⟩ := hask.refused _ _ hrun fun _ h => by cases h
    obtain ⟨o, hrun', ho⟩ : ∃ o, (r.handOut none ask len size.aligned).run m = (o, m₁) ∧ ∀ user, o ≠ .done user := by
      rw [run_handOut, hrun]
      exact ⟨_, rfl, fun _ h => by cases h⟩
    obtain ⟨hsecured, husers⟩ := h.of_sameAt hr (fun _ => id) hvalid hsame
    exact .of_refused hrun' ho hsecured husers

end Ask

include hc hr

theorem serves_allocate (h : r.Secured Valid m.allocator m.memory live) (len : UInt64) :
    HeapAllocator.Serves (r.Secured Valid) Footprint.users (r.allocate none len) m live live
      fun user => [⟨user, len⟩] := by
  have hrun := run_allocate r none len m
  cases hsize : r.blockSize? len <;> rw [hsize] at hrun
  case none => exact .of_refused hrun (fun _ h => by cases h) h (Memory.SameOutside.refl _ _)
  case some size =>
    exact (serves_handOut (m := { m with log := m.log.push (.alloc len) }) hc hr h (fun _ => id) hsize
      (hc.allocate size.total h.valid)).congr rfl hrun

omit hr in
/-- the allocator is asked to resize the block of a user's block -/
theorem serves_ask (h : r.Secured Valid m.allocator m.memory live) (hx : x ∈ live) (len : UInt64) (log : Array Event) :
    HeapAllocator.Serves Valid Footprint.blocks (HeapAllocator.reallocate (r.block x).addr len) { m with log }
      (live.map r.block) ((live.filter (·.user ≠ x.user)).map r.block) fun header => [⟨header, len⟩] := by
  rw [map_block_filter]
  exact hc.reallocate (m := { m with log }) len h.valid (List.mem_map_of_mem hx)

theorem serves_reallocate (h : r.Secured Valid m.allocator m.memory live) (hx : x ∈ live) (len : UInt64) :
    HeapAllocator.Serves (r.Secured Valid) Footprint.users (r.reallocate none x.user len) m live
      (live.filter (·.user ≠ x.user)) fun user => [⟨user, len⟩] := by
  have hplaced := h.placed hc hr hx
  have hrun := run_reallocate_none (hplaced.user_ne_zero hr) hplaced.headerOf?_user len m
  cases hsize : r.blockSize? len <;> rw [hsize] at hrun
  case none => exact .of_refused hrun (fun _ h => by cases h) h (Memory.SameOutside.refl _ _)
  case some size =>
    exact (serves_handOut (m := { m with log := m.log.push (.realloc x.user len) }) hc hr h
      (fun _ hy => (List.mem_filter.mp hy).1) hsize (serves_ask hc h hx _ _)).congr rfl hrun

/-- A block that is resized keeps the user's bytes, as far as they fit: they lie as far into the new block as into the
old one, behind the word that is written anew. -/
theorem read_of_reallocate (hpreserves : HeapAllocator.Preserves (A := A) Valid)
    (h : r.Secured Valid m.allocator m.memory live) (hx : x ∈ live) {user : Address}
    (hrun : (r.reallocate none x.user len).run m = (.done user, m')) {i : Nat} (hi : i < min x.len.toNat len.toNat) :
    m'.memory.read .program (user + i.toUInt64) = m.memory.read .program (x.user + i.toUInt64) := by
  have hxplaced := h.placed hc hr hx
  rw [run_reallocate_none (hxplaced.user_ne_zero hr) hxplaced.headerOf?_user] at hrun
  cases hsize : r.blockSize? len <;> rw [hsize] at hrun
  case none => cases hrun
  case some size =>
    obtain ⟨m₁, hask, hplaced, hmemory⟩ := exists_of_run_handOut (m := { m with log := m.log.push (.realloc x.user len) })
      hc hr h (fun _ hy => (List.mem_filter.mp hy).1) hsize (serves_ask hc h hx _ _) hrun
    have hspan : _ ≤ user.toNat ∧ user.toNat + len.toNat ≤ _ := hplaced.spans hr
    have hlt := hplaced.stop_lt
    have hxspan := hxplaced.spans hr
    have hxlt := hxplaced.stop_lt
    have hold := hxplaced.block_len
    have hnew := (blockSize?_eq_some_iff.mp hsize).2
    have hround := le_roundUp x.len.toNat
    have hround' := le_roundUp len.toNat
    rw [total] at hold hnew
    have hbyte : (user + i.toUInt64).toNat = user.toNat + i := toNat_add_toUInt64 (by omega)
    have hheader : (user - r.head).toNat = r.start ⟨user, len⟩ := hplaced.block_addr
    have hword : m₁.memory.SameOutside _ (m₁.memory.writeWord (user - r.head) size.aligned) :=
      Memory.sameOutside_writeWord (by omega) _
    calc m'.memory.read .program (user + i.toUInt64)
        = m₁.memory.read .program (user + i.toUInt64) := by
          rw [hmemory]
          exact hword _ _ fun hin => by
            have : (user + i.toUInt64).toNat < (user - r.head).toNat + 8 := hin.2.2
            omega
      _ = m₁.memory.read .program (user - r.head + (r.head.toNat + i).toUInt64) := by
          rw [hplaced.header_add (show user.toNat + i < 2 ^ 64 by omega)]
      _ = m.memory.read .program (x.user - r.head + (r.head.toNat + i).toUInt64) :=
          hpreserves (m := { m with log := m.log.push (.realloc x.user len) }) h.valid (List.mem_map_of_mem hx) hask _
            (by omega)
      _ = m.memory.read .program (x.user + i.toUInt64) := by rw [hxplaced.header_add (by omega)]

/-- the allocator is asked to take back the block of a user's block -/
theorem serves_take (h : r.Secured Valid m.allocator m.memory live) (hx : x ∈ live) (log : Array Event) :
    HeapAllocator.Serves (r.Secured Valid) Footprint.users (HeapAllocator.free (r.block x).addr : Action A E Unit)
      { m with log } live (live.filter (·.user ≠ x.user)) fun _ => [] := by
  have htake := hc.free (m := { m with log }) h.valid (List.mem_map_of_mem hx)
  rw [← map_block_filter] at htake
  constructor
  case done =>
    intro _ m' hrun
    obtain ⟨hvalid, hsame⟩ := htake.done _ m' hrun
    exact h.of_sameAt hr (fun _ hy => (List.mem_filter.mp hy).1) hvalid hsame
  case refused =>
    intro o m' hrun ho
    obtain ⟨hvalid, hsame⟩ := htake.refused o m' hrun ho
    exact h.of_sameAt hr (fun _ => id) hvalid hsame

theorem serves_free (h : r.Secured Valid m.allocator m.memory live) (hx : x ∈ live) :
    HeapAllocator.Serves (r.Secured Valid) Footprint.users (r.free none x.user) m live (live.filter (·.user ≠ x.user))
      fun _ => [] := by
  have hplaced := h.placed hc hr hx
  have htake := serves_take hc hr h hx (m.log.push (.free x.user))
  have hrun := run_free (hplaced.user_ne_zero hr) hplaced.headerOf?_user none m
  rcases hask : (HeapAllocator.free (r.block x).addr : Action A E Unit).run { m with log := m.log.push (.free x.user) }
    with ⟨_ | e | t, m₁⟩ <;> rw [hask] at hrun
  case done =>
    obtain ⟨hsecured, hsame⟩ := htake.done _ _ hask
    exact .of_done hrun hsecured hsame
  all_goals
    obtain ⟨hsecured, hsame⟩ := htake.refused _ _ hask fun _ h => by cases h
    exact .of_refused hrun (fun _ h => by cases h) hsecured hsame

end Untracked

/-! ## With a shadow map -/

section Tracked

variable (hs : s.cells ⊆ shadow)
include hs

/-- An update that cannot trap leaves no trace but in the shadow bytes and in the log. -/
theorem mirrors_track {update₀ update : ShadowMap → Action A ShadowError Unit} {untracked₀ untracked : ShadowError → Event}
    (halike : m.Alike shadow m') (hconfined : (update s).Confined s.cells m') :
    (track none update₀ untracked₀ : Action A ε Unit).Mirrors shadow (track (some s) update untracked) m m' := by
  obtain ⟨htraps, hsame⟩ := hconfined
  replace hsame := hsame.mono hs
  have hrun := run_track (ε := ε) s update untracked m'
  rcases hupdate : (update s).run m' with ⟨_ | e | t, m₁'⟩ <;> rw [hupdate] at hrun htraps hsame
  case done => exact .of_run rfl hrun (halike.trans hsame)
  case failed => exact .of_run rfl hrun (halike.trans ⟨hsame.allocator_eq, hsame.memory_same⟩)
  case trapped => exact absurd rfl (htraps t)

variable (hr : r.Valid)
include hr

omit hs in
theorem marks_confined (hx : r.Placed shadow x) (haligned : aligned.toNat = roundUp x.len.toNat) (s : ShadowMap)
    (m : Machine A) : (r.marks s (x.user - r.head) x.user x.len aligned).Confined s.cells m := by
  have haddr := hx.block_addr
  have hstart := hx.start_add
  have hmod := hx.user_mod
  have hhead := hr.head_mod
  have hround := roundUp_mod x.len.toNat
  have hlt := hx.stop_lt
  rw [stop] at hlt
  have hadd : checkedAdd x.user aligned = some (x.user + aligned) := checkedAdd_of_lt (by omega)
  have hbehind : (x.user + aligned).toNat = x.user.toNat + aligned.toNat := toNat_add_of_lt (by omega)
  refine .bind (ShadowMap.unpoison_confined hmod _ _) fun _ m₁ _ =>
    .bind (ShadowMap.poison_confined (by omega) hhead _ _) fun _ m₂ _ => .bind (.add (by omega)) fun behind m₃ hrun => ?_
  rw [Action.add, hadd] at hrun
  cases hrun
  exact ShadowMap.poison_confined (by omega) hr.tail_mod _ _

omit hs in
/-- The recorded length of a block can be poisoned. -/
theorem poison_recorded_confined [HeapAllocator A E] (hc : HeapAllocator.Contract (A := A) shadow Valid)
    (h : r.Secured Valid a memory live) (hx : x ∈ live) (s : ShadowMap) (m : Machine A) :
    (s.poison x.user (alignedSize memory (x.user - r.head)) .heapFreed).Confined s.cells m := by
  have hlen : (alignedSize memory (x.user - r.head)).toNat = roundUp x.len.toNat := (h.records x hx).recorded
  exact ShadowMap.poison_confined (h.placed hc hr hx).user_mod (by rw [hlen, roundUp_mod]) _ _

theorem mirrors_layOut (hx : r.Placed shadow x) (haligned : aligned.toNat = roundUp x.len.toNat)
    (halike : m.Alike shadow m') :
    (r.layOut none (x.user - r.head) x.len aligned : Action A ε Address).Mirrors shadow
      (r.layOut (some s) (x.user - r.head) x.len aligned) m m' := by
  refine .bind (.modifyMemory halike (halike.memory_same.writeWord _ _)) fun _ m₁ m₁' _ h₁ => ?_
  refine .bind (.orTrap h₁ _ _) fun user m₂ m₂' hrun h₂ => ?_
  rw [hx.userOf?_header] at hrun
  cases hrun
  refine .bind (.emit h₂ _ _) fun _ m₃ m₃' _ h₃ => ?_
  exact .bind (mirrors_track hs h₃ (marks_confined hr hx haligned s m₃')) fun _ m₄ m₄' _ h₄ => .pure h₄ _

variable [HeapAllocator A E] (hc : HeapAllocator.Contract (A := A) shadow Valid)
  (h : r.Secured Valid m.allocator m.memory live) (halike : m.Alike shadow m')
include hc h

theorem mirrors_handOut {ask : Action A E Address} (hsub : ∀ y ∈ others, y ∈ live) (hsize : r.blockSize? len = some size)
    (hask : HeapAllocator.Serves Valid Footprint.blocks ask m (live.map r.block) (others.map r.block)
      fun header => [⟨header, size.total⟩])
    (hmirrors : ask.Mirrors shadow ask m m') :
    (r.handOut none ask len size.aligned).Mirrors shadow (r.handOut (some s) ask len size.aligned) m m' := by
  refine .mapError_bind hmirrors _ fun header m₁ m₁' hrun h₁ => ?_
  obtain ⟨user, rfl, hsecured, -⟩ := secured_of_ask hc hr h hsub hsize hask hrun
  exact mirrors_layOut (x := ⟨user, len⟩) hs hr (hsecured.placed hc hr (List.mem_cons_self ..))
    (blockSize?_eq_some_iff.mp hsize).1 h₁

include halike

theorem mirrors_allocate (len : UInt64) :
    (r.allocate none len).Mirrors shadow (r.allocate (some s) len) m m' := by
  refine .bind (.emit halike _ _) fun _ m₁ m₁' hrun₁ h₁ => ?_
  cases hrun₁
  refine .bind (.ofExcept h₁ _) fun size m₂ m₂' hrun₂ h₂ => ?_
  rw [blockSize] at hrun₂
  cases hsize : r.blockSize? len <;> rw [hsize] at hrun₂ <;> cases hrun₂
  exact mirrors_handOut (m := { m with log := m.log.push (.alloc len) }) hs hr hc h (fun _ => id) hsize
    (hc.allocate _ h.valid) (hc.allocate_blind (m := { m with log := m.log.push (.alloc len) }) _ h.valid _ h₂)

theorem mirrors_reallocate_zero (len : UInt64) :
    (r.reallocate none 0 len).Mirrors shadow (r.reallocate (some s) 0 len) m m' := by
  refine .bind (.emit halike _ _) fun _ m₁ m₁' hrun₁ h₁ => ?_
  cases hrun₁
  exact mirrors_allocate (m := { m with log := m.log.push (.realloc 0 len) }) hs hr hc h h₁ len

theorem mirrors_reallocate (hx : x ∈ live) (len : UInt64) :
    (r.reallocate none x.user len).Mirrors shadow (r.reallocate (some s) x.user len) m m' := by
  have hplaced := h.placed hc hr hx
  refine .bind (.emit halike _ _) fun _ m₁ m₁' hrun₁ h₁ => ?_
  cases hrun₁
  rw [if_neg (hplaced.user_ne_zero hr), if_neg (hplaced.user_ne_zero hr)]
  refine .bind (.require h₁ _ _) fun header m₂ m₂' hrun₂ h₂ => ?_
  rw [hplaced.headerOf?_user] at hrun₂
  cases hrun₂
  refine .bind (.ofExcept h₂ _) fun size m₃ m₃' hrun₃ h₃ => ?_
  rw [blockSize] at hrun₃
  cases hsize : r.blockSize? len <;> rw [hsize] at hrun₃ <;> cases hrun₃
  refine .memory_bind (.bind (mirrors_track hs h₃ (poison_recorded_confined hr hc (h.of_alike hc hr ⟨h₃.1, h₃.2⟩) hx s _))
    fun _ m₄ m₄' hrun₄ h₄ => ?_)
  cases hrun₄
  exact mirrors_handOut (m := { m with log := m.log.push (.realloc x.user len) }) hs hr hc h
    (fun _ hy => (List.mem_filter.mp hy).1) hsize (serves_ask hc h hx _ _)
    (hc.reallocate_blind (m := { m with log := m.log.push (.realloc x.user len) }) _ h.valid (List.mem_map_of_mem hx) _ h₄)

theorem mirrors_free (hx : x ∈ live) : (r.free none x.user).Mirrors shadow (r.free (some s) x.user) m m' := by
  have hplaced := h.placed hc hr hx
  refine .bind (.emit halike _ _) fun _ m₁ m₁' hrun₁ h₁ => ?_
  cases hrun₁
  rw [if_pos (hplaced.user_ne_zero hr), if_pos (hplaced.user_ne_zero hr)]
  refine .bind (.require h₁ _ _) fun header m₂ m₂' hrun₂ h₂ => ?_
  rw [hplaced.headerOf?_user] at hrun₂
  cases hrun₂
  refine .memory_bind (.mapError_bind (hc.free_blind (m := { m with log := m.log.push (.free x.user) }) h.valid
    (List.mem_map_of_mem hx) _ h₂) _ fun _ m₃ m₃' hrun₃ h₃ => ?_)
  exact mirrors_track hs h₃ (poison_recorded_confined hr hc (h.of_alike hc hr ⟨h₂.1, h₂.2⟩) hx s _)

end Tracked

end Redzones

end AddressSanitizer
