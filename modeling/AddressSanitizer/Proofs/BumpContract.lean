/-
The bump allocator keeps the contract. Its own account of the blocks in use is `Bump.Inv`, over a region that does not
change; if no shadow byte lies in the region, it neither hands out shadow bytes nor looks at them.

- `inv_of_owned`: the owners of blocks may write into them.
- `blind_carve`, `blind_reallocate`, `blind_free`: the operations read the allocator's own words and copy blocks, all of
  which lie in the region.
- `Bump.contract`: all clauses together.
- `preserves`, `sound`, `keepsOff`: resizing keeps the contents of a block, the allocator can only run out of memory, and it
  writes in its region only.
-/
import Mathlib.Tactic
import AddressSanitizer.Proofs.AllocatorContract
import AddressSanitizer.Proofs.BumpRuns

namespace AddressSanitizer.Bump

variable {b b₀ : Bump} {m m' : Machine Bump} {memory memory' : Memory} {shadow F : Footprint} {live : List Block}
  {x y : Block} {len : UInt64}

/-! ## Owners and shadow bytes -/

/-- the allocator's account of the blocks in use, and the region it began with -/
structure Account (b₀ b : Bump) (memory : Memory) (live : List Block) : Prop where
  region : b₀.SameRegion b
  inv : b.Inv memory live

theorem account_of_ofRegion {start len align : UInt64} (h : ofRegion start len align = .ok b) (memory : Memory) :
    Account b b memory [] :=
  ⟨.refl b, BumpHeap.inv_of_ofRegion (m := { memory, allocator := b }) h⟩

/-- The blocks in use lie in the region, with room for the metadata. -/
theorem Inv.in_region (h : b.Inv memory live) (hx : x ∈ live) :
    b.start.toNat + 16 ≤ x.addr.toNat ∧ x.stop ≤ b.stop.toNat := by
  have hhold := h.holds x hx
  have := hhold.start_le_saved
  have := hhold.saved_add_le
  have := hhold.stop_le
  have := h.le_stop
  omega

theorem Inv.disjoint (h : b.Inv memory live) : live.Pairwise Block.Disjoint := by
  refine h.apart.imp_of_mem fun {x y} hx hy hxy a h1 h2 h3 h4 => ?_
  have := (h.holds x hx).saved_add_le
  have := (h.holds y hy).saved_add_le
  rcases hxy with hxy | hyx <;> omega

/-- The metadata of a block belongs to no block and to no shadow byte. -/
theorem Inv.metadata_avoids (h : b.Inv memory live) (hoff : shadow.Avoids b.start.toNat b.stop.toNat) (hx : x ∈ live) :
    (shadow ∪ Footprint.blocks live).Avoids (x.addr.toNat - 16) x.addr.toNat := by
  have hxin := h.in_region hx
  have hxle := x.addr_le_stop
  refine (hoff.mono (by omega) (by omega)).union ?_
  rintro a h1 h2 ⟨y, hy, -, h3, h4⟩
  have h3 : y.addr.toNat ≤ a.toNat := h3
  have h4 : a.toNat < y.stop := h4
  have := (h.holds x hx).saved_add_le
  have := (h.holds y hy).saved_add_le
  by_cases hxy : x = y
  · rw [hxy] at h2
    omega
  · rcases h.apart.forall hx hy hxy with hxy | hyx <;> omega

theorem inv_of_owned (h : b.Inv memory live) (hoff : shadow.Avoids b.start.toNat b.stop.toNat)
    (hsame : memory.SameOutside (shadow ∪ Footprint.blocks live) memory') : b.Inv memory' live :=
  h.keep (List.Sublist.refl _) (SameRegion.refl _) h.start_le h.le_stop (fun x hx => (h.holds x hx).stop_le) hsame
    fun _ hx => h.metadata_avoids hoff hx

/-- A change outside the bytes of the blocks in `live` keeps these bytes. -/
theorem sameAt_blocks (hsame : memory.SameOutside F memory') (hoff : ∀ x ∈ live, F.Avoids x.addr.toNat x.stop) :
    memory.SameAt (Footprint.blocks live) memory' := by
  refine hsame.sameAt ?_
  rintro ⟨space, a⟩ ⟨x, hx, hspace, h1, h2⟩ hF
  have hspace : space = .program := hspace
  rw [hspace] at hF
  exact hoff x hx a h1 h2 hF

/-! ## Blindness -/

section Blind

variable (h : m.allocator.Inv m.memory live) (hoff : shadow.Avoids m.allocator.start.toNat m.allocator.stop.toNat)

/-- The allocator's account holds on every machine that differs in shadow bytes only. -/
theorem Inv.of_alike (h : m.allocator.Inv m.memory live)
    (hoff : shadow.Avoids m.allocator.start.toNat m.allocator.stop.toNat) (halike : m.Alike shadow m') :
    m'.allocator.Inv m'.memory live := by
  rw [halike.allocator_eq]
  exact inv_of_owned h hoff (halike.memory_same.mono Set.subset_union_left)

theorem blind_carve (m : Machine Bump) (len : UInt64) : HeapAllocator.Blind shadow (carve len) m := by
  intro m' halike
  refine .allocator_bind halike (.bind (.require halike _ _) fun block m₁ m₁' _ h₁ => ?_)
  refine .bind (.require h₁ _ _) fun stop m₂ m₂' _ h₂ => ?_
  refine .bind (.modifyMemory h₂ (h₂.memory_same.writeWord _ _)) fun _ m₃ m₃' _ h₃ => ?_
  refine .bind (.modifyMemory h₃ (h₃.memory_same.writeWord _ _)) fun _ m₄ m₄' _ h₄ => ?_
  refine .bind (.setAllocator h₄ _) fun _ m₅ m₅' _ h₅ => ?_
  exact .bind (.emit h₅ _ _) fun _ m₆ m₆' _ h₆ => .pure h₆ block

include h hoff

theorem blind_reallocate (hx : x ∈ live) (len : UInt64) : HeapAllocator.Blind shadow (reallocate x.addr len) m := by
  intro m' halike
  have h' := h.of_alike hoff halike
  have hrun := run_reallocate (h.holds x hx) len
  have hrun' := run_reallocate (h'.holds x hx) len
  rw [halike.allocator_eq] at hrun'
  have hword := halike.memory_same.writeWord (x.addr - 8) len
  by_cases hlast : x.stop = m.allocator.cursor.toNat
  · rw [if_pos hlast] at hrun hrun'
    cases hstop : m.allocator.stopOf? x.addr len <;> rw [hstop] at hrun hrun'
    case none => exact .of_run hrun hrun' halike
    case some => exact .of_run hrun hrun' ⟨rfl, hword⟩
  · rw [if_neg hlast] at hrun hrun'
    by_cases hle : len ≤ x.len
    · rw [if_pos hle] at hrun hrun'
      exact .of_run hrun hrun' ⟨rfl, hword⟩
    · rw [if_neg hle] at hrun hrun'
      rcases hcarve : (carve len).run m with ⟨moved | e | t, m₁⟩ <;>
        obtain ⟨m₁', hcarve', h₁⟩ := (blind_carve m len m' halike).run_eq hcarve <;> rw [hcarve] at hrun <;>
        rw [hcarve'] at hrun'
      case done =>
        have hxin := h.in_region hx
        have hlt := m.allocator.stop.toNat_lt
        have hspan : x.stop = x.addr.toNat + x.len.toNat := rfl
        exact .of_run hrun hrun' ⟨h₁.allocator_eq,
          h₁.memory_same.copy (by omega) (hoff.mono (by omega) (by omega))⟩
      case failed => exact .of_run hrun hrun' h₁
      case trapped => exact .of_run hrun hrun' h₁

theorem blind_free (hx : x ∈ live) : HeapAllocator.Blind shadow (free x.addr) m := by
  intro m' halike
  have hrun := run_free (h.holds x hx)
  have hrun' := run_free ((h.of_alike hoff halike).holds x hx)
  have hroom := h.in_region hx
  have hxle := x.addr_le_stop
  have hbelow : (x.addr - metadata).toNat = x.addr.toNat - 16 :=
    toNat_sub_of_le (show 16 ≤ x.addr.toNat by omega)
  have hsaved : m'.memory.readWord (x.addr - metadata) = m.memory.readWord (x.addr - metadata) :=
    halike.memory_same.readWord_eq (by have := x.addr.toNat_lt; omega) (hoff.mono (by omega) (by omega))
  rw [halike.allocator_eq, hsaved] at hrun'
  refine .of_run hrun hrun' ?_
  split_ifs
  · exact ⟨rfl, halike.memory_same⟩
  · exact halike

end Blind

/-! ## The operations -/

/-- The blocks that are in use stay so when one is carved. -/
theorem serves_carve (h : Account b₀ m.allocator m.memory live) (len : UInt64) :
    HeapAllocator.Serves (Account b₀) Footprint.blocks (carve len) m live live fun addr => [⟨addr, len⟩] := by
  rcases h.inv.allocate len with ⟨addr, m', hrun, hregion, hinv, -, hsame⟩ | hrun
  · refine .of_done hrun ⟨h.region.trans hregion, hinv⟩ (sameAt_blocks hsame fun y hy => ?_)
    exact Footprint.avoids_program (Or.inr (h.inv.holds y hy).stop_le)
  · exact .of_refused hrun nofun h (Memory.SameOutside.refl _ _)

theorem serves_reallocate (h : Account b₀ m.allocator m.memory live) (hx : x ∈ live) (len : UInt64) :
    HeapAllocator.Serves (Account b₀) Footprint.blocks (reallocate x.addr len) m live (live.filter (·.addr ≠ x.addr))
      fun addr => [⟨addr, len⟩] := by
  rcases h.inv.reallocate hx len with ⟨addr, m', hrun, hregion, hinv, hsame, -⟩ | hrun
  · refine .of_done hrun ⟨h.region.trans hregion, hinv⟩ (sameAt_blocks hsame fun y hy => ?_)
    obtain ⟨hy, hne⟩ : y ∈ live ∧ y.addr ≠ x.addr := by simpa using hy
    have := (h.inv.holds x hx).saved_add_le
    have := (h.inv.holds y hy).saved_add_le
    have := (h.inv.holds y hy).stop_le
    have := x.addr_le_stop
    refine (Footprint.avoids_program ?_).union (Footprint.avoids_program (by omega))
    rcases h.inv.apart_of_ne hx hy (Ne.symm hne) with hxy | hyx <;> omega
  · exact .of_refused hrun nofun h (Memory.SameOutside.refl _ _)

theorem serves_free (h : Account b₀ m.allocator m.memory live) (hx : x ∈ live) :
    HeapAllocator.Serves (Account b₀) Footprint.blocks (free x.addr) m live (live.filter (·.addr ≠ x.addr))
      fun _ => [] := by
  obtain ⟨b', hrun, hregion, hinv⟩ := h.inv.free hx
  exact .of_done hrun ⟨h.region.trans hregion, hinv⟩ (Memory.SameOutside.refl _ _)

/-- **The bump allocator keeps the contract**, if its blocks are made of whole granules and no shadow byte lies in its
region. -/
theorem contract (b₀ : Bump) (halign : 8 ≤ b₀.align.toNat) (hoff : shadow.Avoids b₀.start.toNat b₀.stop.toNat) :
    HeapAllocator.Contract shadow (Account b₀) := by
  have hregion {b : Bump} {memory : Memory} {live : List Block} (h : Account b₀ b memory live) :
      shadow.Avoids b.start.toNat b.stop.toNat := by
    rw [h.region.start_eq, h.region.stop_eq]
    exact hoff
  constructor
  case placed =>
    intro b memory live h x hx
    have hin := h.inv.in_region hx
    have hlt := b.stop.toNat_lt
    have hdvd := Nat.dvd_of_mod_eq_zero (h.inv.holds x hx).aligned
    rw [← h.region.align_eq] at halign
    have h8 := Nat.dvd_of_mod_eq_zero (align_mod h.inv.power halign)
    exact ⟨Nat.mod_eq_zero_of_dvd (h8.trans hdvd), by omega, (hregion h).mono (by omega) (by omega)⟩
  case disjoint => exact fun h => h.inv.disjoint
  case owned => exact fun h hsame => ⟨h.region, inv_of_owned h.inv (hregion h) hsame⟩
  case allocate => exact fun len h => serves_carve h len
  case reallocate => exact fun len h hx => serves_reallocate h hx len
  case free => exact fun h hx => serves_free h hx
  case allocate_blind => exact fun len _ => blind_carve _ len
  case reallocate_blind => exact fun len h hx => blind_reallocate h.inv (hregion h) hx len
  case free_blind => exact fun h hx => blind_free h.inv (hregion h) hx

/-- So does a fresh one over a region that is apart from the shadow bytes. -/
theorem contract_of_ofRegion {start len align : UInt64} (h : ofRegion start len align = .ok b) (halign : 8 ≤ align.toNat)
    (hoff : shadow.Avoids start.toNat (start.toNat + len.toNat)) : HeapAllocator.Contract shadow (Account b) := by
  obtain ⟨hstart, hstop, hsame⟩ := toNat_of_ofRegion h
  rw [← hsame] at halign
  rw [← hstop, ← hstart] at hoff
  exact contract b halign hoff

/-! ## Beyond the contract -/

theorem preserves (b₀ : Bump) : HeapAllocator.Preserves (Account b₀) := by
  intro m m' live x len addr h hx hrun i hi
  rcases h.inv.reallocate hx len with ⟨addr', m₁, hrun', -, -, -, hbytes⟩ | hrun'
  · cases hrun.symm.trans hrun'
    exact hbytes i hi
  · cases hrun.symm.trans hrun'

/-- there is not enough room for a block -/
def IsOutOfMemory (e : BumpError) : Prop := ∃ len, e = .outOfMemory len

/-- A bump allocator can run out of memory, and that is all. -/
theorem sound (b₀ : Bump) : HeapAllocator.Sound IsOutOfMemory (Account b₀) where
  allocate {m live} len h := by
    rcases h.inv.allocate len with ⟨addr, m', hrun, -⟩ | hrun <;> have hrun : (HeapAllocator.allocate len).run m = _ := hrun
    · rw [hrun]
      trivial
    · rw [hrun]
      exact ⟨len, rfl⟩
  reallocate {m live x} len h hx := by
    rcases h.inv.reallocate hx len with ⟨addr, m', hrun, -⟩ | hrun <;>
      have hrun : (HeapAllocator.reallocate x.addr len).run m = _ := hrun
    · rw [hrun]
      trivial
    · rw [hrun]
      exact ⟨len, rfl⟩
  free {m live x} h hx := by
    obtain ⟨b', hrun, -⟩ := h.inv.free hx
    have hrun : (HeapAllocator.free x.addr).run m = _ := hrun
    rw [hrun]
    trivial

/-- All that a bump allocator writes lies in its region. -/
theorem keepsOff (b₀ : Bump) (hoff : shadow.Avoids b₀.start.toNat b₀.stop.toNat) :
    HeapAllocator.KeepsOff shadow (Account b₀) where
  allocate {m live} len h := by
    have hstart := h.inv.start_le
    have hregion := h.region
    rcases h.inv.allocate len with ⟨addr, m', hrun, hsame_region, hinv, -, hsame⟩ | hrun <;>
      have hrun : (HeapAllocator.allocate len).run m = _ := hrun <;> rw [hrun]
    · have hin := (hinv.in_region (List.mem_cons_self ..)).2
      have hlen := Block.addr_le_stop ⟨addr, len⟩
      rw [hsame_region.stop_eq, hregion.stop_eq] at hin
      rw [hregion.start_eq] at hstart
      exact hsame.sameAt_of_avoids (hoff.mono hstart (hlen.trans hin))
    · exact Memory.SameOutside.refl _ _
  reallocate {m live x} len h hx := by
    have hin := h.inv.in_region hx
    have hxlen := x.addr_le_stop
    have hstart := h.inv.start_le
    rw [h.region.start_eq] at hin hstart
    rw [h.region.stop_eq] at hin
    rcases h.inv.reallocate hx len with ⟨addr, m', hrun, -, -, hsame, -⟩ | hrun <;>
      have hrun : (HeapAllocator.reallocate x.addr len).run m = _ := hrun <;> rw [hrun]
    · rw [h.region.stop_eq] at hsame
      refine hsame.sameAt fun p hp hin' => ?_
      rcases hin' with hin' | hin'
      · exact (hoff.mono (by omega) (by omega)).subset_compl hp hin'
      · exact (hoff.mono hstart le_rfl).subset_compl hp hin'
    · exact Memory.SameOutside.refl _ _
  free {m live x} h hx := by
    obtain ⟨b', hrun, -⟩ := h.inv.free hx
    have hrun : (HeapAllocator.free x.addr).run m = _ := hrun
    rw [hrun]
    exact Memory.SameOutside.refl _ _

end AddressSanitizer.Bump
