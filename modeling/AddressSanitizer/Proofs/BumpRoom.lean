/-
When a bump allocator has room. A request is granted exactly if it fits, counted in whole numbers and not in machine
words: the masks and checked additions by which the allocator places a block refuse nothing that ends in the region, for
any alignment and up to the last address, and let nothing through that does not. A request that is refused leaves the
machine as it was.

- `isLeast_placement`: a block is placed at the least multiple of the alignment with room for the metadata.
- `grants_carve`, `grants_resize`, `grants_shrink`, `grants_move`: each kind of request, as `Grants`: when it is granted,
  where the block is then, and what is left of it otherwise.
- `run_reallocate_outside`, `run_free_outside`: an address outside the part of the region in use is no block.
- `failsClean_carve`, `failsClean_reallocate`, `failsClean_free`: an error of an operation leaves the machine as it was,
  whatever was given for a block.
- `fails_exactly_without_room`: the four together, at every state of every run.
-/
import Mathlib.Tactic
import AddressSanitizer.Proofs.BumpRuns

namespace AddressSanitizer

namespace Action

variable {A ε α β : Type} {x : Action A ε α} {f : α → Action A ε β} {m : Machine A}

/-- an error of the action leaves the machine as it was -/
def FailsClean (x : Action A ε α) (m : Machine A) : Prop := ∀ e m', x.run m = (.failed e, m') → m' = m

/-- the action ends without an error -/
def Infallible (x : Action A ε α) : Prop := ∀ m e m', x.run m ≠ (.failed e, m')

theorem Infallible.bind (hx : x.Infallible) (hf : ∀ a, (f a).Infallible) : (x >>= f).Infallible := by
  intro m e m' hrun
  rw [run_bind] at hrun
  rcases hx' : x.run m with ⟨a | e' | t, m₁⟩ <;> rw [hx'] at hrun
  · exact hf a m₁ e m' hrun
  · exact hx m _ _ hx'
  · cases hrun

theorem Infallible.failsClean (h : x.Infallible) (m : Machine A) : x.FailsClean m :=
  fun e m' hrun => absurd hrun (h m e m')

/-- The first action changes nothing, and what comes next fails cleanly. -/
theorem FailsClean.bind_of_unchanged (hx : (x.run m).2 = m) (hf : ∀ a, (f a).FailsClean m) : (x >>= f).FailsClean m := by
  intro e m' hrun
  rw [run_bind] at hrun
  rcases hx' : x.run m with ⟨a | e' | t, m₁⟩ <;> rw [hx'] at hrun hx <;> obtain rfl := hx
  · exact hf a e m' hrun
  · cases hrun
    rfl
  · cases hrun

/-- The first action fails cleanly, and what comes next does not fail. -/
theorem FailsClean.bind_infallible (hx : x.FailsClean m) (hf : ∀ a, (f a).Infallible) : (x >>= f).FailsClean m := by
  intro e m' hrun
  rw [run_bind] at hrun
  rcases hx' : x.run m with ⟨a | e' | t, m₁⟩ <;> rw [hx'] at hrun
  · exact absurd hrun (hf a m₁ e m')
  · cases hrun
    exact hx _ _ hx'
  · cases hrun

end Action

namespace Bump

variable {b : Bump} {m : Machine Bump} {x : Block} {block : Address} {n : UInt64}

/-! ## Where a block is placed -/

/-- A block is placed at the least multiple of the alignment with room for the metadata above the cursor. -/
theorem isLeast_placement (h : isPowerOfTwo b.align = true) :
    IsLeast {a | b.align.toNat ∣ a ∧ b.cursor.toNat + 16 ≤ a} b.placement := by
  constructor
  · exact ⟨Nat.dvd_mul_left _ _, cursor_add_le_placement h⟩
  · rintro _ ⟨⟨k, rfl⟩, hroom⟩
    have hpos := (align_bounds h).1
    have hlt : (b.cursor.toNat + 16 + (b.align.toNat - 1)) / b.align.toNat < k + 1 := by
      apply Nat.div_lt_of_lt_mul
      calc b.cursor.toNat + 16 + (b.align.toNat - 1) < b.align.toNat * k + b.align.toNat := by omega
        _ = b.align.toNat * (k + 1) := rfl
    calc b.placement ≤ k * b.align.toNat := Nat.mul_le_mul_right _ (Nat.le_of_lt_succ hlt)
      _ = b.align.toNat * k := Nat.mul_comm _ _

/-! ## When a request is granted -/

/-- A request for `n` bytes is granted exactly if it fits, at `place`; if it does not, memory is out and the machine is as
it was. -/
structure Grants (request : Action Bump BumpError Address) (m : Machine Bump) (n : UInt64) (place : Nat) (fits : Prop) :
    Prop where
  done_iff : (∃ addr m', request.run m = (.done addr, m')) ↔ fits
  place_eq : ∀ addr m', request.run m = (.done addr, m') → addr.toNat = place
  refused : ¬fits → request.run m = (.failed (.outOfMemory n), m)

namespace Grants

variable {request : Action Bump BumpError Address} {place : Nat} {fits : Prop}

theorem of_done {addr : Address} {m' : Machine Bump} (hrun : request.run m = (.done addr, m')) (haddr : addr.toNat = place)
    (hfits : fits) : Grants request m n place fits where
  done_iff := ⟨fun _ => hfits, fun _ => ⟨addr, m', hrun⟩⟩
  place_eq addr' m'' hrun' := by
    cases hrun.symm.trans hrun'
    exact haddr
  refused hnot := absurd hfits hnot

theorem of_failed (hrun : request.run m = (.failed (.outOfMemory n), m)) (hnot : ¬fits) :
    Grants request m n place fits where
  done_iff := by
    refine ⟨?_, fun hfits => absurd hfits hnot⟩
    rintro ⟨addr, m', hrun'⟩
    cases hrun.symm.trans hrun'
  place_eq addr m' hrun' := by cases hrun.symm.trans hrun'
  refused _ := hrun

end Grants

/-- A new block is placed if it ends in the region there. -/
theorem grants_carve (h : isPowerOfTwo m.allocator.align = true) (n : UInt64) :
    Grants (carve n) m n m.allocator.placement (m.allocator.placement + n.toNat ≤ m.allocator.stop.toNat) := by
  rcases run_carve h n with ⟨block, stop, hplace, hsum, hle, hrun⟩ | ⟨hover, hrun⟩
  · refine Grants.of_done hrun hplace ?_
    calc m.allocator.placement + n.toNat = stop.toNat := by rw [hsum, hplace]
      _ ≤ m.allocator.stop.toNat := hle
  · exact Grants.of_failed hrun (Nat.not_le.mpr hover)

/-- The last block stays where it is, with any length that ends in the region. -/
theorem grants_resize (h : m.allocator.Holds m.memory x) (hlast : x.stop = m.allocator.cursor.toNat) (n : UInt64) :
    Grants (reallocate x.addr n) m n x.addr.toNat (x.addr.toNat + n.toNat ≤ m.allocator.stop.toNat) := by
  have hrun := run_reallocate h n
  rw [if_pos hlast] at hrun
  rcases m.allocator.stopOf?_cases x.addr n with ⟨stop, hstop?, hsum, hle⟩ | ⟨hnone, hover⟩
  · rw [hstop?] at hrun
    exact Grants.of_done hrun rfl (by rw [← hsum]; exact hle)
  · rw [hnone] at hrun
    exact Grants.of_failed hrun (Nat.not_le.mpr hover)

/-- Another block stays where it is if it does not grow. -/
theorem grants_shrink (h : m.allocator.Holds m.memory x) (hlast : x.stop ≠ m.allocator.cursor.toNat) (hn : n ≤ x.len) :
    Grants (reallocate x.addr n) m n x.addr.toNat True := by
  have hrun := run_reallocate h n
  rw [if_neg hlast, if_pos hn] at hrun
  exact Grants.of_done hrun rfl trivial

/-- If it grows, it moves to where a new block would be. -/
theorem grants_move (hpower : isPowerOfTwo m.allocator.align = true) (h : m.allocator.Holds m.memory x)
    (hlast : x.stop ≠ m.allocator.cursor.toNat) (hn : x.len < n) :
    Grants (reallocate x.addr n) m n m.allocator.placement (∃ addr m', (carve n).run m = (.done addr, m')) := by
  have hrun := run_reallocate h n
  rw [if_neg hlast, if_neg (UInt64.not_le.mpr hn)] at hrun
  have hcarve := grants_carve hpower n
  by_cases hfits : m.allocator.placement + n.toNat ≤ m.allocator.stop.toNat
  · obtain ⟨addr, m', hdone⟩ := hcarve.done_iff.mpr hfits
    rw [hdone] at hrun
    exact Grants.of_done hrun (hcarve.place_eq addr m' hdone) ⟨addr, m', hdone⟩
  · rw [hcarve.refused hfits] at hrun
    exact Grants.of_failed hrun fun hdone => hfits (hcarve.done_iff.mp hdone)

/-! ## Addresses that are no blocks -/

/-- the address lies below the first place for a block, or above the cursor -/
def Outside (b : Bump) (block : Address) : Prop :=
  block.toNat < b.start.toNat + 16 ∨ b.cursor.toNat < block.toNat

theorem run_lengthOf_outside (hroom : m.allocator.start.toNat + 16 < 2 ^ 64) (hout : m.allocator.Outside block) :
    (lengthOf block).run m = (.failed (.invalidAddress block), m) := by
  have hadd : checkedAdd m.allocator.start metadata = some (m.allocator.start + metadata) := checkedAdd_of_lt hroom
  have hfirst : (m.allocator.start + metadata).toNat = m.allocator.start.toNat + 16 := toNat_add_of_lt hroom
  have hinvalid : block < m.allocator.start + metadata ∨ m.allocator.cursor < block := by
    rw [UInt64.lt_iff_toNat_lt, UInt64.lt_iff_toNat_lt, hfirst]
    exact hout
  simp only [lengthOf, Action.run_bind, Action.run_allocator, Action.add, hadd, Action.run_orTrap_some, if_pos hinvalid,
    Action.run_fail]

theorem run_reallocate_outside (hroom : m.allocator.start.toNat + 16 < 2 ^ 64) (hout : m.allocator.Outside block)
    (n : UInt64) : (reallocate block n).run m = (.failed (.invalidAddress block), m) := by
  rw [reallocate, Action.run_bind, run_lengthOf_outside hroom hout]

theorem run_free_outside (hroom : m.allocator.start.toNat + 16 < 2 ^ 64) (hout : m.allocator.Outside block) :
    (free block).run m = (.failed (.invalidAddress block), m) := by
  rw [free, Action.run_bind, run_lengthOf_outside hroom hout]

/-! ## Errors leave the machine as it was -/

theorem failsClean_carve (h : isPowerOfTwo m.allocator.align = true) (n : UInt64) : (carve n).FailsClean m := by
  intro e m' hrun
  rcases run_carve h n with ⟨_, _, -, -, -, hdone⟩ | ⟨-, hfailed⟩
  · cases hrun.symm.trans hdone
  · cases hrun.symm.trans hfailed
    rfl

theorem failsClean_resizeLast (block : Address) (n : UInt64) : (resizeLast block n).FailsClean m := by
  refine Action.FailsClean.bind_of_unchanged rfl fun b => Action.FailsClean.bind_of_unchanged ?_ fun stop => ?_
  · cases b.stopOf? block n <;> rfl
  · refine Action.Infallible.failsClean (fun m e m' hrun => ?_) m
    cases hrun

theorem failsClean_reallocate (h : isPowerOfTwo m.allocator.align = true) (block : Address) (n : UInt64) :
    (reallocate block n).FailsClean m := by
  refine Action.FailsClean.bind_of_unchanged (unchanged_lengthOf block m) fun len => ?_
  refine Action.FailsClean.bind_of_unchanged (unchanged_isLast block len m) fun last => ?_
  split_ifs
  · exact failsClean_resizeLast block n
  · refine Action.Infallible.failsClean (fun m e m' hrun => ?_) m
    cases hrun
  · refine Action.FailsClean.bind_infallible (failsClean_carve h n) fun moved m e m' hrun => ?_
    cases hrun

theorem failsClean_free (block : Address) : (free block).FailsClean m := by
  refine Action.FailsClean.bind_of_unchanged (unchanged_lengthOf block m) fun len => ?_
  refine Action.FailsClean.bind_of_unchanged (unchanged_isLast block len m) fun last => ?_
  split_ifs <;> exact Action.Infallible.failsClean (fun m e m' hrun => by cases hrun) m

end Bump

namespace BumpHeap

open Bump

/-- **A bump allocator fails exactly when the request does not fit.** Take a fresh allocator and let a program allocate,
resize and give back blocks and write into its blocks, in any order. At every state, with `place` the least multiple of
the alignment that leaves room for the metadata above the cursor: a new block is placed there if it ends in the region;
the last block is resized where it is if it ends in the region; any other block is resized where it is if it does not
grow, and moves if a new block of that length would be placed. Whatever is refused is out of memory. An address below the
first place for a block or above the cursor is refused as no block; and no error of any operation, on any address,
changes anything. -/
theorem fails_exactly_without_room (start len align : UInt64) (hroom : start.toNat + 16 < 2 ^ 64) (m : Machine Bump)
    (hfresh : Bump.ofRegion start len align = .ok m.allocator) (calls : List BumpCall) :
    let h := BumpHeap.run { machine := m } calls
    let cursor := h.machine.allocator.cursor.toNat
    let stop := start.toNat + len.toNat
    ∃ place, IsLeast {a | align.toNat ∣ a ∧ cursor + 16 ≤ a} place ∧
    (∀ n, Grants (carve n) h.machine n place (place + n.toNat ≤ stop)) ∧
    (∀ x ∈ h.live, ∀ n,
      (x.addr.toNat + x.len.toNat = cursor →
        Grants (reallocate x.addr n) h.machine n x.addr.toNat (x.addr.toNat + n.toNat ≤ stop)) ∧
      (x.addr.toNat + x.len.toNat ≠ cursor → n ≤ x.len →
        Grants (reallocate x.addr n) h.machine n x.addr.toNat True) ∧
      (x.addr.toNat + x.len.toNat ≠ cursor → x.len < n →
        Grants (reallocate x.addr n) h.machine n place (∃ addr m', (carve n).run h.machine = (.done addr, m')))) ∧
    (∀ block : Address, block.toNat < start.toNat + 16 ∨ cursor < block.toNat →
      (∀ n, (reallocate block n).run h.machine = (.failed (.invalidAddress block), h.machine)) ∧
      (free block).run h.machine = (.failed (.invalidAddress block), h.machine)) ∧
    (∀ n, (carve n).FailsClean h.machine) ∧
    ∀ block, (∀ n, (reallocate block n).FailsClean h.machine) ∧ (free block).FailsClean h.machine := by
  intro h cursor stop
  obtain ⟨hinv, hregion⟩ := run_inv (inv_of_ofRegion hfresh) calls
  obtain ⟨hstart, hstop, halign⟩ := Bump.toNat_of_ofRegion hfresh
  rw [← hregion.start_eq] at hstart
  rw [← hregion.stop_eq] at hstop
  rw [← hregion.align_eq] at halign
  refine ⟨h.machine.allocator.placement, ?_, fun n => ?_, fun x hx n => ⟨fun hlast => ?_, fun hlast hn => ?_,
    fun hlast hn => ?_⟩, fun block hout => ⟨fun n => ?_, ?_⟩, fun n => failsClean_carve hinv.power n,
    fun block => ⟨fun n => failsClean_reallocate hinv.power block n, failsClean_free block⟩⟩
  · rw [← halign]
    exact isLeast_placement hinv.power
  · rw [show stop = _ from hstop.symm]
    exact grants_carve hinv.power n
  · rw [show stop = _ from hstop.symm]
    exact grants_resize (hinv.holds x hx) hlast n
  · exact grants_shrink (hinv.holds x hx) hlast hn
  · exact grants_move hinv.power (hinv.holds x hx) hlast hn
  · exact run_reallocate_outside (by rw [hstart]; exact hroom) (by rw [Outside, hstart]; exact hout) n
  · exact run_free_outside (by rw [hstart]; exact hroom) (by rw [Outside, hstart]; exact hout)

/-- a region of two pages around the middle of the address space, where its only block is -/
def middle : Bump := ⟨0x7ffffffffffff000, 0x8000000000001000, 0x7ffffffffffff000, 0x8000000000000000⟩

/-- The block takes a whole page and no byte more; for a second one, however short, the next multiple of the alignment
would lie outside the address space. -/
theorem middle_fails_exactly_without_room :
    (0x7ffffffffffff000 : UInt64).toNat + 16 < 2 ^ 64 ∧
    Bump.ofRegion 0x7ffffffffffff000 0x2000 0x8000000000000000 = .ok middle ∧
    let h := BumpHeap.run { machine := { allocator := middle } } [.allocate 8]
    h.live = [⟨0x8000000000000000, 8⟩] ∧
    (∃ m', (reallocate 0x8000000000000000 0x1000).run h.machine = (.done 0x8000000000000000, m')) ∧
    (reallocate 0x8000000000000000 0x1001).run h.machine = (.failed (.outOfMemory 0x1001), h.machine) ∧
    (carve 0).run h.machine = (.failed (.outOfMemory 0), h.machine) ∧
    (free 0x10).run h.machine = (.failed (.invalidAddress 0x10), h.machine) := by
  obtain ⟨place, hplace, hcarve, hlive, hout, -⟩ := fails_exactly_without_room 0x7ffffffffffff000 0x2000
    0x8000000000000000 (by decide) { allocator := middle } rfl [.allocate 8]
  have hcursor : (BumpHeap.run { machine := { allocator := middle } } [.allocate 8]).machine.allocator.cursor =
    0x8000000000000008 := by decide +kernel
  have hmem : (⟨0x8000000000000000, 8⟩ : Block) ∈
      (BumpHeap.run { machine := { allocator := middle } } [.allocate 8]).live := by decide +kernel
  rw [hcursor] at hplace hlive hout
  have hlast := fun n => (hlive _ hmem n).1 rfl
  refine ⟨by decide, rfl, by decide +kernel, ?_, (hlast 0x1001).refused (by decide), (hcarve 0).refused ?_,
    (hout 0x10 (by decide)).2⟩
  · obtain ⟨addr, m', hrun⟩ := (hlast 0x1000).done_iff.mpr (by decide)
    obtain rfl := UInt64.toNat_inj.mp ((hlast 0x1000).place_eq addr m' hrun)
    exact ⟨m', hrun⟩
  · obtain ⟨⟨⟨k, rfl⟩, hroom⟩, -⟩ := hplace
    simp only [UInt64.reduceToNat] at hroom ⊢
    omega

end BumpHeap

end AddressSanitizer
