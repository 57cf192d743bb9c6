/-
Runs of a program on a bump allocator. A program allocates, resizes and gives back blocks and writes into the blocks in
use, in any order and with any lengths; `BumpHeap` is the machine together with the list of those blocks. What `Bump.Inv`
says of the two holds along every run, and it is the contract of a heap allocator: blocks are aligned and recorded, lie
apart from each other with their metadata, and no operation on one of them touches the bytes of another.

- `Inv.step`: one call keeps the invariant, and every block that it is not about.
- `run_inv`: so does a run, by induction on its calls.
- `run_honours_contract`: the contract, at every state of every run.

The program is assumed to keep to its side: it resizes and gives back blocks in use only, and writes into them only.
-/
import Mathlib.Tactic
import AddressSanitizer.Proofs.BumpBlocks

namespace AddressSanitizer

/-- what a program does with a bump allocator -/
inductive BumpCall where
  | allocate (len : UInt64)
  | reallocate (block : Address) (len : UInt64)
  | free (block : Address)
  /-- writes bytes, the first one at `addr` -/
  | write (addr : Address) (bytes : List UInt8)
  deriving DecidableEq, Repr

/-- the call resizes the block, gives it back or writes into it -/
def BumpCall.Concerns (x : Block) : BumpCall → Prop
  | allocate _ => False
  | reallocate block _ => block = x.addr
  | free block => block = x.addr
  | write addr bytes => x.addr.toNat ≤ addr.toNat ∧ addr.toNat + bytes.length ≤ x.stop

instance (x : Block) (call : BumpCall) : Decidable (call.Concerns x) := by
  cases call <;> unfold BumpCall.Concerns <;> infer_instance

/-- a machine, and the blocks in use on it -/
structure BumpHeap where
  machine : Machine Bump
  live : List Block := []

namespace BumpHeap

variable {h : BumpHeap} {x y : Block}

/-- An allocation may always be asked for; every other call must concern a block in use. -/
def Allowed (h : BumpHeap) : BumpCall → Prop
  | .allocate _ => True
  | call => ∃ x ∈ h.live, call.Concerns x

instance (h : BumpHeap) (call : BumpCall) : Decidable (h.Allowed call) := by
  cases call <;> unfold Allowed <;> infer_instance

/-- What a call does to the machine and to the blocks in use; one that fails leaves them in use. -/
def perform (h : BumpHeap) : BumpCall → BumpHeap
  | .allocate len =>
    match (Bump.carve len).run h.machine with
    | (.done addr, machine) => { machine, live := ⟨addr, len⟩ :: h.live }
    | (_, machine) => { h with machine }
  | .reallocate block len =>
    match (Bump.reallocate block len).run h.machine with
    | (.done addr, machine) => { machine, live := ⟨addr, len⟩ :: h.live.filter (·.addr ≠ block) }
    | (_, machine) => { h with machine }
  | .free block =>
    match (Bump.free block).run h.machine with
    | (.done (), machine) => { machine, live := h.live.filter (·.addr ≠ block) }
    | (_, machine) => { h with machine }
  | .write addr bytes => { h with machine := { h.machine with memory := h.machine.memory.writeBytes addr bytes } }

/-- a call, unless the program has no right to it -/
def step (h : BumpHeap) (call : BumpCall) : BumpHeap := if h.Allowed call then h.perform call else h

def run (h : BumpHeap) (calls : List BumpCall) : BumpHeap := calls.foldl step h

/-- the invariant of the allocator, for the blocks in use -/
def Inv (h : BumpHeap) : Prop := h.machine.allocator.Inv h.machine.memory h.live

/-- The block is still in use, with the bytes it had. -/
structure Keeps (h h' : BumpHeap) (y : Block) : Prop where
  mem : y ∈ h'.live
  bytes : ∀ a : Address, y.addr.toNat ≤ a.toNat → a.toNat < y.stop →
    h'.machine.memory.read .program a = h.machine.memory.read .program a

theorem keeps_of_sameOutside {h' : BumpHeap} {F : Footprint} (hy : y ∈ h'.live)
    (hsame : h.machine.memory.SameOutside F h'.machine.memory) (hoff : F.Avoids y.addr.toNat y.stop) : h.Keeps h' y :=
  ⟨hy, fun a h1 h2 => hsame _ a (hoff a h1 h2)⟩

/-- A fresh allocator has its cursor at the start of its region, and no block is in use. -/
theorem inv_of_ofRegion {m : Machine Bump} {start len align : UInt64} (h : Bump.ofRegion start len align = .ok m.allocator) :
    Inv { machine := m } := by
  obtain ⟨hpower, hsum, hb⟩ := Bump.ofRegion_eq_ok_iff.mp h
  refine ⟨?_, ?_, ?_, by simp, List.Pairwise.nil⟩ <;> rw [hb]
  · exact hpower
  · show start.toNat ≤ (start + len).toNat
    rw [toNat_add_of_lt hsum]
    omega

/-! ## One call -/

/-- What a call leaves behind: the invariant, the region, and every block that the call is not about. -/
structure Preserved (h h' : BumpHeap) (call : BumpCall) : Prop where
  inv : h'.Inv
  region : h.machine.allocator.SameRegion h'.machine.allocator
  keeps : ∀ y ∈ h.live, ¬call.Concerns y → h.Keeps h' y

theorem Preserved.refl (hinv : h.Inv) (call : BumpCall) : h.Preserved h call :=
  ⟨hinv, Bump.SameRegion.refl _, fun _ hy _ => ⟨hy, fun _ _ _ => rfl⟩⟩

namespace Inv

theorem allocate (hinv : h.Inv) (len : UInt64) : h.Preserved (h.perform (.allocate len)) (.allocate len) := by
  rcases Bump.Inv.allocate hinv len with ⟨addr, m', hrun, hregion, hinv', habove, hsame⟩ | hrun
  · simp only [perform, hrun]
    refine ⟨hinv', hregion, fun y hy _ => keeps_of_sameOutside (List.mem_cons_of_mem _ hy) hsame ?_⟩
    exact Footprint.avoids_program (Or.inr (hinv.holds y hy).stop_le)
  · simp only [perform, hrun]
    exact Preserved.refl hinv _

theorem reallocate (hinv : h.Inv) (hx : x ∈ h.live) (len : UInt64) :
    h.Preserved (h.perform (.reallocate x.addr len)) (.reallocate x.addr len) := by
  rcases Bump.Inv.reallocate hinv hx len with ⟨addr, m', hrun, hregion, hinv', hsame, -⟩ | hrun
  · simp only [perform, hrun]
    refine ⟨hinv', hregion, fun y hy hne => ?_⟩
    have hne : x.addr ≠ y.addr := hne
    refine keeps_of_sameOutside (List.mem_cons_of_mem _ (by simpa [hy] using Ne.symm hne)) hsame ?_
    have hy' := hinv.holds y hy
    have hx' := (hinv.holds x hx).saved_add_le
    have := hy'.saved_add_le
    have := x.addr_le_stop
    refine (Footprint.avoids_program ?_).union (Footprint.avoids_program (Or.inr hy'.stop_le))
    rcases hinv.apart_of_ne hx hy hne with hxy | hyx <;> omega
  · simp only [perform, hrun]
    exact Preserved.refl hinv _

theorem free (hinv : h.Inv) (hx : x ∈ h.live) : h.Preserved (h.perform (.free x.addr)) (.free x.addr) := by
  obtain ⟨b', hrun, hregion, hinv'⟩ := Bump.Inv.free hinv hx
  simp only [perform, hrun]
  refine ⟨hinv', hregion, fun y hy hne => ⟨?_, fun _ _ _ => rfl⟩⟩
  have hne : x.addr ≠ y.addr := hne
  simpa [hy] using Ne.symm hne

/-- What lies in a block in use keeps off the metadata of every block in use. -/
theorem avoids_metadata (hinv : h.Inv) (hx : x ∈ h.live) {lo hi : Nat} (hlo : x.addr.toNat ≤ lo) (hhi : hi ≤ x.stop)
    (hy : y ∈ h.live) : (Footprint.program lo hi).Avoids (y.addr.toNat - 16) y.addr.toNat := by
  apply Footprint.avoids_program
  by_cases hxy : x = y
  · exact Or.inr (by rw [← hxy]; exact hlo)
  · have := (hinv.holds x hx).saved_add_le
    have := (hinv.holds y hy).saved_add_le
    have := y.addr_le_stop
    rcases hinv.apart.forall hx hy hxy with hxy | hyx <;> omega

theorem write (hinv : h.Inv) (hx : x ∈ h.live) {addr : Address} {bytes : List UInt8}
    (hin : (BumpCall.write addr bytes).Concerns x) :
    h.Preserved (h.perform (.write addr bytes)) (.write addr bytes) := by
  obtain ⟨hlo, hhi⟩ : x.addr.toNat ≤ addr.toNat ∧ addr.toNat + bytes.length ≤ x.stop := hin
  have hxstop := (hinv.holds x hx).stop_le
  have hcursor := h.machine.allocator.cursor.toNat_lt
  have hsame : h.machine.memory.SameOutside _ (h.machine.memory.writeBytes addr bytes) :=
    Memory.sameOutside_writeBytes (by omega)
  refine ⟨hinv.keep (List.Sublist.refl _) (Bump.SameRegion.refl _) hinv.start_le hinv.le_stop
    (fun y hy => (hinv.holds y hy).stop_le) hsame fun y hy => hinv.avoids_metadata hx hlo hhi hy, Bump.SameRegion.refl _,
    fun y hy hout => ?_⟩
  · refine keeps_of_sameOutside hy hsame (Footprint.avoids_program ?_)
    have hxy : x ≠ y := by
      rintro rfl
      exact hout ⟨hlo, hhi⟩
    have := (hinv.holds x hx).saved_add_le
    have := (hinv.holds y hy).saved_add_le
    rcases hinv.apart.forall hx hy hxy with hxy | hyx <;> omega

/-- Every call keeps the invariant, and every block that it is not about. -/
theorem step (hinv : h.Inv) (call : BumpCall) : h.Preserved (h.step call) call := by
  unfold BumpHeap.step
  split_ifs with hallowed
  · cases call with
    | allocate len => exact hinv.allocate len
    | reallocate block len =>
      obtain ⟨x, hx, rfl⟩ := hallowed
      exact hinv.reallocate hx len
    | free block =>
      obtain ⟨x, hx, rfl⟩ := hallowed
      exact hinv.free hx
    | write addr bytes =>
      obtain ⟨x, hx, hin⟩ := hallowed
      exact hinv.write hx hin
  · exact Preserved.refl hinv call

end Inv

/-! ## Runs -/

/-- A run keeps the invariant, and the allocator its region. -/
theorem run_inv (hinv : h.Inv) (calls : List BumpCall) :
    (h.run calls).Inv ∧ h.machine.allocator.SameRegion (h.run calls).machine.allocator := by
  induction calls generalizing h with
  | nil => exact ⟨hinv, Bump.SameRegion.refl _⟩
  | cons call calls ih =>
    have hstep := hinv.step call
    obtain ⟨hrest, hregion⟩ := ih hstep.inv
    exact ⟨hrest, hstep.region.trans hregion⟩

/-- **The contract of a heap allocator, along every run.** Take a fresh allocator and let a program allocate, resize and
give back blocks and write into its blocks, in any order. At every state the cursor lies in the region, and the blocks in
use are aligned, recorded, and apart from each other with their metadata, between the start of the region and the cursor.
The next call leaves alone the blocks that it is not about; and a block that is resized keeps its bytes, as far as they
fit. -/
theorem run_honours_contract (start len align : UInt64) (m : Machine Bump)
    (hfresh : Bump.ofRegion start len align = .ok m.allocator) (calls : List BumpCall) :
    let h := BumpHeap.run { machine := m } calls
    (start.toNat ≤ h.machine.allocator.cursor.toNat ∧
      h.machine.allocator.cursor.toNat ≤ start.toNat + len.toNat) ∧
    (∀ x ∈ h.live, x.addr.toNat % align.toNat = 0 ∧ h.machine.memory.readWord (x.addr - 8) = x.len ∧
      start.toNat + 16 ≤ x.addr.toNat ∧ x.addr.toNat + x.len.toNat ≤ h.machine.allocator.cursor.toNat) ∧
    (h.live.Pairwise fun x y => x.addr.toNat + x.len.toNat + 16 ≤ y.addr.toNat ∨
      y.addr.toNat + y.len.toNat + 16 ≤ x.addr.toNat) ∧
    (∀ call, ∀ y ∈ h.live, ¬call.Concerns y → h.Keeps (h.step call) y) ∧
    ∀ x ∈ h.live, ∀ newLen addr m', (Bump.reallocate x.addr newLen).run h.machine = (.done addr, m') →
      ∀ i, i < min x.len.toNat newLen.toNat →
        m'.memory.read .program (addr + i.toUInt64) = h.machine.memory.read .program (x.addr + i.toUInt64) := by
  intro h
  obtain ⟨hinv, hregion⟩ := run_inv (inv_of_ofRegion hfresh) calls
  obtain ⟨hstart, hstop, halign⟩ := Bump.toNat_of_ofRegion hfresh
  rw [← hregion.start_eq] at hstart
  rw [← hregion.stop_eq] at hstop
  rw [← hregion.align_eq] at halign
  refine ⟨⟨?_, ?_⟩, fun x hx => ?_, ?_, fun call y hy hout => (hinv.step call).keeps y hy hout, ?_⟩
  · rw [← hstart]
    exact hinv.start_le
  · rw [← hstop]
    exact hinv.le_stop
  · have hhold := hinv.holds x hx
    have hsaved := hhold.start_le_saved
    have hroom := hhold.saved_add_le
    rw [hstart] at hsaved
    refine ⟨?_, hhold.length_eq, by omega, hhold.stop_le⟩
    rw [← halign]
    exact hhold.aligned
  · refine hinv.apart.imp_of_mem fun {x y} hx hy hxy => ?_
    have hxroom := (hinv.holds x hx).saved_add_le
    have hyroom := (hinv.holds y hy).saved_add_le
    rw [Block.Apart, Block.stop, Block.stop] at hxy
    omega
  · intro x hx newLen addr m' hrun i hi
    rcases Bump.Inv.reallocate hinv hx newLen with ⟨addr', m₁, hrun', -, -, -, hbytes⟩ | hfailed
    · rw [hrun] at hrun'
      cases hrun'
      exact hbytes i hi
    · rw [hrun] at hfailed
      cases hfailed

/-- a region of one kilobyte, its blocks at multiples of sixteen -/
def kilobyte : Bump := ⟨0x1000, 0x1400, 0x1000, 16⟩

/-- The second of two blocks is grown in place, an empty block is put behind it, the first block is moved behind that,
and the empty block is given back, which is not the last one: the cursor stays behind the block that was moved. -/
theorem kilobyte_run_honours_contract :
    Bump.ofRegion 0x1000 0x400 16 = .ok kilobyte ∧
    let h := BumpHeap.run { machine := { allocator := kilobyte } }
      [.allocate 24, .allocate 8, .reallocate 0x1040 40, .allocate 0, .write 0x1018 [7], .reallocate 0x1010 48, .free 0x1080]
    h.live = [⟨0x1090, 48⟩, ⟨0x1040, 40⟩] ∧ h.machine.allocator.cursor = 0x10c0 ∧
    (h.live.Pairwise fun x y => x.addr.toNat + x.len.toNat + 16 ≤ y.addr.toNat ∨
      y.addr.toNat + y.len.toNat + 16 ≤ x.addr.toNat) :=
  ⟨rfl, by decide +kernel, by decide +kernel, (run_honours_contract 0x1000 0x400 16 { allocator := kilobyte } rfl _).2.2.1⟩

end BumpHeap

end AddressSanitizer
