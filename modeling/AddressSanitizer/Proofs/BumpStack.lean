/-
Last-in-first-out use of a bump allocator. A program that resizes and gives back only the most recent of the blocks that
it has not yet given back uses the allocator as a stack, and then none of the memory is lost, however deep it nests, and
whatever else fails or is in use below.

A `Frame` is a block of the program together with the place where the cursor stood just before the block was carved.
`Stacked` is the invariant: the topmost block ends at the cursor, each block has saved the place of its frame, and the
block below it ends there, down to where the program began.

- `Inv.step`: one call keeps the frames stacked.
- `run_inv`: so does a sequence of calls, by induction on it.
- `last_in_first_out_reclaims`: resizing never moves a block, giving one back puts the cursor where it stood before, and
  once all are given back, as much of the region remains as in the beginning.
-/
import Mathlib.Tactic
import AddressSanitizer.Proofs.BumpRuns

namespace AddressSanitizer

/-- a block that is not yet given back, and where the cursor stood before it was carved -/
structure Frame where
  block : Address
  before : Address
  deriving DecidableEq, Repr

/-- a heap, and the frames of the calls so far, the most recent one first -/
structure BumpStack where
  heap : BumpHeap
  frames : List Frame := []

/-- Each block ends where the next one has saved the cursor: the first one at `top`, and the last one has saved
`bottom`. -/
inductive Stacked (memory : Memory) (live : List Block) (bottom : Nat) : List Frame → Nat → Prop
  | nil : Stacked memory live bottom [] bottom
  | cons {f : Frame} {frames : List Frame} {top : Nat} {x : Block} (mem : x ∈ live) (addr_eq : x.addr = f.block)
    (stop_eq : x.stop = top) (saved_eq : x.saved memory = f.before.toNat)
    (rest : Stacked memory live bottom frames f.before.toNat) : Stacked memory live bottom (f :: frames) top

/-- The frames stay stacked as long as the blocks up to the top stay in use, with the cursors that they have saved. -/
theorem Stacked.keep {memory memory' : Memory} {live live' : List Block} {bottom top : Nat} {frames : List Frame}
    (h : Stacked memory live bottom frames top) (hroom : ∀ x ∈ live, x.saved memory ≤ x.stop)
    (hkeep : ∀ x ∈ live, x.stop ≤ top → x ∈ live' ∧ x.saved memory' = x.saved memory) :
    Stacked memory' live' bottom frames top := by
  induction h with
  | nil => exact Stacked.nil
  | @cons f frames top x hx haddr hstop hsaved _ ih =>
    obtain ⟨hx', hsaved'⟩ := hkeep x hx hstop.le
    refine Stacked.cons hx' haddr hstop (hsaved'.trans hsaved) (ih fun y hy hle => hkeep y hy ?_)
    calc y.stop ≤ f.before.toNat := hle
      _ = x.saved memory := hsaved.symm
      _ ≤ x.stop := hroom x hx
      _ = top := hstop

namespace BumpStack

variable {s : BumpStack} {b : Bump} {f : Frame} {frames : List Frame}

/-- An allocation may always be asked for, and any block in use be written into; only the most recent block may be resized
or given back. -/
def Allowed (s : BumpStack) : BumpCall → Prop
  | .allocate _ => True
  | .reallocate block _ | .free block => ∃ f ∈ s.frames.head?, f.block = block
  | .write addr bytes => s.heap.Allowed (.write addr bytes)

instance (s : BumpStack) : DecidablePred s.Allowed
  | .allocate _ => instDecidableTrue
  | .reallocate block _ | .free block => inferInstanceAs (Decidable (∃ f ∈ s.frames.head?, f.block = block))
  | .write addr bytes => inferInstanceAs (Decidable (s.heap.Allowed (.write addr bytes)))

/-- The frames after a call: a new block goes on top, one that moved is followed, and one that is given back is gone. -/
def framesAfter (s : BumpStack) : BumpCall → List Frame
  | .allocate len =>
    match (Bump.carve len).run s.heap.machine with
    | (.done block, _) => ⟨block, s.heap.machine.allocator.cursor⟩ :: s.frames
    | _ => s.frames
  | .reallocate block len =>
    match (Bump.reallocate block len).run s.heap.machine with
    | (.done moved, _) => s.frames.modifyHead fun f => { f with block := moved }
    | _ => s.frames
  | .free block =>
    match (Bump.free block).run s.heap.machine with
    | (.done (), _) => s.frames.tail
    | _ => s.frames
  | .write .. => s.frames

def perform (s : BumpStack) (call : BumpCall) : BumpStack := { heap := s.heap.perform call, frames := s.framesAfter call }

/-- a call, unless the program has no right to it -/
def step (s : BumpStack) (call : BumpCall) : BumpStack := if s.Allowed call then s.perform call else s

def run (s : BumpStack) (calls : List BumpCall) : BumpStack := calls.foldl step s

/-- The region is that of the allocator in the beginning, and the frames are stacked from its cursor up to the cursor as it
is now. -/
structure Inv (s : BumpStack) (b : Bump) : Prop where
  heap : s.heap.Inv
  region : b.SameRegion s.heap.machine.allocator
  stacked : Stacked s.heap.machine.memory s.heap.live b.cursor.toNat s.frames s.heap.machine.allocator.cursor.toNat

/-- In the beginning there are no frames. -/
theorem inv_of_heap {h : BumpHeap} (hinv : h.Inv) : Inv { heap := h } h.machine.allocator :=
  ⟨hinv, Bump.SameRegion.refl _, Stacked.nil⟩

namespace Inv

/-- The topmost frame is about the block at the cursor. -/
theorem last (hs : s.Inv b) (hframes : s.frames = f :: frames) :
    ∃ x ∈ s.heap.live, x.addr = f.block ∧ x.stop = s.heap.machine.allocator.cursor.toNat ∧
      x.saved s.heap.machine.memory = f.before.toNat ∧
      Stacked s.heap.machine.memory s.heap.live b.cursor.toNat frames f.before.toNat := by
  have hstacked := hs.stacked
  rw [hframes] at hstacked
  cases hstacked with
  | cons hx haddr hstop hsaved hrest => exact ⟨_, hx, haddr, hstop, hsaved, hrest⟩

/-- Without frames the cursor stands where it stood in the beginning. -/
theorem cursor_eq (hs : s.Inv b) (hempty : s.frames = []) : s.heap.machine.allocator.cursor = b.cursor := by
  have hstacked := hs.stacked
  rw [hempty] at hstacked
  generalize htop : s.heap.machine.allocator.cursor.toNat = top at hstacked
  cases hstacked with
  | nil => exact UInt64.toNat_inj.mp htop

theorem saved_le_stop (hs : s.Inv b) : ∀ x ∈ s.heap.live, x.saved s.heap.machine.memory ≤ x.stop := by
  intro x hx
  have hroom := (hs.heap.holds x hx).saved_add_le
  have := x.addr_le_stop
  omega

/-- What lies below the topmost block stays stacked when that block is resized or given back. -/
theorem keep_below (hs : s.Inv b) {x : Block} (hx : x ∈ s.heap.live)
    (hrest : Stacked s.heap.machine.memory s.heap.live b.cursor.toNat frames (x.saved s.heap.machine.memory))
    {memory : Memory} {live : List Block} (hlive : ∀ y ∈ s.heap.live, y.addr ≠ x.addr → y ∈ live)
    (hsame : s.heap.machine.memory.SameOutside (Footprint.program (x.addr.toNat - 8) x.addr.toNat) memory) :
    Stacked memory live b.cursor.toNat frames (x.saved s.heap.machine.memory) := by
  have hroom := (hs.heap.holds x hx).saved_add_le
  refine hrest.keep hs.saved_le_stop fun y hy hle => ?_
  have hspan := y.addr_le_stop
  constructor
  · refine hlive y hy fun heq => ?_
    rw [heq] at hspan
    omega
  · exact (hs.heap.holds y hy).saved_frame hsame (Footprint.avoids_program (by omega))

/-! ## One call -/

/-- A new block saves the cursor, which is where the stack ended. -/
theorem allocate (hs : s.Inv b) (len : UInt64) : (s.perform (.allocate len)).Inv b := by
  have hcall := hs.heap.allocate len
  refine ⟨hcall.inv, hs.region.trans hcall.region, ?_⟩
  rcases Bump.run_carve hs.heap.power len with ⟨addr, stop, -, hstop, -, hrun⟩ | ⟨-, hrun⟩
  · rcases Bump.Inv.allocate hs.heap len with ⟨addr', m', hrun', -, -, -, hsame⟩ | hfailed
    · obtain ⟨rfl, rfl⟩ : addr = addr' ∧ _ = m' := by simpa using hrun.symm.trans hrun'
      simp only [perform, framesAfter, BumpHeap.perform, hrun]
      refine Stacked.cons (List.mem_cons_self ..) rfl hstop.symm ?_ (hs.stacked.keep hs.saved_le_stop fun y hy hle => ?_)
      · rw [Block.saved, Memory.readWord_writeWord]
      · have hspan := y.addr_le_stop
        exact ⟨List.mem_cons_of_mem _ hy,
          (hs.heap.holds y hy).saved_frame hsame (Footprint.avoids_program (Or.inr (by omega)))⟩
    · cases hrun.symm.trans hfailed
  · simp only [perform, framesAfter, BumpHeap.perform, hrun]
    exact hs.stacked

/-- The topmost block is the last one, so it is resized where it is, and keeps the cursor that it has saved. -/
theorem reallocate (hs : s.Inv b) (hframes : s.frames = f :: frames) (len : UInt64) :
    (s.perform (.reallocate f.block len)).Inv b := by
  obtain ⟨x, hx, haddr, hlast, hsaved, hrest⟩ := hs.last hframes
  have hhold := hs.heap.holds x hx
  have hrun := Bump.run_reallocate hhold len
  rw [if_pos hlast] at hrun
  rw [← haddr]
  have hcall := hs.heap.reallocate hx len
  refine ⟨hcall.inv, hs.region.trans hcall.region, ?_⟩
  rcases s.heap.machine.allocator.stopOf?_cases x.addr len with ⟨stop, hstop?, hstop, -⟩ | ⟨hnone, -⟩
  · rw [hstop?] at hrun
    simp only [perform, framesAfter, BumpHeap.perform, hrun, hframes, List.modifyHead_cons]
    have hsame := hhold.sameOutside_length len
    refine Stacked.cons (List.mem_cons_self ..) rfl hstop.symm ?_ ?_
    · calc Block.saved ⟨x.addr, len⟩ _ = x.saved s.heap.machine.memory :=
          hhold.saved_frame hsame (Footprint.avoids_program (by omega))
        _ = f.before.toNat := hsaved
    · rw [← hsaved] at hrest ⊢
      exact hs.keep_below hx hrest (fun y hy hne => List.mem_cons_of_mem _ (by simpa [hy] using hne)) hsame
  · rw [hnone] at hrun
    simp only [perform, framesAfter, BumpHeap.perform, hrun]
    exact hs.stacked

/-- With the topmost block given back, the cursor stands where the block below it ends. -/
theorem free (hs : s.Inv b) (hframes : s.frames = f :: frames) : (s.perform (.free f.block)).Inv b := by
  obtain ⟨x, hx, haddr, hlast, hsaved, hrest⟩ := hs.last hframes
  have hrun := Bump.run_free (hs.heap.holds x hx)
  rw [if_pos hlast] at hrun
  rw [← haddr]
  have hcall := hs.heap.free hx
  refine ⟨hcall.inv, hs.region.trans hcall.region, ?_⟩
  simp only [perform, framesAfter, BumpHeap.perform, hrun, hframes, List.tail_cons]
  rw [← hsaved] at hrest
  exact hs.keep_below hx hrest (fun y hy hne => by simpa [hy] using hne) (Memory.SameOutside.refl _ _)

/-- Writing into a block in use does not reach the cursors saved below the blocks. -/
theorem write (hs : s.Inv b) {x : Block} (hx : x ∈ s.heap.live) {addr : Address} {bytes : List UInt8}
    (hin : (BumpCall.write addr bytes).Concerns x) : (s.perform (.write addr bytes)).Inv b := by
  have hcall := hs.heap.write hx hin
  refine ⟨hcall.inv, hs.region.trans hcall.region, hs.stacked.keep hs.saved_le_stop fun y hy _ => ⟨hy, ?_⟩⟩
  obtain ⟨hlo, hhi⟩ := hin
  have hxstop := (hs.heap.holds x hx).stop_le
  have hcursor := s.heap.machine.allocator.cursor.toNat_lt
  exact (hs.heap.holds y hy).saved_frame (Memory.sameOutside_writeBytes (by omega))
    ((hs.heap.avoids_metadata hx hlo hhi hy).mono le_rfl (by omega))

/-- Every call keeps the frames stacked. -/
theorem step (hs : s.Inv b) (call : BumpCall) : (s.step call).Inv b := by
  unfold BumpStack.step
  split_ifs with hallowed
  · cases call with
    | allocate len => exact hs.allocate len
    | reallocate block len =>
      obtain ⟨f, hf, rfl⟩ := hallowed
      obtain ⟨frames, hframes⟩ := List.head?_eq_some_iff.mp hf
      exact hs.reallocate hframes len
    | free block =>
      obtain ⟨f, hf, rfl⟩ := hallowed
      obtain ⟨frames, hframes⟩ := List.head?_eq_some_iff.mp hf
      exact hs.free hframes
    | write addr bytes =>
      obtain ⟨x, hx, hin⟩ := hallowed
      exact hs.write hx hin
  · exact hs

end Inv

/-! ## Sequences of calls -/

/-- So does a sequence of calls. -/
theorem run_inv (hs : s.Inv b) (calls : List BumpCall) : (s.run calls).Inv b := by
  induction calls generalizing s with
  | nil => exact hs
  | cons call calls ih => exact ih (hs.step call)

/-- **Last in, first out, nothing is lost.** Take a bump allocator in any state that a program can bring it to, and let
the program allocate, write into blocks in use, and resize and give back the most recent block of this sequence that it
has not given back, with any lengths and whatever fails. At every state, a block that can be resized next and is stays
where it is, and giving it back puts the cursor where it stood just before the block was carved. When all blocks of the
sequence are given back, as much of the region remains as in the beginning. -/
theorem last_in_first_out_reclaims (start len align : UInt64) (m : Machine Bump)
    (hfresh : Bump.ofRegion start len align = .ok m.allocator) (before calls : List BumpCall) :
    let h := BumpHeap.run { machine := m } before
    let s := BumpStack.run { heap := h } calls
    (∀ f ∈ s.frames.head?,
      (∀ n moved m', (Bump.reallocate f.block n).run s.heap.machine = (.done moved, m') → moved = f.block) ∧
      (Bump.free f.block).run s.heap.machine = (.done (), { s.heap.machine with
        allocator := { s.heap.machine.allocator with cursor := f.before } })) ∧
    (s.frames = [] → s.heap.machine.allocator.remaining? = h.machine.allocator.remaining?) ∧
    h.machine.allocator.remaining?.isSome := by
  intro h s
  obtain ⟨hinv, -⟩ := BumpHeap.run_inv (BumpHeap.inv_of_ofRegion hfresh) before
  have hs : s.Inv h.machine.allocator := run_inv (inv_of_heap hinv) calls
  refine ⟨fun f hf => ?_, fun hempty => ?_, ?_⟩
  · obtain ⟨frames, hframes⟩ := List.head?_eq_some_iff.mp hf
    obtain ⟨x, hx, haddr, hlast, hsaved, -⟩ := hs.last hframes
    have hhold := hs.heap.holds x hx
    rw [← haddr]
    constructor
    · intro n moved m' hrun
      rw [Bump.run_reallocate hhold, if_pos hlast] at hrun
      cases hstop : s.heap.machine.allocator.stopOf? x.addr n with
      | some stop =>
        rw [hstop] at hrun
        cases hrun
        rfl
      | none =>
        rw [hstop] at hrun
        cases hrun
    · have hcursor : s.heap.machine.memory.readWord (x.addr - Bump.metadata) = f.before := UInt64.toNat_inj.mp hsaved
      rw [Bump.run_free hhold, if_pos hlast, hcursor]
  · have hcursor := hs.cursor_eq hempty
    rw [Bump.remaining?, Bump.remaining?, hs.region.stop_eq, hcursor]
  · obtain ⟨n, hn, -⟩ := Bump.exists_remaining hinv.le_stop
    rw [hn]
    rfl

/-- a block is grown, and above it one is shrunk to nothing, while other requests are too long -/
def nested : List BumpCall :=
  [.allocate 5, .allocate 0x1000, .reallocate 0x1060 40, .allocate 8, .write 0x1060 [1, 2], .reallocate 0x10a0 0x400,
    .reallocate 0x10a0 0]

/-- Two blocks on top of one that stays in use, above one that is lost: once they are given back, what remained remains. -/
theorem nested_last_in_first_out_reclaims :
    Bump.ofRegion 0x1000 0x400 16 = .ok BumpHeap.kilobyte ∧
    let h := BumpHeap.run { machine := { allocator := BumpHeap.kilobyte } } [.allocate 24, .allocate 8, .free 0x1010]
    let s := BumpStack.run { heap := h } nested
    let s' := BumpStack.run { heap := h } (nested ++ [.free 0x10a0, .free 0x1060])
    h.live = [⟨0x1040, 8⟩] ∧ s.frames = [⟨0x10a0, 0x1088⟩, ⟨0x1060, 0x1048⟩] ∧ s'.frames = [] ∧
    h.machine.allocator.remaining? = some 0x3b8 ∧
    s'.heap.machine.allocator.remaining? = h.machine.allocator.remaining? :=
  ⟨rfl, by decide +kernel, by decide +kernel, by decide +kernel, by decide +kernel,
    (last_in_first_out_reclaims 0x1000 0x400 16 { allocator := BumpHeap.kilobyte } rfl _ _).2.1 (by decide +kernel)⟩

end BumpStack

end AddressSanitizer
