/-
The heap never traps. An allocator that is asked about its own blocks only, and never traps on them, never makes the heap
operations trap: their sums stay in the address space because the blocks do, and the ranges that they poison are whole
granules because the recorded lengths are. This is shown of the run without a shadow map; the run with one answers alike.

- `HeapError.Allowed`: the errors that the operations on blocks in use may end with.
- `within_allocate`, `within_reallocate`, `within_free`: they end with no others, if the allocator is sound.
- `step_within`, `run_within`: the answers of calls on a heap without a shadow map.
- `Context.heap_never_traps`: on every run the heap answers, and the bytes that remain can be told.
-/
import Mathlib.Tactic
import AddressSanitizer.Proofs.Transparency

namespace AddressSanitizer

variable {A E ε α β : Type}

/-- What follows an action that was done does not make it worse. -/
theorem Action.within_bind {P : ε → Prop} {x : Action A ε α} {f : α → Action A ε β} {m : Machine A}
    (h : (x.run m).1.Within P) (hf : ∀ v m', x.run m = (.done v, m') → ((f v).run m').1.Within P) :
    ((x >>= f).run m).1.Within P := by
  rw [Action.run_bind]
  rcases hx : x.run m with ⟨v | e | t, m'⟩ <;> rw [hx] at h
  · exact hf v m' hx
  · exact h
  · exact h

/-- the errors of a heap operation on blocks in use: those of the allocator, and lengths that no block can have -/
def HeapError.Allowed (P : E → Prop) : HeapError E → Prop
  | allocator cause => P cause
  | sizeOverflow _ => True
  | invalidAddress _ => False

namespace Redzones

variable {r : Redzones} {shadow : Footprint} {Valid : A → Memory → List Block → Prop} {P : E → Prop} {m : Machine A}
  {live others : List UserBlock} {x : UserBlock} {len : UInt64} {size : BlockSize} [HeapAllocator A E]

section Untracked

variable (hc : HeapAllocator.Contract (A := A) shadow Valid) (hr : r.Valid)
  (h : r.Secured Valid m.allocator m.memory live)
include hc hr h

/-- Whatever block the allocator hands out, there is room for its redzones. -/
theorem within_handOut {ask : Action A E Address} (hsub : ∀ y ∈ others, y ∈ live)
    (hsize : r.blockSize? len = some size)
    (hask : HeapAllocator.Serves Valid Footprint.blocks ask m (live.map r.block) (others.map r.block)
      fun header => [⟨header, size.total⟩])
    (hwithin : (ask.run m).1.Within P) :
    ((r.handOut none ask len size.aligned).run m).1.Within (HeapError.Allowed P) := by
  rcases hrun : ask.run m with ⟨header | e | t, m₁⟩
  case done =>
    obtain ⟨user, m', -, hrun', -⟩ := run_handOut_of_done hc hr h hsub hsize hask hrun
    rw [hrun']
    trivial
  all_goals
    rw [hrun] at hwithin
    rw [run_handOut, hrun]
    exact hwithin

variable (hsound : HeapAllocator.Sound (A := A) P Valid)
include hsound

theorem within_allocate (len : UInt64) : ((r.allocate none len).run m).1.Within (HeapError.Allowed P) := by
  rw [run_allocate]
  cases hsize : r.blockSize? len with
  | none => trivial
  | some size =>
    exact within_handOut (m := { m with log := m.log.push (.alloc len) }) hc hr h (fun _ => id) hsize
      (hc.allocate _ h.valid) (hsound.allocate _ h.valid)

theorem within_reallocate (hx : x ∈ live) (len : UInt64) :
    ((r.reallocate none x.user len).run m).1.Within (HeapError.Allowed P) := by
  have hplaced := h.placed hc hr hx
  rw [run_reallocate_none (hplaced.user_ne_zero hr) hplaced.headerOf?_user]
  cases hsize : r.blockSize? len with
  | none => trivial
  | some size =>
    exact within_handOut (m := { m with log := m.log.push (.realloc x.user len) }) hc hr h
      (fun _ hy => (List.mem_filter.mp hy).1) hsize (serves_ask hc h hx _ _)
      (hsound.reallocate _ h.valid (List.mem_map_of_mem hx))

theorem within_free (hx : x ∈ live) : ((r.free none x.user).run m).1.Within (HeapError.Allowed P) := by
  have hfree := hsound.free (m := { m with log := m.log.push (.free x.user) }) h.valid (List.mem_map_of_mem hx)
  have hplaced := h.placed hc hr hx
  rw [run_free (hplaced.user_ne_zero hr) hplaced.headerOf?_user]
  rcases hrun : (HeapAllocator.free (r.block x).addr : Action A E Unit).run { m with log := m.log.push (.free x.user) }
    with ⟨_ | e | t, m₁⟩ <;> rw [hrun] at hfree
  · trivial
  · exact hfree
  · exact hfree

end Untracked

end Redzones

namespace RedzoneHeap

variable {r : Redzones} {shadow : Footprint} {Valid : A → Memory → List Block → Prop} {P : E → Prop}
  {h : RedzoneHeap A E} {call : HeapCall} [HeapAllocator A E]
  (hc : HeapAllocator.Contract (A := A) shadow Valid) (hr : r.Valid) (hsound : HeapAllocator.Sound (A := A) P Valid)
include hc hr hsound

/-- A call that the program has a right to is answered. -/
theorem within_act (hsecured : h.Secured r Valid) (hallowed : call.Allowed h.live) :
    ((call.act r none).run h.machine).1.Within (HeapError.Allowed P) := by
  cases call with
  | allocate len => exact Action.within_bind (Redzones.within_allocate hc hr hsecured hsound len) fun _ _ _ => trivial
  | reallocate user len =>
    refine Action.within_bind ?_ fun _ _ _ => trivial
    rcases hallowed with rfl | ⟨x, hx, rfl⟩
    · rw [Redzones.run_reallocate_zero]
      exact Redzones.within_allocate (m := { h.machine with log := h.machine.log.push (.realloc 0 len) }) hc hr hsecured
        hsound len
    · exact Redzones.within_reallocate hc hr hsecured hsound hx len
  | free user =>
    refine Action.within_bind ?_ fun _ _ _ => trivial
    rcases hallowed with rfl | ⟨x, hx, rfl⟩
    · rw [Redzones.run_free_zero]
      trivial
    · exact Redzones.within_free hc hr hsecured hsound hx
  | store addr bytes => trivial

theorem step_within (hsecured : h.Secured r Valid) (hbefore : ∀ answer ∈ h.answers, answer.Within (HeapError.Allowed P))
    (call : HeapCall) : ∀ answer ∈ (h.step r none call).answers, answer.Within (HeapError.Allowed P) := by
  by_cases hallowed : call.Allowed h.live
  · rw [step_of_allowed hallowed]
    have hanswer := within_act hc hr hsound hsecured hallowed
    exact List.forall_mem_append.mpr ⟨hbefore, List.forall_mem_singleton.mpr hanswer⟩
  · rw [step, if_neg hallowed]
    exact hbefore

theorem run_within (hsecured : h.Secured r Valid) (hbefore : ∀ answer ∈ h.answers, answer.Within (HeapError.Allowed P))
    (calls : List HeapCall) : ∀ answer ∈ (h.run r none calls).answers, answer.Within (HeapError.Allowed P) := by
  induction calls generalizing h with
  | nil => exact hbefore
  | cons call calls ih =>
    exact ih (step_preserved hc hr hsecured call).secured (step_within hc hr hsound hsecured hbefore call)

end RedzoneHeap

namespace Context

/-- **The heap never traps.** Take a context with a valid configuration, any shadow map with any bytes, and a fresh bump
allocator whose region is apart from the memory of the shadow map; it may end at the last address. Let a program allocate,
resize and give back blocks, with any lengths, and store into the blocks it holds. Every call ends without a trap: it is done,
or fails because there is not enough room or because no block can have that length. And at every state the number of bytes
that remain can be told. -/
theorem heap_never_traps (c : Context) (hconfig : c.config.validate = .ok ()) (start len align : UInt64)
    (halign : 8 ≤ align.toNat) (m : Machine Bump) (hfresh : Bump.ofRegion start len align = .ok m.allocator)
    (hapart : c.shadow.cells.Avoids start.toNat (start.toNat + len.toNat)) (calls : List HeapCall) :
    let h := RedzoneHeap.run c.redzones (some c.shadow) { machine := m } calls
    (∀ answer ∈ h.answers, (∀ t, answer ≠ .trapped t) ∧ ∀ e, answer = .failed e →
      (∃ n, e = .allocator (.outOfMemory n)) ∨ ∃ n, e = .sizeOverflow n) ∧
    ∃ n, h.machine.allocator.remaining? = some n ∧
      h.machine.allocator.cursor.toNat + n.toNat = start.toNat + len.toNat := by
  intro h
  obtain ⟨-, hstop, -⟩ := Bump.toNat_of_ofRegion hfresh
  have hr : c.redzones.Valid := Redzones.valid_of_validate hconfig
  have hc : HeapAllocator.Contract c.shadow.cells (Bump.Account m.allocator) :=
    Bump.contract_of_ofRegion hfresh halign hapart
  have hfirst := RedzoneHeap.secured_of_ofRegion c.redzones hfresh
  have hsecured := RedzoneHeap.run_secured hc hr hfirst calls
  have hlock : RedzoneHeap.Lockstep c.shadow.cells (RedzoneHeap.run c.redzones none { machine := m } calls) h :=
    RedzoneHeap.run_lockstep hc hr hfirst ⟨rfl, rfl, .refl _ m⟩ calls
  -- with the shadow map, the answers and the allocator are those of the run without it
  refine ⟨fun answer hanswer => ?_, ?_⟩
  · rw [hlock.answers_eq] at hanswer
    have hwithin := RedzoneHeap.run_within hc hr (Bump.sound m.allocator) hfirst (by simp) calls answer hanswer
    refine ⟨hwithin.not_trapped, ?_⟩
    rintro e rfl
    cases e with
    | allocator cause =>
      obtain ⟨n, rfl⟩ := hwithin
      exact Or.inl ⟨n, rfl⟩
    | sizeOverflow n => exact Or.inr ⟨n, rfl⟩
    | invalidAddress user => exact absurd hwithin id
  · rw [hlock.alike.allocator_eq]
    rw [← hstop, ← hsecured.valid.region.stop_eq]
    exact Bump.exists_remaining hsecured.valid.inv.le_stop

/-- a context whose shadow map describes the first half of the last page of the address space -/
def lastPage : Context where
  shadow := { space := .program, base := 0x1000, len := 0x100, translation := ⟨0xe000000000001200⟩ }
  config := {}
  boundaries := .empty

/-- the last page, up to the last address -/
def lastPageRegion : Bump := ⟨0xfffffffffffff000, 0xffffffffffffffff, 0xfffffffffffff000, 64⟩

/-- Blocks of no bytes and of all of them are asked for, and a block is grown until its redzone all but reaches the last
address: seven bytes remain. -/
theorem lastPage_never_traps :
    lastPage.config.validate = .ok () ∧ 8 ≤ (64 : UInt64).toNat ∧
    Bump.ofRegion 0xfffffffffffff000 0xfff 64 = .ok lastPageRegion ∧
    lastPage.shadow.cells.Avoids 0xfffffffffffff000 (0xfffffffffffff000 + 0xfff) ∧
    let h := RedzoneHeap.run lastPage.redzones (some lastPage.shadow) { machine := { allocator := lastPageRegion } }
      [.allocate 0, .allocate 0xffffffffffffffff, .allocate 0x700, .reallocate 0xfffffffffffff080 0x758,
        .store 0xfffffffffffff880 [1, 2, 3], .free 0, .reallocate 0xfffffffffffff880 0xffffffffffffffff, .allocate 0]
    h.answers = [.done (some 0xfffffffffffff080), .failed (.sizeOverflow 0xffffffffffffffff),
      .done (some 0xfffffffffffff100), .done (some 0xfffffffffffff880), .done none, .done none,
      .failed (.sizeOverflow 0xffffffffffffffff), .failed (.allocator (.outOfMemory 0x60))] ∧
    (∀ answer ∈ h.answers, ∀ t, answer ≠ .trapped t) ∧ h.machine.allocator.remaining? = some 7 := by
  have havoids : lastPage.shadow.cells.Avoids 0xfffffffffffff000 (0xfffffffffffff000 + 0xfff) :=
    ShadowMap.cells_avoids (s := lastPage.shadow) (show 0x1000 + 0x100 ≤ 2 ^ 64 by decide) (Or.inl (by decide))
  refine ⟨rfl, by decide, rfl, havoids, by decide +kernel, fun answer hanswer => ?_, by decide +kernel⟩
  exact ((heap_never_traps lastPage rfl 0xfffffffffffff000 0xfff 64 (by decide) { allocator := lastPageRegion } rfl havoids
    _).1 answer hanswer).1

end Context

end AddressSanitizer
