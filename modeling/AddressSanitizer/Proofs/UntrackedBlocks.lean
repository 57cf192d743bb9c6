/-
Blocks that the shadow map does not hold whole. A block is handed out whatever becomes of its shadow bytes, but the shadow
map is written for all of the user's whole granules or for none of them. In the second case the bytes that the map does
hold keep what they said before: a block that grows over the edge of the tracked memory where it is stays marked as freed.

- `passes_iff_of_handsOut`: what the checks make of a block that has just been handed out.
- `Context.handed_out_passes_iff`: for every state of every run and any contents of the shadow map, every access inside a
  block that an allocation or a resizing hands out passes exactly if the map holds the user's whole granules or forbade
  none of these accesses before.
- `Context.grown_over_edge_left_freed`: a block of which accesses do not pass.
-/
import Mathlib.Tactic
import AddressSanitizer.Proofs.TrackedHeap

namespace AddressSanitizer.Context

variable {A : Type} {c : Context} {memory memory' : Memory} {access : Access} {Valid : A → Memory → List Block → Prop}
  {m' : Machine A} {x : UserBlock} {others : List UserBlock}

theorem violation?_eq_none_iff :
    c.violation? memory access = none ↔
      ∀ last, c.Validates access last → ∀ a, ¬c.shadow.Forbids memory access.addr last a := by
  constructor
  · intro hnone last hval a ha
    obtain ⟨f, hf⟩ := ha.exists_first
    rw [violation?_eq_some_iff.mpr ⟨last, hval, f, hf, rfl⟩] at hnone
    cases hnone
  · intro h
    cases hv : c.violation? memory access with
    | none => rfl
    | some v =>
      obtain ⟨last, hval, a, ha, -⟩ := violation?_eq_some_iff.mp hv
      exact absurd ha.toForbids (h last hval a)

/-- Whether an access is forbidden depends on the shadow bytes of tracked addresses only. -/
theorem violation?_eq_none_congr
    (hsame : ∀ a, c.shadow.Tracks a → c.shadow.byteAt memory' a = c.shadow.byteAt memory a) :
    c.violation? memory' access = none ↔ c.violation? memory access = none := by
  have hforbids (last a : Address) :
      c.shadow.Forbids memory' access.addr last a ↔ c.shadow.Forbids memory access.addr last a := by
    constructor
    · intro h
      exact ⟨h.addr_le, h.le_last, h.tracked, by
        rw [← hsame a (h.tracked a h.addr_le le_rfl)]; exact h.not_permitted⟩
    · intro h
      exact ⟨h.addr_le, h.le_last, h.tracked, by
        rw [hsame a (h.tracked a h.addr_le le_rfl)]; exact h.not_permitted⟩
  simp only [violation?_eq_none_iff, hforbids]

/-- Of a block that has just been handed out, all accesses pass if the map holds the user's whole granules; otherwise those
pass that the map did not forbid before. -/
theorem passes_iff_of_handsOut (hout : c.redzones.HandsOut c.shadow Valid memory m' x others) :
    (∀ access : Access, access.Inside x.user x.len → ((c.check access).run m').1 = .done ()) ↔
      c.shadow.Covers x.user.toNat (x.user.toNat + x.len.toNat / 8 * 8) ∨
        ∀ access : Access, access.Inside x.user x.len → c.violation? memory access = none := by
  obtain ⟨memory₁, hsame, hmarked⟩ := hout.marked
  by_cases hcovers : c.shadow.Covers x.user.toNat (x.user.toNat + x.len.toNat / 8 * 8)
  · exact ⟨fun _ => Or.inl hcovers, fun _ _ hin => check_done_of_inside (hmarked.accessible hcovers) hin⟩
  · have hbytes (a : Address) (ha : c.shadow.Tracks a) : c.shadow.byteAt m'.memory a = c.shadow.byteAt memory a := by
      rw [hmarked.untracked hcovers]
      exact ShadowMap.byteAt_of_sameOutside hsame fun hnot => hnot ⟨rfl, ha⟩
    simp only [check_eq_done_iff, violation?_eq_none_congr hbytes, hcovers, false_or]

/-- **What the checks make of a block that is handed out, whatever part of it is tracked.** Take a context with a valid
configuration and a fresh allocator whose region is apart from the shadow bytes, at any state of any run, with any
contents of the shadow map. Every access inside a block that an allocation hands out passes exactly if the map holds
the user's whole granules, or forbids none of these accesses already. For a block that is resized the same holds with the
shadow bytes as they are once its old bytes have been marked freed. -/
theorem handed_out_passes_iff (c : Context) (hconfig : c.config.validate = .ok ()) (hspace : c.shadow.InSpace)
    (start len align : UInt64) (halign : 8 ≤ align.toNat) (m : Machine Bump)
    (hfresh : Bump.ofRegion start len align = .ok m.allocator)
    (hapart : c.shadow.space = .program → ∀ a : Address, start.toNat ≤ a.toNat → a.toNat < start.toNat + len.toNat →
      ¬c.shadow.Backs a)
    (calls : List HeapCall) (memory : Memory)
    (hshadow : (RedzoneHeap.run c.redzones (some c.shadow) { machine := m } calls).machine.memory.SameOutside
      c.shadow.bytes memory) :
    let h := RedzoneHeap.run c.redzones (some c.shadow) { machine := m } calls
    (∀ n user m', (c.allocate n).run { h.machine with memory } = (.done user, m') →
      ((∀ access : Access, access.Inside user n → ((c.check access).run m').1 = .done ()) ↔
        c.shadow.Covers user.toNat (user.toNat + n.toNat / 8 * 8) ∨
          ∀ access : Access, access.Inside user n → c.violation? memory access = none)) ∧
    ∀ x ∈ h.live, ∀ n user m', (c.reallocate x.user n).run { h.machine with memory } = (.done user, m') →
      ((∀ access : Access, access.Inside user n → ((c.check access).run m').1 = .done ()) ↔
        c.shadow.Covers user.toNat (user.toNat + n.toNat / 8 * 8) ∨
          ∀ access : Access, access.Inside user n →
            c.violation? (Redzones.freed c.shadow memory x) access = none) := by
  intro h
  have hset : c.redzones.Setting c.shadow (Bump.Account m.allocator) :=
    Redzones.setting_of_ofRegion hconfig halign hfresh hapart (Or.inl hspace)
  have hsecured : c.redzones.Secured (Bump.Account m.allocator) h.machine.allocator memory h.live :=
    hset.secured_of_bytes
      (RedzoneHeap.run_secured_tracked hset (RedzoneHeap.secured_of_ofRegion c.redzones hfresh) calls) rfl hshadow
  constructor
  · intro n user m' hrun
    rcases Redzones.allocate_tracked (m := { h.machine with memory }) hset hsecured n with
      ⟨user', m₁, hrun', hout⟩ | ⟨e, m₁, hrun', -⟩
    · cases hrun.symm.trans hrun'
      exact passes_iff_of_handsOut hout
    · cases hrun.symm.trans hrun'
  · intro x hx n user m' hrun
    rcases Redzones.reallocate_tracked (m := { h.machine with memory }) hset hsecured hx n with
      ⟨user', m₁, hrun', hout⟩ | ⟨e, m₁, hrun', -⟩ | ⟨m₁, hrun', -⟩
    · cases hrun.symm.trans hrun'
      exact passes_iff_of_handsOut hout
    · cases hrun.symm.trans hrun'
    · cases hrun.symm.trans hrun'

/-- a context that tracks memory up to 0x40000400 -/
def edgeContext : Context where
  shadow := { space := .detached, base := 0x3fffa000, len := 0x1000, translation := ⟨0x37ffaf80⟩ }
  config := {}
  boundaries := .filled { shadowStart := 0x3fffa000, shadowEnd := 0x3fffb000, lowEnd := 0x3fffc000,
                          highStart := 0x3fffc000, highEnd := 0x80000000 }

/-- a region of four kilobytes, of which the context tracks the first -/
def edgeRegion : Bump := ⟨0x40000000, 0x40001000, 0x40000000, 64⟩

/-- A block below the edge of the tracked memory is handed out with all accesses inside it passing. -/
theorem below_edge_passes :
    edgeContext.config.validate = .ok () ∧ edgeContext.shadow.InSpace ∧ 8 ≤ (64 : UInt64).toNat ∧
    Bump.ofRegion 0x40000000 0x1000 64 = .ok edgeRegion ∧ edgeContext.shadow.space = .detached ∧
    let h := RedzoneHeap.run edgeContext.redzones (some edgeContext.shadow)
      { machine := { allocator := edgeRegion } } [.allocate 8]
    ∃ m', (edgeContext.allocate 16).run h.machine = (.done 0x40000100, m') ∧
      ∀ access : Access, access.Inside 0x40000100 16 → ((edgeContext.check access).run m').1 = .done () := by
  have hspace : edgeContext.shadow.InSpace := show 0x3fffa000 + 0x1000 ≤ 2 ^ 64 by decide
  refine ⟨rfl, hspace, by decide, rfl, rfl, ?_⟩
  intro h
  have hrun : (edgeContext.allocate 16).run h.machine =
      (.done 0x40000100, ((edgeContext.allocate 16).run h.machine).2) := Prod.ext (by decide +kernel) rfl
  have hpasses := (handed_out_passes_iff edgeContext rfl hspace 0x40000000 0x1000 64 (by decide)
    { allocator := edgeRegion } rfl nofun [.allocate 8] h.machine.memory (Memory.SameOutside.refl _ _)).1 _ _ _ hrun
  exact ⟨_, hrun, hpasses.mpr (Or.inl (ShadowMap.covers_of_le hspace (by decide) (by decide)))⟩

/-- The block of eight bytes at the end of the tracked memory grows over its edge where it is. Its old bytes have been
marked freed, and stay so: a read of the first byte of the block in use is rejected as a use after free. -/
theorem grown_over_edge_left_freed :
    edgeContext.config.validate = .ok () ∧ edgeContext.initialized = true ∧ edgeContext.shadow.InSpace ∧
    edgeContext.shadow.space = .detached ∧ Bump.ofRegion 0x40000000 0x1000 64 = .ok edgeRegion ∧
    let h := RedzoneHeap.run edgeContext.redzones (some edgeContext.shadow)
      { machine := { allocator := edgeRegion } } [.allocate 8]
    let grown := (edgeContext.reallocate (0x40000080 : Address) 0x400).run h.machine
    h.live = [⟨0x40000080, 8⟩] ∧ grown.1 = .done 0x40000080 ∧
    Access.Inside (.load 0x40000080 1 0) 0x40000080 0x400 ∧
    ((edgeContext.check (.load 0x40000080 1 0)).run grown.2).1 =
      .failed { access := .load 0x40000080 1 0, shadowAddr := 0x3fffaf90, shadowValue := 0xfd,
                kind := .heapUseAfterFree } := by
  refine ⟨rfl, rfl, show 0x3fffa000 + 0x1000 ≤ 2 ^ 64 by decide, rfl, rfl, by decide +kernel, by decide +kernel,
    ⟨by decide, by decide⟩, by decide +kernel⟩

end AddressSanitizer.Context
