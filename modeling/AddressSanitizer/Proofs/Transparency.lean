/-
Only the allocator makes a heap operation fail. A program is run twice on heaps with redzones over the same allocator,
once without a shadow map and once with one. The shadow map may hold any bytes and any part of the shadow memory, so that
its updates are refused or not; the two runs cannot be told apart but by their shadow bytes and their logs.

- `Redzones.shadow_map_transparent`: the result, for every allocator that keeps the contract.
-/
import Mathlib.Tactic
import AddressSanitizer.Proofs.UntrackedBlocks

namespace AddressSanitizer

variable {A E : Type}

/-- **The shadow map cannot be told from the outside.** Take valid redzones and an allocator that keeps the contract, and
record the calls that it gets. Run any calls of a program once without a shadow map and once with any shadow map,
whatever it holds and whatever its bytes are, on machines that are alike up to these bytes. Step by step the calls end the
same way and hand out the same addresses; the allocator gets the same calls with the same arguments and is left in the
same state; and memory is the same outside the shadow bytes. -/
theorem Redzones.shadow_map_transparent [HeapAllocator A E] {Valid : A → Memory → List Block → Prop} (c : Config)
    (hconfig : c.validate = .ok ()) (s : ShadowMap) (hcontract : HeapAllocator.Contract (A := A) s.cells Valid)
    (m m' : Machine (Recorded A)) (hfresh : Valid m.allocator.inner m.memory []) (halike : m.Alike s.cells m')
    (calls : List HeapCall) :
    let plain := RedzoneHeap.run (.ofConfig c) none { machine := m } calls
    let tracked := RedzoneHeap.run (.ofConfig c) (some s) { machine := m' } calls
    tracked.answers = plain.answers ∧ tracked.live = plain.live ∧
      tracked.machine.allocator.calls = plain.machine.allocator.calls ∧
      tracked.machine.allocator.inner = plain.machine.allocator.inner ∧
      plain.machine.memory.SameOutside s.cells tracked.machine.memory := by
  intro plain tracked
  let start : RedzoneHeap (Recorded A) E := { machine := m }
  have hsecured : start.Secured (.ofConfig c) fun a => Valid a.inner := ⟨hfresh, by simp [start]⟩
  have hstart : start.Lockstep s.cells { machine := m' } := ⟨rfl, rfl, halike⟩
  have hlock : plain.Lockstep s.cells tracked :=
    RedzoneHeap.run_lockstep (Recorded.contract hcontract) (Redzones.valid_of_validate hconfig) hsecured hstart calls
  exact ⟨hlock.answers_eq, hlock.live_eq, congrArg Recorded.calls hlock.alike.allocator_eq,
    congrArg Recorded.inner hlock.alike.allocator_eq, hlock.alike.memory_same⟩

/-- A block grows over the edge of the tracked memory and is given back; the shadow map refuses the update for the new
length, as the log says. The calls end as they do without it, down to the one that the allocator refuses. -/
theorem Redzones.edge_transparent :
    Config.validate {} = .ok () ∧
    HeapAllocator.Contract Context.edgeContext.shadow.cells (Bump.Account Context.edgeRegion) ∧
    Bump.Account Context.edgeRegion Context.edgeRegion {} [] ∧
    let calls : List HeapCall := [.allocate 8, .reallocate 0x40000080 0x400, .allocate 0x2000, .free 0, .free 0x40000080]
    let m : Machine (Recorded Bump) := { allocator := { inner := Context.edgeRegion } }
    let plain := RedzoneHeap.run (.ofConfig {}) none { machine := m } calls
    let tracked := RedzoneHeap.run (.ofConfig {}) (some Context.edgeContext.shadow) { machine := m } calls
    .allocUntracked 0x40000080 (.invalidRange 0x3fffaf90 0x80) ∈ tracked.machine.log.toList ∧
    plain.answers = [.done (some 0x40000080), .done (some 0x40000080), .failed (.allocator (.outOfMemory 0x2060)),
      .done none, .done none] ∧
    tracked.answers = plain.answers ∧ tracked.machine.allocator.calls = plain.machine.allocator.calls := by
  have hcontract : HeapAllocator.Contract Context.edgeContext.shadow.cells (Bump.Account Context.edgeRegion) :=
    Bump.contract Context.edgeRegion (by decide) fun _ _ _ => nofun
  have hregion : Bump.ofRegion 0x40000000 0x1000 64 = .ok Context.edgeRegion := rfl
  have hfresh := Bump.account_of_ofRegion hregion {}
  refine ⟨rfl, hcontract, hfresh, by decide +kernel, by decide +kernel, ?_⟩
  have hsame := shadow_map_transparent {} rfl _ hcontract { allocator := { inner := Context.edgeRegion } }
    { allocator := { inner := Context.edgeRegion } } hfresh (.refl _ _)
    [.allocate 8, .reallocate 0x40000080 0x400, .allocate 0x2000, .free 0, .free 0x40000080]
  exact ⟨hsame.1, hsame.2.2.1⟩

end AddressSanitizer
