/-
Users' data. On a bump allocator the words that the redzones record and the bytes that programs store survive every run,
whatever the shadow map holds. All of it is shown of the run without a shadow map, and carried over to the run with one:
the two differ in shadow bytes only, and no block in use has a shadow byte in it.

- `Keeps.of_lockstep`: what one run keeps, the other keeps too.
- `keeps_of_refused`: a block that could not be resized is as it was.
- `Context.user_data_survives`: what holds at every state of every run.
-/
import Mathlib.Tactic
import AddressSanitizer.Proofs.Transparency

namespace AddressSanitizer

variable {A E : Type} [HeapAllocator A E]

namespace RedzoneHeap

variable {r : Redzones} {s : ShadowMap} {Valid : A → Memory → List Block → Prop} {h h' k k' : RedzoneHeap A E}
  {x y : UserBlock}

omit [HeapAllocator A E] in
/-- A block that has no shadow byte in it is kept by both of two runs or by neither. -/
theorem Keeps.of_lockstep {F : Footprint} (hkeeps : h.Keeps h' y) (hlock : h.Lockstep F k) (hlock' : h'.Lockstep F k')
    (hoff : F.Avoids y.user.toNat (y.user.toNat + y.len.toNat)) : k.Keeps k' y where
  mem := hlock'.live_eq ▸ hkeeps.mem
  bytes a h1 h2 := by
    have hout := hoff a h1 h2
    rw [hlock'.alike.memory_same _ _ hout, hkeeps.bytes a h1 h2, hlock.alike.memory_same _ _ hout]

section Tracked

variable (hc : HeapAllocator.Contract (A := A) s.cells Valid) (hr : r.Valid) (hsecured : h.Secured r Valid)
  (hlock : h.Lockstep s.cells k)
include hc hr hsecured

theorem user_avoids (hx : x ∈ h.live) : s.cells.Avoids x.user.toNat (x.user.toNat + x.len.toNat) := by
  have hplaced := Redzones.Secured.placed hc hr hsecured hx
  have hspan := hplaced.spans hr
  exact hplaced.avoids.mono (by omega) (by omega)

/-- A block that the allocator has refused to resize is still in use, with its bytes. -/
theorem keeps_of_refused (hx : x ∈ h.live) {len : UInt64} {o : Outcome (HeapError E) Address} {m' : Machine A}
    (hrun : (r.reallocate none x.user len).run h.machine = (o, m')) (ho : ∀ v, o ≠ .done v) :
    h.Keeps (h.step r none (.reallocate x.user len)) x := by
  have hallowed : (HeapCall.reallocate x.user len).Allowed h.live := Or.inr ⟨x, hx, rfl⟩
  obtain ⟨-, hsame⟩ := (Redzones.serves_reallocate hc hr hsecured hx len).refused _ _ hrun ho
  have hact : ((HeapCall.reallocate x.user len).act r none).run h.machine =
      ((do return some (← r.reallocate none x.user len)) : Action A (HeapError E) (Option Address)).run h.machine := rfl
  rw [Action.run_bind, hrun] at hact
  rw [step_of_allowed hallowed, hact]
  cases o with
  | done v => exact absurd rfl (ho v)
  | failed e => exact keeps_of_sameAt hx hsame hx
  | trapped t => exact keeps_of_sameAt hx hsame hx

include hlock

theorem records_of_lockstep (hx : x ∈ k.live) : r.Records k.machine.memory x := by
  rw [hlock.live_eq] at hx
  exact (Redzones.Secured.of_alike hc hr hsecured hlock.alike).records x hx

/-- A call keeps the blocks that it is not about. -/
theorem keeps_of_lockstep {call : HeapCall} (hy : y ∈ k.live) (hout : ¬call.Concerns y) :
    k.Keeps (k.step r (some s) call) y := by
  rw [hlock.live_eq] at hy
  exact ((step_preserved hc hr hsecured call).keeps y hy hout).of_lockstep hlock
    (step_lockstep hc hr hsecured hlock call) (user_avoids hc hr hsecured hy)

theorem keeps_of_lockstep_refused (hx : x ∈ k.live) {len : UInt64} {o : Outcome (HeapError E) Address} {m' : Machine A}
    (hrun : (r.reallocate (some s) x.user len).run k.machine = (o, m')) (ho : ∀ v, o ≠ .done v) :
    k.Keeps (k.step r (some s) (.reallocate x.user len)) x := by
  rw [hlock.live_eq] at hx
  obtain ⟨houtcome, -⟩ := Redzones.mirrors_reallocate subset_rfl hr hc hsecured hlock.alike hx len
  rw [hrun] at houtcome
  have hrun' : (r.reallocate none x.user len).run h.machine = (o, ((r.reallocate none x.user len).run h.machine).2) :=
    Prod.ext houtcome.symm rfl
  exact (keeps_of_refused hc hr hsecured hx hrun' ho).of_lockstep hlock (step_lockstep hc hr hsecured hlock _)
    (user_avoids hc hr hsecured hx)

/-- A block that is resized keeps its bytes, as far as they fit. -/
theorem read_of_lockstep (hpreserves : HeapAllocator.Preserves (A := A) Valid) (hx : x ∈ k.live) {len : UInt64}
    {user : Address} {m' : Machine A} (hrun : (r.reallocate (some s) x.user len).run k.machine = (.done user, m')) {i : Nat}
    (hi : i < min x.len.toNat len.toNat) :
    m'.memory.read .program (user + i.toUInt64) = k.machine.memory.read .program (x.user + i.toUInt64) := by
  rw [hlock.live_eq] at hx
  obtain ⟨houtcome, halike⟩ := Redzones.mirrors_reallocate subset_rfl hr hc hsecured hlock.alike hx len
  rw [hrun] at houtcome halike
  have hrun' : (r.reallocate none x.user len).run h.machine =
      (.done user, ((r.reallocate none x.user len).run h.machine).2) := Prod.ext houtcome.symm rfl
  obtain ⟨hsecured', -⟩ := (Redzones.serves_reallocate hc hr hsecured hx len).done _ _ hrun'
  have hnew := Redzones.Secured.placed hc hr hsecured' (List.mem_cons_self ..)
  have hspan : _ ≤ user.toNat ∧ user.toNat + len.toNat ≤ _ := hnew.spans hr
  have hlt := hnew.stop_lt
  have hxplaced := Redzones.Secured.placed hc hr hsecured hx
  have hxspan := hxplaced.spans hr
  have hxlt := hxplaced.stop_lt
  have hbyte : (user + i.toUInt64).toNat = user.toNat + i := toNat_add_toUInt64 (by omega)
  have hxbyte : (x.user + i.toUInt64).toNat = x.user.toNat + i := toNat_add_toUInt64 (by omega)
  calc m'.memory.read .program (user + i.toUInt64)
      = ((r.reallocate none x.user len).run h.machine).2.memory.read .program (user + i.toUInt64) :=
        halike.memory_same _ _ (hnew.avoids _ (by omega) (by omega))
    _ = h.machine.memory.read .program (x.user + i.toUInt64) :=
        Redzones.read_of_reallocate hc hr hpreserves hsecured hx hrun' hi
    _ = k.machine.memory.read .program (x.user + i.toUInt64) :=
        (hlock.alike.memory_same _ _ (hxplaced.avoids _ (by omega) (by omega))).symm

end Tracked

end RedzoneHeap

/-- **Users' data survive every run.** Take a context with a valid configuration, any shadow map with any bytes, and a fresh
bump allocator whose region is apart from the memory of the shadow map. Let a program allocate, resize and give back blocks
and store into the blocks it holds. At every state, the word at the start of each block in use is the user's length in
whole granules, and the user's address is not zero, and a multiple of the alignment if the redzone in front is. A call
keeps every block that it is not about, with its bytes; so does a call that fails to resize a block for that block. And a
block that is resized has the bytes it had before the call, as far as they fit. -/
theorem Context.user_data_survives (c : Context) (hconfig : c.config.validate = .ok ()) (start len align : UInt64)
    (halign : 8 ≤ align.toNat) (m : Machine Bump) (hfresh : Bump.ofRegion start len align = .ok m.allocator)
    (hapart : c.shadow.cells.Avoids start.toNat (start.toNat + len.toNat)) (calls : List HeapCall) :
    let h := RedzoneHeap.run c.redzones (some c.shadow) { machine := m } calls
    (∀ x ∈ h.live, (h.machine.memory.readWord (x.user - c.config.headRedzone)).toNat = roundUp x.len.toNat ∧ x.user ≠ 0 ∧
      (align.toNat ∣ c.config.headRedzone.toNat → align.toNat ∣ x.user.toNat)) ∧
    (∀ call, ∀ y ∈ h.live, ¬call.Concerns y → h.Keeps (h.step c.redzones (some c.shadow) call) y) ∧
    ∀ x ∈ h.live, ∀ n o m', (c.reallocate x.user n).run h.machine = (o, m') →
      ((∀ user, o ≠ .done user) → h.Keeps (h.step c.redzones (some c.shadow) (.reallocate x.user n)) x) ∧
      ∀ user, o = .done user → ∀ i, i < min x.len.toNat n.toNat →
        m'.memory.read .program (user + i.toUInt64) = h.machine.memory.read .program (x.user + i.toUInt64) := by
  intro h
  obtain ⟨-, -, hsame⟩ := Bump.toNat_of_ofRegion hfresh
  have hr : c.redzones.Valid := Redzones.valid_of_validate hconfig
  have hc : HeapAllocator.Contract c.shadow.cells (Bump.Account m.allocator) :=
    Bump.contract_of_ofRegion hfresh halign hapart
  have hfirst := RedzoneHeap.secured_of_ofRegion c.redzones hfresh
  have hsecured := RedzoneHeap.run_secured hc hr hfirst calls
  have hlock : RedzoneHeap.Lockstep c.shadow.cells (RedzoneHeap.run c.redzones none { machine := m } calls) h :=
    RedzoneHeap.run_lockstep hc hr hfirst ⟨rfl, rfl, .refl _ m⟩ calls
  refine ⟨fun x hx => ?_, fun call y hy hout => RedzoneHeap.keeps_of_lockstep hc hr hsecured hlock hy hout,
    fun x hx n o m' hrun => ⟨RedzoneHeap.keeps_of_lockstep_refused hc hr hsecured hlock hx hrun, ?_⟩⟩
  · have hrecords := RedzoneHeap.records_of_lockstep hc hr hsecured hlock hx
    rw [hlock.live_eq] at hx
    refine ⟨hrecords.recorded, (Redzones.Secured.placed hc hr hsecured hx).user_ne_zero hr, fun hdvd => ?_⟩
    have haligned := (hsecured.valid.inv.holds _ (List.mem_map_of_mem hx)).aligned
    have haddr : (c.redzones.block x).addr.toNat = c.redzones.start x := hrecords.block_addr
    have hadd : c.redzones.start x + c.config.headRedzone.toNat = x.user.toNat := hrecords.start_add
    rw [haddr, hsecured.valid.region.align_eq, hsame] at haligned
    rw [← hadd]
    exact Nat.dvd_add (Nat.dvd_of_mod_eq_zero haligned) hdvd
  · rintro user rfl i hi
    exact RedzoneHeap.read_of_lockstep hc hr hsecured hlock (Bump.preserves m.allocator) hx hrun hi

/-- a context whose shadow bytes lie right behind a region of one kilobyte, of which they describe the first half -/
def Context.halfTracked : Context where
  shadow := { space := .program, base := 0x1400, len := 0x40, translation := ⟨0x1200⟩ }
  config := {}
  boundaries := .empty

/-- a region of one kilobyte, its blocks at multiples of 64 -/
def Context.halfTrackedRegion : Bump := ⟨0x1000, 0x1400, 0x1000, 64⟩

theorem Context.halfTracked_avoids : halfTracked.shadow.cells.Avoids 0x1000 (0x1000 + 0x400) := by
  rintro a h1 h2 ⟨-, hin⟩
  have hin : (a - 0x1400).toNat < 0x40 := hin
  rw [UInt64.toNat_sub] at hin
  simp only [UInt64.reduceToNat] at hin
  omega

/-- Three bytes are stored into a block; the allocator refuses to resize it to the length of four kilobytes, and then
moves it behind another block. -/
theorem Context.halfTracked_survives :
    halfTracked.config.validate = .ok () ∧ 8 ≤ (64 : UInt64).toNat ∧
    Bump.ofRegion 0x1000 0x400 64 = .ok halfTrackedRegion ∧
    halfTracked.shadow.cells.Avoids 0x1000 (0x1000 + 0x400) ∧
    let h := RedzoneHeap.run halfTracked.redzones (some halfTracked.shadow) { machine := { allocator := halfTrackedRegion } }
      [.allocate 10, .allocate 8, .store 0x1080 [1, 2, 3], .reallocate 0x1080 0x1000]
    h.answers = [.done (some 0x1080), .done (some 0x1100), .done none, .failed (.allocator (.outOfMemory 0x1060))] ∧
    ⟨0x1080, 10⟩ ∈ h.live ∧ h.machine.memory.read .program 0x1082 = 3 ∧
    ∃ m', (halfTracked.reallocate (0x1080 : Address) 40).run h.machine = (.done 0x1180, m') ∧
      ∀ i, i < 10 → m'.memory.read .program (0x1180 + i.toUInt64) = h.machine.memory.read .program (0x1080 + i.toUInt64) := by
  refine ⟨rfl, by decide, rfl, halfTracked_avoids, by decide +kernel, by decide +kernel, by decide +kernel, _,
    Prod.fst_eq_iff.mp (by decide +kernel), fun i hi => ?_⟩
  have hmoved := ((user_data_survives halfTracked rfl 0x1000 0x400 64 (by decide) { allocator := halfTrackedRegion } rfl
    halfTracked_avoids [.allocate 10, .allocate 8, .store 0x1080 [1, 2, 3], .reallocate 0x1080 0x1000]).2.2 ⟨0x1080, 10⟩
    (by decide +kernel) 40 (.done 0x1180) _ (Prod.fst_eq_iff.mp (by decide +kernel))).2 0x1180 rfl i
  simp only [UInt64.reduceToNat] at hmoved
  exact hmoved (by omega)

end AddressSanitizer
