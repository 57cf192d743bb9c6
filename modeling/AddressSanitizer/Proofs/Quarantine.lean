/-
Freed memory stays flagged. When a block has been given back, or moved elsewhere by a resizing, its old bytes are marked
freed, and they stay so until a block is handed out that takes them in: what a call marks is either the bytes of a block
that it frees, or a block that it hands out.

- `handsOut?`, `handedOut`: the blocks that a call and a run hand out.
- `step_flagged`, `run_flagged`: a flag survives every call that hands out no block over it, and so every such run.
- `Releases.flagged`: a call that takes a block away from its user flags the block's bytes.
- `Context.freed_stays_flagged`: the two together, and what the checks make of a flag.
-/
import Mathlib.Tactic
import AddressSanitizer.Proofs.HeapProtection

namespace AddressSanitizer

/-- A block that is moved is carved above the cursor. -/
theorem Bump.Inv.above_of_moved {m m' : Machine Bump} {live : List Block} {x : Block} {len : UInt64} {addr : Address}
    (h : m.allocator.Inv m.memory live) (hx : x ∈ live) (hrun : (Bump.reallocate x.addr len).run m = (.done addr, m'))
    (hne : addr ≠ x.addr) : m.allocator.cursor.toNat + 16 ≤ addr.toNat := by
  rw [run_reallocate (h.holds x hx)] at hrun
  by_cases hlast : x.stop = m.allocator.cursor.toNat
  · rw [if_pos hlast] at hrun
    cases hstop : m.allocator.stopOf? x.addr len <;> rw [hstop] at hrun <;> cases hrun
    exact absurd rfl hne
  · rw [if_neg hlast] at hrun
    by_cases hle : len ≤ x.len
    · rw [if_pos hle] at hrun
      cases hrun
      exact absurd rfl hne
    · rw [if_neg hle] at hrun
      rcases h.allocate len with ⟨moved, m₁, hcarve, -, -, habove, -⟩ | hcarve <;> rw [hcarve] at hrun <;> cases hrun
      exact habove

namespace Redzones

variable {A E : Type} {r : Redzones} {s : ShadowMap} {Valid : A → Memory → List Block → Prop} {memory memory' : Memory}
  {live others : List UserBlock} {x y : UserBlock} {a : Address} {len : UInt64}

/-- the address lies in the block or in one of its redzones -/
def Contains (r : Redzones) (x : UserBlock) (a : Address) : Prop := r.start x ≤ a.toNat ∧ a.toNat < r.stop x

/-- the shadow byte of the address says that it is freed -/
def Flagged (s : ShadowMap) (memory : Memory) (a : Address) : Prop := s.byteAt memory a = Tag.heapFreed.byte

/-- The user's address of a block that is handed out tells which block the allocator has handed out. -/
theorem exists_of_run_handOut_tracked [HeapAllocator A E] {m m' : Machine A} {size : BlockSize} {ask : Action A E Address}
    (hset : r.Setting s Valid) (h : r.Secured Valid m.allocator m.memory live) (hsub : ∀ y ∈ others, y ∈ live)
    (hsize : r.blockSize? len = some size) (hask : HeapAllocator.Serves Valid Footprint.blocks ask m (live.map r.block)
      (others.map r.block) fun header => [⟨header, size.total⟩]) {user : Address}
    (hrun : (r.handOut (some s) ask len size.aligned).run m = (.done user, m')) :
    ∃ m₁, ask.run m = (.done (user - r.head), m₁) ∧ r.Placed s.bytes ⟨user, len⟩ := by
  rcases hheader : ask.run m with ⟨header | e | t, m₁⟩
  case done =>
    obtain ⟨user', rfl, hsecured, -⟩ := secured_of_ask hset.contract hset.valid h hsub hsize hask hheader
    have hplaced := hset.placed hsecured (List.mem_cons_self ..)
    obtain ⟨m₂, hrun', -⟩ := run_handOut_tracked hset.valid hplaced (blockSize?_eq_some_iff.mp hsize).1
      (hset.writable_block hsecured (List.mem_cons_self ..)) hheader
    cases hrun.symm.trans hrun'
    exact ⟨m₁, rfl, hplaced⟩
  all_goals
    rw [run_handOut, hheader] at hrun
    cases hrun

/-- Resizing a block moves it above all blocks in use, if it does not stay where it is. -/
theorem Secured.above_of_moved {b : Bump} {m m' : Machine Bump} (hset : r.Setting s (Bump.Account b))
    (h : r.Secured (Bump.Account b) m.allocator m.memory live) (hx : x ∈ live) {user : Address}
    (hrun : (r.reallocate (some s) x.user len).run m = (.done user, m')) (hne : user ≠ x.user) :
    r.stop x ≤ r.start ⟨user, len⟩ := by
  have hplaced := hset.placed h hx
  cases hsize : r.blockSize? len with
  | none =>
    rw [run_reallocate (hplaced.user_ne_zero hset.valid) hplaced.headerOf?_user, hsize] at hrun
    cases hrun
  | some size =>
    obtain ⟨m₁, hmemory₁, halloc₁, hrun₁⟩ := run_reallocate_tracked (s := s) hset.valid hplaced (h.records x hx) hsize
    have h₁ : r.Secured (Bump.Account b) m₁.allocator m₁.memory live :=
      hset.secured_of_bytes h halloc₁ (hmemory₁ ▸ hset.freed_bytes h hx m.memory)
    have hblock : r.block x ∈ live.map r.block := List.mem_map_of_mem hx
    rw [hrun₁] at hrun
    obtain ⟨m₂, hask, hplaced'⟩ := exists_of_run_handOut_tracked hset h₁ (fun _ hy => (List.mem_filter.mp hy).1) hsize
      (serves_ask hset.contract h₁ hx size.total m₁.log) hrun
    have haddr : (user - r.head).toNat = r.start ⟨user, len⟩ := hplaced'.block_addr
    have hmoved : user - r.head ≠ (r.block x).addr := fun heq => hne ((UInt64.sub_left_inj _).mp heq)
    have habove := h₁.valid.inv.above_of_moved hblock hask hmoved
    have hstop := (h₁.valid.inv.holds _ hblock).stop_le
    rw [hplaced.block_stop] at hstop
    omega

/-! ## What sets a flag, and what clears it -/

/-- The user's bytes of a block that is marked freed are flagged. -/
theorem flagged_freed {shadow : Footprint} (hx : r.Placed shadow x) (hcovers : s.Covers (r.start x) (r.stop x))
    (memory : Memory) (hlo : x.user.toNat ≤ a.toNat) (hhi : a.toNat < x.user.toNat + roundUp x.len.toNat) :
    Flagged s (freed s memory x) a := by
  have hstart := hx.start_add
  have hspan : r.stop x = x.user.toNat + roundUp x.len.toNat + r.tail.toNat := rfl
  exact (freed_cases hx (Or.inr hcovers) memory).2.1 (hcovers.mono (by omega) (by omega)) a hlo hhi

theorem Flagged.of_sameAt (h : Flagged s memory a) (ha : s.Tracks a) (hsame : memory.SameAt s.bytes memory') :
    Flagged s memory' a :=
  (ShadowMap.byteAt_of_sameOutside hsame fun hnot => hnot ⟨rfl, ha⟩).trans h

/-- Marking a block freed clears no flag. -/
theorem Flagged.of_freed {shadow : Footprint} (h : Flagged s memory a) (hx : r.Placed shadow x)
    (hcovers : s.Covers (r.start x) (r.stop x)) : Flagged s (freed s memory x) a := by
  by_cases hin : x.user.toNat ≤ a.toNat ∧ a.toNat < x.user.toNat + roundUp x.len.toNat
  · exact flagged_freed hx hcovers memory hin.1 hin.2
  · have huser := hx.user_mod
    have hmod := roundUp_mod x.len.toNat
    rw [Flagged, ShadowMap.byteAt_of_sameOutside (freed_cases hx (Or.inr hcovers) memory).1
      (ShadowMap.not_mem_footprint huser (by omega) (by omega))]
    exact h

/-- A block that is handed out clears no flag outside the block and its redzones. -/
theorem Flagged.of_handsOut [HeapAllocator A E] {m' : Machine A} (h : Flagged s memory a)
    (hout : r.HandsOut s Valid memory m' x others) (hset : r.Setting s Valid) (ha : s.Tracks a)
    (hclear : ¬r.Contains x a) : Flagged s m'.memory a := by
  obtain ⟨memory₁, hsame, hmarked⟩ := hout.marked
  have hx := hset.placed hout.secured (List.mem_cons_self ..)
  have hadd := hx.start_add
  have hspan : r.stop x = x.user.toNat + roundUp x.len.toNat + r.tail.toNat := rfl
  have huser := hx.user_mod
  have hhead := hset.valid.head_mod
  have htail := hset.valid.tail_mod
  have hmod := roundUp_mod x.len.toNat
  rw [Contains] at hclear
  rw [Flagged, ShadowMap.byteAt_of_sameOutside hmarked.frame
    (ShadowMap.not_mem_footprint (by omega) (by omega) (by omega))]
  exact h.of_sameAt ha hsame

end Redzones

/-! ## Runs -/

namespace RedzoneHeap

variable {A E : Type} [HeapAllocator A E] {r : Redzones} {s : ShadowMap} {Valid : A → Memory → List Block → Prop}
  {h : RedzoneHeap A E} {x y : UserBlock} {a : Address} {call : HeapCall}

/-- the block that a call hands out, if there is one -/
def handsOut? (r : Redzones) (s : ShadowMap) (h : RedzoneHeap A E) (call : HeapCall) : Option UserBlock :=
  if call.Allowed h.live then call.newBlock? ((call.act r (some s)).run h.machine).1 else none

/-- the blocks that a run hands out, in order -/
def handedOut (r : Redzones) (s : ShadowMap) (h : RedzoneHeap A E) : List HeapCall → List UserBlock
  | [] => []
  | call :: calls => (h.handsOut? r s call).toList ++ (h.step r (some s) call).handedOut r s calls

/-- The call takes a block away from its user: it gives the block back, or moves it elsewhere. -/
def Releases (r : Redzones) (s : ShadowMap) (h : RedzoneHeap A E) (x : UserBlock) : HeapCall → Prop
  | .free user => user = x.user ∧ ((r.free (some s) user).run h.machine).1 = .done ()
  | .reallocate user len =>
    user = x.user ∧ ∃ moved, ((r.reallocate (some s) user len).run h.machine).1 = .done moved ∧ moved ≠ x.user
  | .allocate _ | .store .. => False

section Flags

variable (hset : r.Setting s Valid) (hcovers : s.CoversBlocks Valid) (hsecured : h.Secured r Valid)
include hset hcovers hsecured

/-- A flag survives every effect but that of handing out a block over it, -/
theorem Effect.flagged {ended : Outcome (HeapError E) (Option Address) × Machine A}
    (he : Effect r s Valid h call ended) (hflag : Redzones.Flagged s h.machine.memory a) (ha : s.Tracks a)
    (hclear : ∀ y ∈ call.newBlock? ended.1, ¬r.Contains y a) : Redzones.Flagged s ended.2.memory a := by
  have hfreed {x : UserBlock} (hx : x ∈ h.live) {memory : Memory} (hflag : Redzones.Flagged s memory a) :
      Redzones.Flagged s (Redzones.freed s memory x) a :=
    hflag.of_freed (hset.placed hsecured hx) (Redzones.Secured.covers hsecured hcovers hx)
  cases he with
  | quiet _ _ _ hsame => exact hflag.of_sameAt ha hsame
  | allocated _ hnew hout => exact hflag.of_handsOut hout hset ha (hclear _ hnew)
  | resized hx _ hnew hout => exact (hfreed hx hflag).of_handsOut hout hset ha (hclear _ hnew)
  | refused hx _ _ _ _ hsame => exact (hfreed hx hflag).of_sameAt ha hsame
  | freed hx _ _ _ hsame hmemory =>
    rw [hmemory]
    exact hfreed hx (hflag.of_sameAt ha hsame)

/-- and so every call that hands out no block over it. -/
theorem step_flagged (hflag : Redzones.Flagged s h.machine.memory a) (ha : s.Tracks a) (call : HeapCall)
    (hclear : ∀ y ∈ h.handsOut? r s call, ¬r.Contains y a) :
    Redzones.Flagged s (h.step r (some s) call).machine.memory a := by
  by_cases hallowed : call.Allowed h.live
  · rw [handsOut?, if_pos hallowed] at hclear
    rw [step_of_allowed hallowed]
    exact (act_effect hset hsecured hallowed).flagged hset hcovers hsecured hflag ha hclear
  · rw [step, if_neg hallowed]
    exact hflag

/-- So does a run: a flag stays as long as no block is handed out over it. -/
theorem run_flagged (hflag : Redzones.Flagged s h.machine.memory a) (ha : s.Tracks a) (calls : List HeapCall)
    (hclear : ∀ y ∈ h.handedOut r s calls, ¬r.Contains y a) :
    Redzones.Flagged s (h.run r (some s) calls).machine.memory a := by
  induction calls generalizing h with
  | nil => exact hflag
  | cons call calls ih =>
    have hstep := step_flagged hset hcovers hsecured hflag ha call fun y hy =>
      hclear y (List.mem_append_left _ (Option.mem_toList.mpr hy))
    exact ih (step_secured_tracked hset hsecured call) hstep fun y hy => hclear y (List.mem_append_right _ hy)

end Flags

/-- A call that takes a block away from its user flags the block's bytes: a block that is moved lies elsewhere. -/
theorem Releases.flagged {b : Bump} {h : RedzoneHeap Bump BumpError} (hset : r.Setting s (Bump.Account b))
    (hcovers : s.CoversBlocks (Bump.Account b)) (hsecured : h.Secured r (Bump.Account b)) (hx : x ∈ h.live)
    (hreleases : h.Releases r s x call) (hlo : x.user.toNat ≤ a.toNat)
    (hhi : a.toNat < x.user.toNat + roundUp x.len.toNat) :
    Redzones.Flagged s (h.step r (some s) call).machine.memory a := by
  have hplaced := hset.placed hsecured hx
  have hcovered := Redzones.Secured.covers hsecured hcovers hx
  have hstart := hplaced.start_add
  have hspan : r.stop x = x.user.toNat + roundUp x.len.toNat + r.tail.toNat := rfl
  cases call with
  | allocate len => exact hreleases.elim
  | store addr bytes => exact hreleases.elim
  | free user =>
    obtain ⟨rfl, hdone⟩ := hreleases
    have hallowed : (HeapCall.free x.user).Allowed h.live := Or.inr ⟨x, hx, rfl⟩
    rw [step_of_allowed hallowed]
    simp only [HeapCall.act, Action.run_bind]
    rcases Redzones.free_tracked hset hsecured hx with ⟨m', memory₁, hrun, -, -, hmemory⟩ | ⟨e, m', hrun, -⟩ <;>
      rw [hrun] at hdone ⊢
    · show Redzones.Flagged s m'.memory a
      rw [hmemory]
      exact Redzones.flagged_freed hplaced hcovered memory₁ hlo hhi
    · cases hdone
  | reallocate user len =>
    obtain ⟨rfl, moved, hdone, hne⟩ := hreleases
    have hallowed : (HeapCall.reallocate x.user len).Allowed h.live := Or.inr ⟨x, hx, rfl⟩
    rw [step_of_allowed hallowed]
    simp only [HeapCall.act, Action.run_bind]
    rcases Redzones.reallocate_tracked hset hsecured hx len with
      ⟨user, m', hrun, hout⟩ | ⟨e, m', hrun, -⟩ | ⟨m', hrun, -⟩ <;> rw [hrun] at hdone ⊢ <;> cases hdone
    have habove := Redzones.Secured.above_of_moved hset hsecured hx hrun hne
    have hfreed := Redzones.flagged_freed hplaced hcovered h.machine.memory hlo hhi
    refine hfreed.of_handsOut hout hset (hcovered a (by omega) (by omega)) ?_
    rw [Redzones.Contains]
    omega

end RedzoneHeap

namespace Context

/-- A validated access that starts in a flagged granule is rejected there. -/
theorem check_failed_of_flagged {A : Type} {c : Context} {m : Machine A} {access : Access} {last a : Address}
    (hrows : c.config.RowsNumbered) (hflag : Redzones.Flagged c.shadow m.memory a) (ha : c.shadow.Tracks a)
    (hval : c.Validates access last) (hgranule : access.addr.toNat / 8 = a.toNat / 8) :
    ∃ v, ((c.check access).run m).1 = .failed v ∧ v.kind = .heapUseAfterFree ∧
      v.shadowAddr = c.shadow.toShadow a := by
  have hbyte : c.shadow.byteAt m.memory access.addr = Tag.heapFreed.byte :=
    (ShadowMap.byteAt_congr hgranule).trans hflag
  have hnot : ¬Permits (c.shadow.byteAt m.memory access.addr) access.addr := by
    rw [hbyte]
    exact not_permits_of_le (by decide)
  refine ⟨_, check_failed_at_start hrows hval ((ShadowMap.tracks_congr hgranule).mpr ha) hnot, ?_,
    ShadowMap.toShadow_eq_iff.mpr hgranule⟩
  show ViolationKind.ofShadow (c.shadow.byteAt m.memory access.addr) _ = _
  rw [hbyte]
  rfl

/-- **Freed memory stays flagged until it is handed out again.** Take a context with a valid configuration, and a fresh
allocator whose region the shadow map holds whole and keeps its own bytes out of. After any run, let a call take a block
away from its user. At every later state, whatever else the program has done, the shadow bytes of the user's granules say
that they are freed, as long as no block has been handed out since that, with its redzones, takes in the granule; and
while they do, if the reports have fewer than 2^60 rows on either side, every validated access that starts in the granule is
rejected as a use after free. -/
theorem freed_stays_flagged (c : Context) (hconfig : c.config.validate = .ok ()) (start len align : UInt64)
    (halign : 8 ≤ align.toNat) (m : Machine Bump) (hfresh : Bump.ofRegion start len align = .ok m.allocator)
    (hcovers : c.shadow.Covers start.toNat (start.toNat + len.toNat))
    (hapart : c.shadow.space = .program → ∀ a : Address, start.toNat ≤ a.toNat → a.toNat < start.toNat + len.toNat →
      ¬c.shadow.Backs a)
    (before : List HeapCall) (x : UserBlock) (call : HeapCall) (later : List HeapCall) :
    let h := RedzoneHeap.run c.redzones (some c.shadow) { machine := m } before
    let released := h.step c.redzones (some c.shadow) call
    let now := released.run c.redzones (some c.shadow) later
    x ∈ h.live → h.Releases c.redzones c.shadow x call →
      ∀ a : Address, x.user.toNat ≤ a.toNat → a.toNat < x.user.toNat + roundUp x.len.toNat →
        ((∀ y ∈ released.handedOut c.redzones c.shadow later, ¬(y.user.toNat - c.config.headRedzone.toNat ≤ a.toNat ∧
            a.toNat < y.user.toNat + roundUp y.len.toNat + c.config.tailRedzone.toNat)) →
          c.shadow.byteAt now.machine.memory a = 0xfd) ∧
        (c.shadow.byteAt now.machine.memory a = 0xfd → c.config.RowsNumbered →
          ∀ access last, c.Validates access last → access.addr.toNat / 8 = a.toNat / 8 →
            ∃ v, ((c.check access).run now.machine).1 = .failed v ∧ v.kind = .heapUseAfterFree ∧
              v.shadowAddr = c.shadow.toShadow a) := by
  intro h released now hx hreleases a hlo hhi
  have hset : c.redzones.Setting c.shadow (Bump.Account m.allocator) :=
    Redzones.setting_of_ofRegion hconfig halign hfresh hapart (Or.inr hcovers)
  have hall := Redzones.coversBlocks_of_ofRegion hfresh hcovers
  have hsecured : h.Secured c.redzones (Bump.Account m.allocator) :=
    RedzoneHeap.run_secured_tracked hset (RedzoneHeap.secured_of_ofRegion c.redzones hfresh) before
  have hplaced := hset.placed hsecured hx
  have hstart := hplaced.start_add
  have hspan : c.redzones.stop x = x.user.toNat + roundUp x.len.toNat + c.redzones.tail.toNat := rfl
  have ha : c.shadow.Tracks a := Redzones.Secured.covers hsecured hall hx a (by omega) (by omega)
  have hflag : Redzones.Flagged c.shadow released.machine.memory a :=
    RedzoneHeap.Releases.flagged hset hall hsecured hx hreleases hlo hhi
  have hreleased : released.Secured c.redzones (Bump.Account m.allocator) :=
    RedzoneHeap.step_secured_tracked hset hsecured call
  exact ⟨fun hclear => RedzoneHeap.run_flagged hset hall hreleased hflag ha later hclear,
    fun hbyte hrows access last hval hgranule => check_failed_of_flagged hrows hbyte ha hval hgranule⟩

/-- A block of ten bytes is moved behind another one, which is given back, and a third is handed out. A read of one byte in
the old block's boundary granule is rejected as a use after free. -/
theorem moved_block_flagged :
    lowContext.config.validate = .ok () ∧ 8 ≤ (64 : UInt64).toNat ∧ Bump.ofRegion 0x100 0x400 64 = .ok lowRegion ∧
    lowContext.shadow.Covers 0x100 (0x100 + 0x400) ∧ lowContext.shadow.space = .detached ∧
    lowContext.config.RowsNumbered ∧
    let h := RedzoneHeap.run lowContext.redzones (some lowContext.shadow)
      { machine := { allocator := lowRegion } } [.allocate 10, .allocate 8]
    let released := h.step lowContext.redzones (some lowContext.shadow) (.reallocate 0x180 30)
    let later := [.store 0x29d [7], .free 0x200, .allocate 8]
    let after := released.run lowContext.redzones (some lowContext.shadow) later
    ⟨0x180, 10⟩ ∈ h.live ∧ h.Releases lowContext.redzones lowContext.shadow ⟨0x180, 10⟩ (.reallocate 0x180 30) ∧
    released.handedOut lowContext.redzones lowContext.shadow later = [⟨0x340, 8⟩] ∧
    ∃ v, ((lowContext.check (.load 0x18c 1 0)).run after.machine).1 = .failed v ∧ v.kind = .heapUseAfterFree ∧
      v.shadowAddr = 0x1031 := by
  have hcovers : lowContext.shadow.Covers 0x100 (0x100 + 0x400) := lowContext_covers _ (by decide)
  have hval : lowContext.Validates (.load 0x18c 1 0) 0x18c := lowContext_validates (by decide) (by decide) (by decide)
  refine ⟨rfl, by decide, rfl, hcovers, rfl, by decide, by decide +kernel,
    ⟨rfl, 0x280, by decide +kernel, by decide⟩, by decide +kernel, ?_⟩
  obtain ⟨hflagged, hfailed⟩ := freed_stays_flagged lowContext rfl 0x100 0x400 64 (by decide) { allocator := lowRegion } rfl
    hcovers nofun [.allocate 10, .allocate 8] ⟨0x180, 10⟩ (.reallocate 0x180 30)
    [.store 0x29d [7], .free 0x200, .allocate 8] (by decide +kernel) ⟨rfl, 0x280, by decide +kernel, by decide⟩ 0x188
    (by decide) (by decide)
  exact hfailed (hflagged (by decide +kernel)) (by decide) _ _ hval (by decide)

/-- With 2^60 rows asked for before the faulting one the configuration is still valid, but the check of a read in a freed
block traps in its report. -/
theorem longReports_freed_traps :
    longReports.config.validate = .ok () ∧ longReports.initialized = true ∧ 8 ≤ (64 : UInt64).toNat ∧
    Bump.ofRegion 0x100 0x400 64 = .ok lowRegion ∧ longReports.shadow.Covers 0x100 (0x100 + 0x400) ∧
    longReports.shadow.space = .detached ∧
    let h := RedzoneHeap.run longReports.redzones (some longReports.shadow)
      { machine := { allocator := lowRegion } } [.allocate 10]
    let released := h.step longReports.redzones (some longReports.shadow) (.free 0x180)
    ⟨0x180, 10⟩ ∈ h.live ∧ h.Releases longReports.redzones longReports.shadow ⟨0x180, 10⟩ (.free 0x180) ∧
    longReports.shadow.byteAt released.machine.memory 0x188 = 0xfd ∧ longReports.Validates (.load 0x188 1 0) 0x188 ∧
    ((longReports.check (.load 0x188 1 0)).run released.machine).1 = .trapped .mulOverflow := by
  have hcovers : lowContext.shadow.Covers 0x100 (0x100 + 0x400) := lowContext_covers _ (by decide)
  have hval : lowContext.Validates (.load 0x188 1 0) 0x188 := lowContext_validates (by decide) (by decide) (by decide)
  exact ⟨rfl, rfl, by decide, rfl, hcovers, rfl, by decide +kernel, ⟨rfl, by decide +kernel⟩, by decide +kernel,
    ⟨hval.1, hval.2, hval.3⟩, by decide +kernel⟩

end Context

end AddressSanitizer
