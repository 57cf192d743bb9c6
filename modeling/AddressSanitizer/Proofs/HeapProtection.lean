/-
Heap protection. If the shadow map holds the shadow bytes of all blocks, then at every state of every run each block in use
is laid: the shadow bytes around it and in it are those of its layout, unless the allocator has refused to resize it. What
one operation writes never reaches the shadow bytes of another block.

- `UserHeap`: a heap, and where the allocator has refused to resize a block; but for that it runs like any other.
- `guarded_of_effect`, `run_guarded`: the shadow bytes of the blocks in use survive each effect of a call, and so every run.
- `Laid.exists_check_failed`: an access that touches a redzone of a block is rejected.
- `Context.heap_protected`: both together.
-/
import Mathlib.Tactic
import AddressSanitizer.Proofs.TrackedHeap

namespace AddressSanitizer

variable {A E : Type}

namespace Redzones

variable {r : Redzones} {s : ShadowMap} {Valid : A → Memory → List Block → Prop} {m m' : Machine A}
  {memory memory' : Memory} {live others : List UserBlock} {x y : UserBlock}

/-! ## What keeps a block laid -/

/-- A block stays laid under changes of the shadow bytes of granules outside the block, and of any other bytes. -/
theorem Laid.of_change (h : r.Laid s memory y) (hcovers : s.Covers (r.start y) (r.stop y)) {lo hi : Nat}
    (hsame : memory.SameOutside (s.bytesᶜ ∪ s.footprint lo hi) memory') (hlo : lo % 8 = 0) (hhi : hi % 8 = 0)
    (hout : hi ≤ r.start y ∨ r.stop y ≤ lo) : r.Laid s memory' y := by
  refine h.congr fun a h1 h2 => ShadowMap.byteAt_of_sameOutside hsame ?_
  rintro (hnot | hin)
  · exact hnot ⟨rfl, hcovers a h1 h2⟩
  · exact ShadowMap.not_mem_footprint hlo hhi (by omega) hin

theorem Laid.of_sameAt (h : r.Laid s memory y) (hcovers : s.Covers (r.start y) (r.stop y))
    (hsame : memory.SameAt s.bytes memory') : r.Laid s memory' y := by
  have hsame : memory.SameOutside (s.bytesᶜ ∪ s.footprint 0 0) memory' :=
    Memory.SameOutside.mono hsame Set.subset_union_left
  exact h.of_change hcovers hsame rfl rfl (Or.inl (Nat.zero_le _))

variable [HeapAllocator A E] (hset : r.Setting s Valid) (hcovers : s.CoversBlocks Valid)
include hset hcovers

/-- Marking another block freed keeps a block laid. -/
theorem Laid.of_freed {a : A} (h : r.Laid s memory' y) (hsecured : r.Secured Valid a memory live) (hx : x ∈ live)
    (hy : y ∈ live) (hne : x ≠ y) : r.Laid s (freed s memory' x) y := by
  have hplaced := hset.placed hsecured hx
  have hstart := hplaced.start_add
  have hstop : r.stop x = x.user.toNat + roundUp x.len.toNat + r.tail.toNat := rfl
  have hmod := roundUp_mod x.len.toNat
  have huser := hplaced.user_mod
  have hapart := hsecured.apart hset.contract hset.valid hx hy hne
  exact h.of_change (hsecured.covers hcovers hy)
    ((freed_cases hplaced (hset.writable_block hsecured hx) memory').1.mono Set.subset_union_right) huser (by omega)
    (by omega)

/-- A block that is handed out is laid, and the others stay so. -/
theorem HandsOut.laid (hout : r.HandsOut s Valid memory m' x others) :
    r.Laid s m'.memory x ∧ ∀ y ∈ others, r.Laid s memory y → r.Laid s m'.memory y := by
  obtain ⟨memory₁, hsame, hmarked⟩ := hout.marked
  have hx : x ∈ x :: others := List.mem_cons_self ..
  refine ⟨hmarked.laid (hout.secured.covers hcovers hx), fun y hy hlaid => ?_⟩
  have hplaced := hset.placed hout.secured hx
  have hstart := hplaced.start_add
  have hstop : r.stop x = x.user.toNat + roundUp x.len.toNat + r.tail.toNat := rfl
  have huser := hplaced.user_mod
  have hhead := hset.valid.head_mod
  have htail := hset.valid.tail_mod
  have hmod := roundUp_mod x.len.toNat
  have hapart := hout.secured.head_apart hset.contract hset.valid hy
  have hchange : memory.SameOutside (s.bytesᶜ ∪ s.footprint (r.start x) (r.stop x)) m'.memory :=
    (Memory.SameOutside.mono hsame Set.subset_union_left).trans (hmarked.frame.mono Set.subset_union_right)
  exact hlaid.of_change (hout.secured.covers hcovers (List.mem_cons_of_mem _ hy)) hchange (by omega) (by omega) hapart

end Redzones

/-! ## Runs -/

/-- a heap, and the addresses of the blocks that the allocator has refused to resize since it handed them out -/
structure UserHeap (A E : Type) extends RedzoneHeap A E where
  refused : List Address := []

/-- these addresses after a call: a block that is refused brings one in, and one that is handed out clears its own -/
def HeapCall.refusedAfter (refused : List Address) (call : HeapCall)
    (answer : Outcome (HeapError E) (Option Address)) : List Address :=
  (call.refused? answer).toList ++ refused.filter fun user => (call.newBlock? answer).all (·.user ≠ user)

theorem HeapCall.not_mem_of_refusedAfter {refused : List Address} {call : HeapCall}
    {answer : Outcome (HeapError E) (Option Address)} {user : Address} (hnot : user ∉ call.refusedAfter refused answer)
    (hnew : ∀ x ∈ call.newBlock? answer, x.user ≠ user) : user ∉ refused := by
  refine fun hmem => hnot (List.mem_append_right _ (List.mem_filter.mpr ⟨hmem, ?_⟩))
  cases hblock : call.newBlock? answer with
  | none => rfl
  | some x => exact decide_eq_true (hnew x hblock)

namespace UserHeap

variable {r : Redzones} {s : ShadowMap} {Valid : A → Memory → List Block → Prop} {h : UserHeap A E} {call : HeapCall}

/-- Every block in use is laid, unless the allocator has refused to resize it. -/
def Guarded (r : Redzones) (s : ShadowMap) (h : UserHeap A E) : Prop :=
  ∀ x ∈ h.live, x.user ∉ h.refused → r.Laid s h.machine.memory x

variable [HeapAllocator A E]

/-- a call as on any heap; which blocks are refused is kept besides -/
def step (r : Redzones) (s : ShadowMap) (h : UserHeap A E) (call : HeapCall) : UserHeap A E where
  toRedzoneHeap := h.toRedzoneHeap.step r (some s) call
  refused :=
    if call.Allowed h.live then call.refusedAfter h.refused ((call.act r (some s)).run h.machine).1 else h.refused

def run (r : Redzones) (s : ShadowMap) (h : UserHeap A E) (calls : List HeapCall) : UserHeap A E :=
  calls.foldl (step r s) h

/-- What is kept besides does not change a run. -/
theorem run_toRedzoneHeap (r : Redzones) (s : ShadowMap) (h : UserHeap A E) (calls : List HeapCall) :
    (h.run r s calls).toRedzoneHeap = h.toRedzoneHeap.run r (some s) calls := by
  induction calls generalizing h with
  | nil => rfl
  | cons call calls ih => exact ih (h.step r s call)

/-- A block that has been handed out is laid, and so are all others that were laid, unless they have been refused. -/
theorem laid_of_handsOut (hset : r.Setting s Valid) (hcovers : s.CoversBlocks Valid) {m' : Machine A}
    {answer : Outcome (HeapError E) (Option Address)} {memory : Memory} {refused : List Address} {x : UserBlock}
    {others : List UserBlock} (hnew : call.newBlock? answer = some x) (hout : r.HandsOut s Valid memory m' x others)
    (hothers : ∀ y ∈ others, y.user ∉ refused → r.Laid s memory y) :
    ∀ y ∈ x :: others, y.user ∉ call.refusedAfter refused answer → r.Laid s m'.memory y := by
  intro y hy hnot
  obtain ⟨hlaid, hkept⟩ := hout.laid hset hcovers
  rcases List.mem_cons.mp hy with rfl | hy
  · exact hlaid
  · refine hkept y hy (hothers y hy (HeapCall.not_mem_of_refusedAfter hnot ?_))
    rw [hnew]
    rintro x ⟨⟩
    exact hout.secured.head_user_ne hset.contract hset.valid hy

variable (hset : r.Setting s Valid) (hcovers : s.CoversBlocks Valid) (hsecured : h.Secured r Valid) (hg : h.Guarded r s)
include hset hcovers hsecured hg

theorem guarded_of_effect {ended : Outcome (HeapError E) (Option Address) × Machine A}
    (he : RedzoneHeap.Effect r s Valid h.toRedzoneHeap call ended) :
    ∀ y ∈ call.liveAfter h.live ended.1, y.user ∉ call.refusedAfter h.refused ended.1 →
      r.Laid s ended.2.memory y := by
  have hcovered {y : UserBlock} (hy : y ∈ h.live) := Redzones.Secured.covers hsecured hcovers hy
  -- marking a block freed leaves the others laid
  have hfreed {x y : UserBlock} (hx : x ∈ h.live) (hy : y ∈ h.live) (hne : y.user ≠ x.user) {memory : Memory}
      (hlaid : r.Laid s memory y) : r.Laid s (Redzones.freed s memory x) y :=
    hlaid.of_freed hset hcovers hsecured hx hy fun heq => hne (congrArg UserBlock.user heq.symm)
  cases he with
  | quiet hlive hnew _ hsame =>
    intro y hy hnot
    rw [hlive] at hy
    have hbefore := HeapCall.not_mem_of_refusedAfter hnot (by simp [hnew])
    exact (hg y hy hbefore).of_sameAt (hcovered hy) hsame
  | allocated hlive hnew hout =>
    rw [hlive]
    exact laid_of_handsOut hset hcovers hnew hout hg
  | resized hx hlive hnew hout =>
    rw [hlive]
    refine laid_of_handsOut hset hcovers hnew hout fun y hy hbefore => ?_
    obtain ⟨hy, hne⟩ : y ∈ h.live ∧ y.user ≠ _ := by simpa using hy
    exact hfreed hx hy hne (hg y hy hbefore)
  | @refused x hx hlive hnew hrefused _ hsame =>
    intro y hy hnot
    rw [hlive] at hy
    have hne : y.user ≠ x.user := by
      intro heq
      rw [heq, HeapCall.refusedAfter, hrefused] at hnot
      exact hnot (List.mem_cons_self ..)
    have hbefore := HeapCall.not_mem_of_refusedAfter hnot (by simp [hnew])
    exact (hfreed hx hy hne (hg y hy hbefore)).of_sameAt (hcovered hy) hsame
  | @freed x memory₁ hx hlive hnew _ hsame hmemory =>
    intro y hy hnot
    rw [hlive] at hy
    obtain ⟨hy, hne⟩ : y ∈ h.live ∧ y.user ≠ x.user := by simpa using hy
    have hbefore := HeapCall.not_mem_of_refusedAfter hnot (by simp [hnew])
    rw [hmemory]
    exact hfreed hx hy hne ((hg y hy hbefore).of_sameAt (hcovered hy) hsame)

theorem step_guarded (call : HeapCall) : (h.step r s call).Guarded r s := by
  by_cases hallowed : call.Allowed h.live
  · have heffect := RedzoneHeap.act_effect hset hsecured hallowed
    intro x hx hnot
    simp only [step, RedzoneHeap.step_of_allowed hallowed, if_pos hallowed] at hx hnot ⊢
    exact guarded_of_effect hset hcovers hsecured hg heffect x hx hnot
  · intro x hx hnot
    simp only [step, RedzoneHeap.step, if_neg hallowed] at hx hnot ⊢
    exact hg x hx hnot

/-- The blocks in use are laid at every state of a run. -/
theorem run_guarded (calls : List HeapCall) : (h.run r s calls).Guarded r s := by
  induction calls generalizing h with
  | nil => exact hg
  | cons call calls ih =>
    exact ih (RedzoneHeap.step_secured_tracked hset hsecured call) (step_guarded hset hcovers hsecured hg call)

end UserHeap

/-! ## What the checks make of it -/

namespace Redzones.Laid

variable {A : Type} {c : Context} {m : Machine A} {x : UserBlock} {access : Access} {last a : Address}

/-- Around the user's bytes of a block no byte is permitted. -/
theorem not_permits {r : Redzones} {s : ShadowMap} {memory : Memory} (h : r.Laid s memory x)
    (hmod : x.user.toNat % 8 = 0)
    (ha : r.start x ≤ a.toNat ∧ a.toNat < x.user.toNat ∨
      x.user.toNat + x.len.toNat ≤ a.toNat ∧ a.toNat < r.stop x) : ¬Permits (s.byteAt memory a) a := by
  rcases ha with ⟨h1, h2⟩ | ⟨h1, h2⟩
  · rw [h.head a h1 h2]
    exact not_permits_of_le (by decide)
  · exact h.fenced.not_permits hmod (by decide) h1 h2

/-- An access whose bytes are all tracked is rejected if it touches the block outside the user's bytes. -/
theorem exists_check_failed (hrows : c.config.RowsNumbered) (h : c.redzones.Laid c.shadow m.memory x)
    (hmod : x.user.toNat % 8 = 0) (hval : c.Validates access last)
    (htracked : ∀ a : Address, access.addr.toNat ≤ a.toNat → a.toNat ≤ last.toNat → c.shadow.Tracks a)
    (hlo : access.addr.toNat ≤ a.toNat) (hhi : a.toNat ≤ last.toNat)
    (ha : c.redzones.start x ≤ a.toNat ∧ a.toNat < x.user.toNat ∨
      x.user.toNat + x.len.toNat ≤ a.toNat ∧ a.toNat < c.redzones.stop x) :
    ∃ v, ((c.check access).run m).1 = .failed v := by
  have hforbids : c.shadow.Forbids m.memory access.addr last a :=
    ⟨hlo, hhi, fun b h1 h2 => htracked b h1 (by omega), h.not_permits hmod ha⟩
  obtain ⟨f, hf⟩ := hforbids.exists_first
  exact ⟨_, Context.check_failed_of_firstForbidden hrows hval hf⟩

end Redzones.Laid

/-! ## The heap is protected -/

/-- **Heap protection, at every state of every run.** Take a context with a valid configuration and a tail redzone, and a
fresh allocator whose region the shadow map holds whole and keeps its own bytes out of. However a program allocates,
resizes, gives back and stores into its blocks, for every block that the allocator has not refused to resize: accesses
inside it pass. If moreover the reports have fewer than 2^60 rows on either side, validated accesses to tracked bytes that
touch the block outside the user's bytes are rejected, and a validated access that runs over the end of the user's bytes is
rejected as a heap buffer overflow at that end. -/
theorem Context.heap_protected (c : Context) (hconfig : c.config.validate = .ok ())
    (htail : 0 < c.config.tailRedzone.toNat) (start len align : UInt64) (halign : 8 ≤ align.toNat) (m : Machine Bump)
    (hfresh : Bump.ofRegion start len align = .ok m.allocator)
    (hcovers : c.shadow.Covers start.toNat (start.toNat + len.toNat))
    (hapart : c.shadow.space = .program → ∀ a : Address, start.toNat ≤ a.toNat → a.toNat < start.toNat + len.toNat →
      ¬c.shadow.Backs a)
    (calls : List HeapCall) :
    let h := UserHeap.run c.redzones c.shadow { machine := m } calls
    ∀ x ∈ h.live, x.user ∉ h.refused →
      (∀ access : Access, access.Inside x.user x.len → ((c.check access).run h.machine).1 = .done ()) ∧
      (c.config.RowsNumbered → ∀ access last, c.Validates access last →
        (∀ a : Address, access.addr.toNat ≤ a.toNat → a.toNat ≤ last.toNat → c.shadow.Tracks a) →
        ∀ a : Address, access.addr.toNat ≤ a.toNat → a.toNat ≤ last.toNat →
        (x.user.toNat - c.config.headRedzone.toNat ≤ a.toNat ∧ a.toNat < x.user.toNat ∨
          x.user.toNat + x.len.toNat ≤ a.toNat ∧
            a.toNat < x.user.toNat + roundUp x.len.toNat + c.config.tailRedzone.toNat) →
        ∃ v, ((c.check access).run h.machine).1 = .failed v) ∧
      (c.config.RowsNumbered → ∀ access last, c.Validates access last → x.user.toNat ≤ access.addr.toNat →
        access.addr.toNat < x.user.toNat + x.len.toNat → x.user.toNat + x.len.toNat ≤ last.toNat →
        ∃ v, ((c.check access).run h.machine).1 = .failed v ∧ v.kind = .heapBufferOverflow ∧
          v.shadowAddr = c.shadow.toShadow (x.user + x.len)) := by
  intro h x hx hnot
  have hset : c.redzones.Setting c.shadow (Bump.Account m.allocator) :=
    Redzones.setting_of_ofRegion hconfig halign hfresh hapart (Or.inr hcovers)
  have hall : c.shadow.CoversBlocks (Bump.Account m.allocator) := Redzones.coversBlocks_of_ofRegion hfresh hcovers
  have hfirst := RedzoneHeap.secured_of_ofRegion c.redzones hfresh
  have hsecured : c.redzones.Secured (Bump.Account m.allocator) h.machine.allocator h.machine.memory h.live := by
    show RedzoneHeap.Secured _ _ h.toRedzoneHeap
    rw [UserHeap.run_toRedzoneHeap]
    exact RedzoneHeap.run_secured_tracked hset hfirst calls
  have hlaid := UserHeap.run_guarded hset hall hfirst (by simp [UserHeap.Guarded]) calls x hx hnot
  have hplaced := hset.placed hsecured hx
  have hmod := hplaced.user_mod
  have hadd := hplaced.start_add
  have hlt := hplaced.stop_lt
  have hcovers' : c.shadow.Covers x.user.toNat (c.redzones.stop x) :=
    (hsecured.covers hall hx).mono (by omega) le_rfl
  have htail8 : 8 ≤ c.redzones.tail.toNat := by
    have hmod := hset.valid.tail_mod
    have hpos : 0 < c.redzones.tail.toNat := htail
    omega
  have hround := le_roundUp x.len.toNat
  have hspan : c.redzones.stop x = x.user.toNat + roundUp x.len.toNat + c.redzones.tail.toNat := rfl
  refine ⟨fun access hin => Context.check_done_of_inside (fun a => hlaid.fenced.permits hmod) hin,
    fun hrows access last hval htracked a hlo hhi ha => hlaid.exists_check_failed hrows hmod hval htracked hlo hhi ha,
    fun hrows access last hval hlo hhi hover => ?_⟩
  obtain ⟨v, hfailed, haddr, hkind⟩ := check_failed_of_overrun hrows hlaid.fenced hmod (by decide) hcovers' (by omega)
    (by omega) hval hlo hhi hover
  exact ⟨v, hfailed, hkind (by omega), haddr⟩

/-- a region in the first 2048 bytes of memory -/
def lowRegion : Bump := ⟨0x100, 0x500, 0x100, 64⟩

/-- A block is moved behind another one, which is given back. A read over the end of its thirty bytes is rejected at the
byte behind them, although that byte lies in the granule of the last ones. -/
theorem Context.lowRegion_protected :
    lowContext.config.validate = .ok () ∧ 0 < lowContext.config.tailRedzone.toNat ∧ 8 ≤ (64 : UInt64).toNat ∧
    Bump.ofRegion 0x100 0x400 64 = .ok lowRegion ∧ lowContext.shadow.Covers 0x100 (0x100 + 0x400) ∧
    lowContext.shadow.space = .detached ∧ lowContext.config.RowsNumbered ∧
    let h := UserHeap.run lowContext.redzones lowContext.shadow { machine := { allocator := lowRegion } }
      [.allocate 10, .allocate 8, .reallocate 0x180 30, .store 0x29d [7], .free 0x200]
    ⟨0x280, 30⟩ ∈ h.live ∧
    ∃ v, ((lowContext.check (.load 0x298 8 0)).run h.machine).1 = .failed v ∧ v.kind = .heapBufferOverflow ∧
      v.shadowAddr = 0x1053 := by
  have hcovers : lowContext.shadow.Covers 0x100 (0x100 + 0x400) := lowContext_covers _ (by decide)
  have hval : lowContext.Validates (.load 0x298 8 0) 0x29f := lowContext_validates (by decide) (by decide) (by decide)
  refine ⟨rfl, by decide, by decide, rfl, hcovers, rfl, by decide, by decide +kernel, ?_⟩
  exact (heap_protected lowContext rfl (by decide) 0x100 0x400 64 (by decide) { allocator := lowRegion } rfl hcovers nofun
    _ ⟨0x280, 30⟩ (by decide +kernel) (by decide +kernel)).2.2 (by decide) _ _ hval (by decide) (by decide) (by decide)

/-- With 2^60 rows asked for before the faulting one the configuration is still valid, but the check of a read over the end
of a block traps in its report. -/
theorem Context.longReports_overrun_traps :
    longReports.config.validate = .ok () ∧ 0 < longReports.config.tailRedzone.toNat ∧
    longReports.initialized = true ∧ 8 ≤ (64 : UInt64).toNat ∧ Bump.ofRegion 0x100 0x400 64 = .ok lowRegion ∧
    longReports.shadow.Covers 0x100 (0x100 + 0x400) ∧ longReports.shadow.space = .detached ∧
    let h := UserHeap.run longReports.redzones longReports.shadow { machine := { allocator := lowRegion } } [.allocate 10]
    ⟨0x180, 10⟩ ∈ h.live ∧ longReports.Validates (.load 0x188 8 0) 0x18f ∧
    ((longReports.check (.load 0x188 8 0)).run h.machine).1 = .trapped .mulOverflow := by
  have hcovers : lowContext.shadow.Covers 0x100 (0x100 + 0x400) := lowContext_covers _ (by decide)
  have hval : lowContext.Validates (.load 0x188 8 0) 0x18f := lowContext_validates (by decide) (by decide) (by decide)
  exact ⟨rfl, by decide, rfl, by decide, rfl, hcovers, rfl, by decide +kernel, ⟨hval.1, hval.2, hval.3⟩, by decide +kernel⟩

end AddressSanitizer
