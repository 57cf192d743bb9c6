/-
A refused resizing leaves no trace. The user's bytes of a block are marked freed before the allocator is asked to resize
it, and stay so if it refuses. But whatever is done with the block next marks them first as well: the marks are the same,
and to set them twice comes to setting them once.

- `Memory.fill_again`, `Redzones.freed_again`: a block that is marked freed again looks as before.
- `blind_handOut`: how a block is handed out depends on what memory holds, and on nothing else that could tell a first
  attempt from a second.
- `Redzones.AsBefore`, `asBefore_of_failed`: what a failed attempt leaves, for a bump allocator.
- `mirrors_reallocate_again`, `mirrors_free_again`: resizing the block or giving it back ends and leaves the same after a
  failed attempt as without.
- `Context.refused_resizing_transparent`: at every state of every run.
-/
import Mathlib.Tactic
import AddressSanitizer.Proofs.BumpRoom
import AddressSanitizer.Proofs.UserData

namespace AddressSanitizer

/-- Bytes that are set again are what they were. -/
theorem Memory.fill_again (m : Memory) (space : Space) (a : Address) {n : Nat} (hn : n ≤ 2 ^ 64) (v : UInt8) :
    (m.fill space a n v).SameOutside ∅ ((m.fill space a n v).fill space a n v) := by
  intro space' b _
  rw [Memory.read_fill _ _ _ _ _ _ hn, Memory.read_fill _ _ _ _ _ _ hn]
  split_ifs <;> rfl

variable {A E ε α β : Type} {F : Footprint} {m m' : Machine A} {x : Action A ε α} {f : α → Action A ε β}

/-! ## Actions that depend on what memory holds -/

namespace HeapAllocator.Blind

theorem bind (hx : Blind F x m) (hf : ∀ a m₁, x.run m = (.done a, m₁) → Blind F (f a) m₁) : Blind F (x >>= f) m :=
  fun m' halike => (hx m' halike).bind fun a m₁ m₁' hrun h₁ => hf a m₁ hrun m₁' h₁

theorem mapError_bind {ε' : Type} {f : α → Action A ε' β} (hx : Blind F x m) (k : ε → ε')
    (hf : ∀ a m₁, x.run m = (.done a, m₁) → Blind F (f a) m₁) : Blind F (x.mapError k >>= f) m :=
  fun m' halike => (hx m' halike).mapError_bind k fun a m₁ m₁' hrun h₁ => hf a m₁ hrun m₁' h₁

end HeapAllocator.Blind

namespace ShadowMap

open HeapAllocator

variable {space : Space} {v : UInt8} {update : Memory → Except ShadowError Memory} {s : ShadowMap} {start len : UInt64}

theorem Sets.blind (h : Sets space v update) (m : Machine A) : Blind F (Action.updateMemory update) m := by
  intro m' halike
  constructor <;> rw [Action.run_updateMemory, Action.run_updateMemory]
  all_goals rcases h with ⟨e, he⟩ | ⟨first, n, -, hok⟩
  · rw [he, he]
  · rw [hok, hok]
  · rw [he, he]
    exact halike
  · rw [hok, hok]
    exact ⟨halike.allocator_eq, halike.memory_same.fill space first n v⟩

theorem blind_poison (s : ShadowMap) (start len : UInt64) (tag : Tag) (m : Machine A) :
    Blind F (s.poison start len tag) m :=
  .bind (fun _ h => .emit h _ _) fun _ _ _ => .bind (fun _ h => .assert h _ _) fun _ m₂ _ =>
    (s.sets_writeGranules start len tag.byte).blind m₂

theorem blind_unpoison (s : ShadowMap) (start len : UInt64) (m : Machine A) : Blind F (s.unpoison start len) m := by
  refine .bind (fun _ h => .emit h _ _) fun _ m₁ _ => .bind (fun _ h => .assert h _ _) fun _ m₂ _ =>
    .bind ((s.sets_writeGranules start _ _).blind m₂) fun _ m₃ _ => ?_
  split
  · exact .bind (fun _ h => .require h _ _) fun _ m₄ _ => (s.sets_write _ _ _).blind m₄
  · exact fun _ h => .pure h ()

end ShadowMap

namespace Redzones

open HeapAllocator

variable {r : Redzones} {s : ShadowMap}

theorem mirrors_track_of_mirrors {update : ShadowMap → Action A ShadowError Unit}
    (h : (update s).Mirrors F (update s) m m') (untracked : ShadowError → Event) :
    (track (some s) update untracked : Action A ε Unit).Mirrors F (track (some s) update untracked) m m' := by
  have hrun := run_track (ε := ε) s update untracked m
  have hrun' := run_track (ε := ε) s update untracked m'
  rcases hupdate : (update s).run m with ⟨_ | e | t, m₁⟩ <;> obtain ⟨m₁', hupdate', halike⟩ := h.run_eq hupdate <;>
    rw [hupdate] at hrun <;> rw [hupdate'] at hrun'
  · exact .of_run hrun hrun' halike
  · exact .of_run hrun hrun' ⟨halike.allocator_eq, halike.memory_same⟩
  · exact .of_run hrun hrun' halike

theorem blind_marks (r : Redzones) (s : ShadowMap) (header user : Address) (len aligned : UInt64) (m : Machine A) :
    Blind F (r.marks s header user len aligned) m :=
  .bind (s.blind_unpoison _ _ m) fun _ m₁ _ => .bind (s.blind_poison _ _ _ m₁) fun _ _ _ =>
    .bind (fun _ h => .orTrap h _ _) fun _ m₃ _ => s.blind_poison _ _ _ m₃

theorem blind_layOut (r : Redzones) (s : ShadowMap) (header : Address) (len aligned : UInt64) (m : Machine A) :
    Blind F (r.layOut (some s) header len aligned : Action A ε Address) m := by
  refine .bind (fun _ h => .modifyMemory h (h.memory_same.writeWord _ _)) fun _ m₁ _ => ?_
  refine .bind (fun _ h => .orTrap h _ _) fun user m₂ _ => .bind (fun _ h => .emit h _ _) fun _ m₃ _ => ?_
  exact .bind (fun m₃' h => mirrors_track_of_mirrors (r.blind_marks s header user len aligned m₃ m₃' h) _)
    fun _ _ _ _ h => .pure h user

/-- If the allocator looks at nothing but memory when it is asked for a block, neither does handing it out. -/
theorem blind_handOut {ask : Action A E Address} (hask : Blind F ask m) (r : Redzones) (s : ShadowMap)
    (len aligned : UInt64) : Blind F (r.handOut (some s) ask len aligned) m :=
  .mapError_bind hask _ fun header m₁ _ => r.blind_layOut s header len aligned m₁

theorem infallible_layOut (r : Redzones) (s : ShadowMap) (header : Address) (len aligned : UInt64) :
    (r.layOut (some s) header len aligned : Action A ε Address).Infallible := by
  refine .bind (fun _ _ _ => nofun) fun _ => .bind (fun m e m' hrun => ?_) fun user =>
    .bind (fun _ _ _ => nofun) fun _ => .bind (fun m e m' hrun => ?_) fun _ _ _ _ => nofun
  · cases huser : r.userOf? header <;> rw [huser] at hrun <;> cases hrun
  · rw [run_track] at hrun
    split at hrun <;> cases hrun

/-- Only the allocator keeps a block from being handed out, and then nothing else is done. -/
theorem of_failed_handOut {ask : Action A E Address} (hask : ask.FailsClean m) {len aligned : UInt64} {e : HeapError E}
    (hrun : (r.handOut (some s) ask len aligned).run m = (.failed e, m')) : m' = m ∧ ∃ cause, e = .allocator cause := by
  rw [run_handOut] at hrun
  rcases hheader : ask.run m with ⟨header | cause | t, m₁⟩ <;> rw [hheader] at hrun
  · exact absurd hrun (infallible_layOut r s header len aligned m₁ e m')
  · cases hrun
    exact ⟨hask _ _ hheader, cause, rfl⟩
  · cases hrun

/-! ## Marking a block freed again -/

/-- A block that is marked freed again looks as before. -/
theorem freed_again (s : ShadowMap) (memory : Memory) (x : UserBlock) :
    (freed s memory x).SameOutside ∅ (freed s (freed s memory x) x) := by
  unfold freed
  rcases s.sets_writeGranules x.user (roundUp x.len.toNat).toUInt64 Tag.heapFreed.byte with ⟨e, he⟩ | ⟨first, n, hn, hok⟩
  · rw [he, he]
    exact Memory.SameOutside.refl _ _
  · rw [hok, hok]
    exact Memory.fill_again _ _ _ hn _

theorem sameOutside_freed (s : ShadowMap) (memory : Memory) (x : UserBlock) :
    memory.SameOutside s.cells (freed s memory x) := by
  unfold freed
  cases hwrite : s.writeGranules x.user (roundUp x.len.toNat).toUInt64 Tag.heapFreed.byte memory with
  | ok memory' => exact ShadowMap.sameOutside_of_writeGranules hwrite
  | error e => exact Memory.SameOutside.refl _ _

/-! ## After a failed attempt -/

/-- The machine is as before an attempt to resize the block, except that the block may have been marked freed. -/
structure AsBefore (s : ShadowMap) (x : UserBlock) (m m' : Machine A) : Prop where
  allocator_eq : m'.allocator = m.allocator
  memory_eq : m'.memory = m.memory ∨ m'.memory = freed s m.memory x

namespace AsBefore

variable {x : UserBlock} (h : AsBefore s x m m')
include h

theorem alike : m.Alike s.cells m' := by
  obtain ⟨halloc, hmemory | hmemory⟩ := h
  · exact ⟨halloc, by rw [hmemory]; exact Memory.SameOutside.refl _ _⟩
  · exact ⟨halloc, by rw [hmemory]; exact sameOutside_freed s m.memory x⟩

/-- Once the block is marked freed, nothing tells that it has been before. -/
theorem freed_same : (freed s m.memory x).SameOutside ∅ (freed s m'.memory x) := by
  rcases h.memory_eq with hmemory | hmemory
  · rw [hmemory]
    exact Memory.SameOutside.refl _ _
  · rw [hmemory]
    exact freed_again s m.memory x

end AsBefore

section Bump

variable {b₀ : Bump} {m m' : Machine Bump} {live : List UserBlock} {x : UserBlock} {n : UInt64}
  (hc : HeapAllocator.Contract s.cells (Bump.Account b₀)) (hr : r.Valid)
  (h : r.Secured (Bump.Account b₀) m.allocator m.memory live) (hx : x ∈ live)
include hc hr h hx

/-- Giving back a block in use always ends well, with the block marked freed. -/
theorem run_free_of_account :
    ∃ m₁ : Machine Bump, (r.free (some s) x.user).run m = (.done (), m₁) ∧ m₁.memory = freed s m.memory x ∧
      m₁.allocator = ((Bump.free (r.block x).addr).run { m with log := m.log.push (.free x.user) }).2.allocator := by
  obtain ⟨b', hfree, -, -⟩ :=
    Bump.Inv.free (m := { m with log := m.log.push (.free x.user) }) h.valid.inv (List.mem_map_of_mem hx)
  obtain ⟨m₁, hrun₁, hmemory₁, halloc₁⟩ := run_free_tracked (s := s) hr (h.placed hc hr hx) (h.records x hx) hfree
  exact ⟨m₁, hrun₁, hmemory₁, by rw [hfree, halloc₁]⟩

omit hx in
/-- The allocator's account does not depend on whether the block is marked freed. -/
theorem secured_of_freed {m₁ : Machine Bump} (hmemory : m₁.memory = freed s m.memory x)
    (halloc : m₁.allocator = m.allocator) : r.Secured (Bump.Account b₀) m₁.allocator m₁.memory live :=
  h.of_alike hc hr ⟨halloc, by rw [hmemory]; exact sameOutside_freed s m.memory x⟩

/-- A failed attempt to resize a block leaves the machine as before, except that it may have marked the block freed; and
it has not even done that if there is no block that long. -/
theorem asBefore_of_failed {e : HeapError BumpError} (hrun : (r.reallocate (some s) x.user n).run m = (.failed e, m')) :
    AsBefore s x m m' ∧ ∀ len, e = .sizeOverflow len → m'.memory = m.memory := by
  cases hsize : r.blockSize? n with
  | none =>
    have hplaced := h.placed hc hr hx
    rw [run_reallocate (hplaced.user_ne_zero hr) hplaced.headerOf?_user, hsize] at hrun
    cases hrun
    exact ⟨⟨rfl, Or.inl rfl⟩, fun _ _ => rfl⟩
  | some size =>
    obtain ⟨m₁, hmemory₁, halloc₁, hrest⟩ := run_reallocate_tracked (s := s) hr (h.placed hc hr hx) (h.records x hx) hsize
    rw [hrest] at hrun
    have h₁ := secured_of_freed hc hr h hmemory₁ halloc₁
    obtain ⟨rfl, cause, rfl⟩ := of_failed_handOut (Bump.failsClean_reallocate h₁.valid.inv.power _ _) hrun
    exact ⟨⟨halloc₁, Or.inr hmemory₁⟩, nofun⟩

variable (hbefore : AsBefore s x m m')
include hbefore

/-- After a failed attempt the block is resized as it would have been without. -/
theorem mirrors_reallocate_again (hn : r.blockSize? n ≠ none) :
    (r.reallocate (some s) x.user n).Mirrors ∅ (r.reallocate (some s) x.user n) m m' := by
  obtain ⟨size, hsize⟩ := Option.ne_none_iff_exists'.mp hn
  have h' := h.of_alike hc hr hbefore.alike
  obtain ⟨m₁, hmemory₁, halloc₁, hrest⟩ := run_reallocate_tracked (s := s) hr (h.placed hc hr hx) (h.records x hx) hsize
  obtain ⟨m₁', hmemory₁', halloc₁', hrest'⟩ := run_reallocate_tracked (s := s) hr (h'.placed hc hr hx) (h'.records x hx) hsize
  have halike : m₁.Alike ∅ m₁' := by
    refine ⟨by rw [halloc₁', hbefore.allocator_eq, halloc₁], ?_⟩
    rw [hmemory₁, hmemory₁']
    exact hbefore.freed_same
  have h₁ := secured_of_freed hc hr h hmemory₁ halloc₁
  have hask : HeapAllocator.Blind ∅ (Bump.reallocate (r.block x).addr size.total) m₁ :=
    Bump.blind_reallocate h₁.valid.inv Footprint.empty_avoids (List.mem_map_of_mem hx) _
  exact .of_run_eq hrest hrest' (blind_handOut hask r s n size.aligned m₁' halike)

/-- After a failed attempt the block is given back as it would have been without. -/
theorem mirrors_free_again : (r.free (some s) x.user).Mirrors ∅ (r.free (some s) x.user) m m' := by
  obtain ⟨m₁, hrun₁, hmemory₁, halloc₁⟩ := run_free_of_account hc hr h hx
  obtain ⟨m₁', hrun₁', hmemory₁', halloc₁'⟩ := run_free_of_account hc hr (h.of_alike hc hr hbefore.alike) hx
  obtain ⟨-, hfree⟩ := hc.free_blind (m := { m with log := m.log.push (.free x.user) }) h.valid (List.mem_map_of_mem hx)
    { m' with log := m'.log.push (.free x.user) } ⟨hbefore.allocator_eq, hbefore.alike.memory_same⟩
  refine .of_run hrun₁ hrun₁' ⟨?_, ?_⟩
  · rw [halloc₁, halloc₁']
    exact hfree.allocator_eq
  · rw [hmemory₁, hmemory₁']
    exact hbefore.freed_same

end Bump

end Redzones

/-- **A refused resizing cannot be told by what comes after it.** Take a context with a valid configuration, any shadow map
with any bytes, and a fresh bump allocator whose region is apart from the memory of the shadow map. Let a program allocate,
resize and give back blocks and store into the blocks it holds, and let then a call fail to resize a block in use. Resizing
the block next, to any length that a block can have, or giving it back ends the same way as without that call, and leaves
the same allocator and the same bytes in all of memory, those of the shadow map among them. If no block is as long as the
call has asked for, it has changed nothing at all. -/
theorem Context.refused_resizing_transparent (c : Context) (hconfig : c.config.validate = .ok ()) (start len align : UInt64)
    (halign : 8 ≤ align.toNat) (m : Machine Bump) (hfresh : Bump.ofRegion start len align = .ok m.allocator)
    (hapart : c.shadow.cells.Avoids start.toNat (start.toNat + len.toNat)) (calls : List HeapCall) :
    let h := RedzoneHeap.run c.redzones (some c.shadow) { machine := m } calls
    ∀ x ∈ h.live, ∀ n e m', (c.reallocate x.user n).run h.machine = (.failed e, m') →
      (∀ n', c.redzones.blockSize? n' ≠ none →
        (c.reallocate x.user n').Mirrors ∅ (c.reallocate x.user n') h.machine m') ∧
      (c.free x.user).Mirrors ∅ (c.free x.user) h.machine m' ∧
      ∀ n', e = .sizeOverflow n' → m'.allocator = h.machine.allocator ∧ m'.memory = h.machine.memory := by
  intro h x hx n e m' hrun
  have hr : c.redzones.Valid := Redzones.valid_of_validate hconfig
  have hc : HeapAllocator.Contract c.shadow.cells (Bump.Account m.allocator) :=
    Bump.contract_of_ofRegion hfresh halign hapart
  have hfirst := RedzoneHeap.secured_of_ofRegion c.redzones hfresh
  have hplain := RedzoneHeap.run_secured hc hr hfirst calls
  have hlock : RedzoneHeap.Lockstep c.shadow.cells (RedzoneHeap.run c.redzones none { machine := m } calls) h :=
    RedzoneHeap.run_lockstep hc hr hfirst ⟨rfl, rfl, .refl _ m⟩ calls
  have hsecured := Redzones.Secured.of_alike hc hr hplain hlock.alike
  rw [hlock.live_eq] at hx
  obtain ⟨hbefore, hmemory⟩ := Redzones.asBefore_of_failed hc hr hsecured hx hrun
  exact ⟨fun n' hn' => Redzones.mirrors_reallocate_again hc hr hsecured hx hbefore hn',
    Redzones.mirrors_free_again hc hr hsecured hx hbefore, fun n' he => ⟨hbefore.allocator_eq, hmemory n' he⟩⟩

/-- two blocks, with three bytes stored into the first one -/
def Context.twoBlocks : RedzoneHeap Bump BumpError :=
  RedzoneHeap.run halfTracked.redzones (some halfTracked.shadow) { machine := { allocator := halfTrackedRegion } }
    [.allocate 10, .allocate 8, .store 0x1080 [1, 2, 3]]

/-- The allocator refuses to resize a block to the length of four kilobytes, which leaves the block marked freed; a length
beyond the address space does not even do that. After either, the block is moved as it would have been. -/
theorem Context.twoBlocks_refused_resizing :
    halfTracked.config.validate = .ok () ∧ 8 ≤ (64 : UInt64).toNat ∧
    Bump.ofRegion 0x1000 0x400 64 = .ok halfTrackedRegion ∧
    halfTracked.shadow.cells.Avoids 0x1000 (0x1000 + 0x400) ∧ ⟨0x1080, 10⟩ ∈ twoBlocks.live ∧
    twoBlocks.machine.memory.read .program 0x1410 = 0 ∧
    ((halfTracked.reallocate 0x1080 40).run twoBlocks.machine).1 = .done 0x1180 ∧
    (∃ m', (halfTracked.reallocate 0x1080 0x1000).run twoBlocks.machine =
        (.failed (.allocator (.outOfMemory 0x1060)), m') ∧ m'.memory.read .program 0x1410 = 0xfd ∧
      (halfTracked.reallocate 0x1080 40).Mirrors ∅ (halfTracked.reallocate 0x1080 40) twoBlocks.machine m' ∧
      (halfTracked.free 0x1080).Mirrors ∅ (halfTracked.free 0x1080) twoBlocks.machine m') ∧
    ∃ m', (halfTracked.reallocate 0x1080 0xffffffffffffffff).run twoBlocks.machine =
        (.failed (.sizeOverflow 0xffffffffffffffff), m') ∧ m'.memory = twoBlocks.machine.memory ∧
      (halfTracked.reallocate 0x1080 40).Mirrors ∅ (halfTracked.reallocate 0x1080 40) twoBlocks.machine m' := by
  have hlive : ⟨0x1080, 10⟩ ∈ twoBlocks.live := by decide +kernel
  have hrefused := refused_resizing_transparent halfTracked rfl 0x1000 0x400 64 (by decide)
    { allocator := halfTrackedRegion } rfl halfTracked_avoids [.allocate 10, .allocate 8, .store 0x1080 [1, 2, 3]] _ hlive
  have hlong : ((halfTracked.reallocate 0x1080 0x1000).run twoBlocks.machine).1 =
      .failed (.allocator (.outOfMemory 0x1060)) := by decide +kernel
  have hhuge : ((halfTracked.reallocate 0x1080 0xffffffffffffffff).run twoBlocks.machine).1 =
      .failed (.sizeOverflow 0xffffffffffffffff) := by decide +kernel
  obtain ⟨hagain, hfree, -⟩ := hrefused _ _ _ (Prod.fst_eq_iff.mp hlong)
  obtain ⟨hagain', -, hunchanged⟩ := hrefused _ _ _ (Prod.fst_eq_iff.mp hhuge)
  exact ⟨rfl, by decide, rfl, halfTracked_avoids, hlive, by decide +kernel, by decide +kernel,
    ⟨_, Prod.fst_eq_iff.mp hlong, by decide +kernel, hagain 40 (by decide), hfree⟩, _, Prod.fst_eq_iff.mp hhuge,
    (hunchanged _ rfl).2, hagain' 40 (by decide)⟩

end AddressSanitizer
