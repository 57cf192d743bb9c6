/-
Blocks with redzones around them: where their parts lie, what their shadow bytes are, and how a block is laid out. The
shadow map may hold all of a block's shadow bytes, some of them or none; `Marked` says what the updates of the map come to
in each of these cases, and none of them keeps the block from being handed out.

- `Laid`: the shadow bytes of a block that the map holds whole.
- `Accessible`: the shadow bytes of the user's bytes, as far as the map holds them, permit them.
- `run_track`: an update of the shadow map ends well, whether it was refused or not; only a trap in it is passed on.
- `run_marks`, `run_layOut`: how the updates and the whole layout run.
-/
import Mathlib.Tactic
import AddressSanitizer.Proofs.BumpBlocks
import AddressSanitizer.Proofs.Fences

namespace AddressSanitizer

/-- a block as its user knows it -/
structure UserBlock where
  user : Address
  len : UInt64
  deriving DecidableEq, Repr

namespace Redzones

variable {r : Redzones} {s : ShadowMap} {b b' : Bump} {m : Machine Bump} {memory memory' : Memory} {F : Footprint}
  {live : List UserBlock} {x y : UserBlock} {len : UInt64} {size : BlockSize}

/-- the bytes that a block takes with its redzones -/
def total (r : Redzones) (len : UInt64) : Nat := roundUp len.toNat + r.head.toNat + r.tail.toNat

theorem blockSize?_eq_some_iff :
    r.blockSize? len = some size ↔ size.aligned.toNat = roundUp len.toNat ∧ size.total.toNat = r.total len := by
  simp only [blockSize?, Option.bind_eq_bind, Option.bind_eq_some_iff, alignUp_eq_some_iff, checkedAdd_eq_some_iff,
    Option.pure_def, Option.some.injEq, total]
  constructor
  · rintro ⟨aligned, haligned, n, hn, total, htotal, rfl⟩
    exact ⟨haligned, by rw [htotal, hn, haligned]⟩
  · rintro ⟨haligned, htotal⟩
    have hlt := size.total.toNat_lt
    have hsum : (size.aligned + r.head).toNat = size.aligned.toNat + r.head.toNat := toNat_add_of_lt (by omega)
    exact ⟨size.aligned, haligned, _, hsum, size.total, by rw [hsum, htotal, haligned], rfl⟩

/-- what a block takes, if it is shorter than the address space -/
theorem blockSize?_of_total_lt (h : r.total len < 2 ^ 64) :
    r.blockSize? len = some ⟨(roundUp len.toNat).toUInt64, (r.total len).toUInt64⟩ := by
  have htotal : r.total len = roundUp len.toNat + r.head.toNat + r.tail.toNat := rfl
  exact blockSize?_eq_some_iff.mpr ⟨UInt64.toNat_ofNat_of_lt' (show roundUp len.toNat < 2 ^ 64 by omega),
    UInt64.toNat_ofNat_of_lt' h⟩

/-- the two redzones are whole granules, and there is room for a word in the first -/
structure Valid (r : Redzones) : Prop where
  head_mod : r.head.toNat % 8 = 0
  le_head : 8 ≤ r.head.toNat
  tail_mod : r.tail.toNat % 8 = 0

/-- a valid configuration has valid redzones -/
theorem valid_of_validate {c : Config} (h : c.validate = .ok ()) : (ofConfig c).Valid := by
  unfold Config.validate at h
  split_ifs at h with hhead htail
  have h8 : (8 : UInt64).toNat = 8 := rfl
  rw [aligned_iff, UInt64.lt_iff_toNat_lt, h8] at hhead
  rw [aligned_iff] at htail
  exact ⟨show c.headRedzone.toNat % 8 = 0 by omega, show 8 ≤ c.headRedzone.toNat by omega,
    show c.tailRedzone.toNat % 8 = 0 by omega⟩

/-- the allocator's block that a user's block lies in -/
def block (r : Redzones) (x : UserBlock) : Block := ⟨x.user - r.head, (r.total x.len).toUInt64⟩

/-- where the block of a user's block starts -/
def start (r : Redzones) (x : UserBlock) : Nat := x.user.toNat - r.head.toNat

/-- where the block of a user's block ends -/
def stop (r : Redzones) (x : UserBlock) : Nat := x.user.toNat + roundUp x.len.toNat + r.tail.toNat

/-- there is room for the head redzone, and the block is shorter than the address space -/
structure Fits (r : Redzones) (x : UserBlock) : Prop where
  head_le : r.head.toNat ≤ x.user.toNat
  total_lt : r.total x.len < 2 ^ 64

theorem Fits.start_add (h : r.Fits x) : r.start x + r.head.toNat = x.user.toNat := Nat.sub_add_cancel h.head_le

theorem Fits.block_addr (h : r.Fits x) : (x.user - r.head).toNat = r.start x := toNat_sub_of_le h.head_le

theorem Fits.headerOf?_user (h : r.Fits x) : r.headerOf? x.user = some (r.block x).addr := by
  have hstart := h.start_add
  rw [headerOf?, checkedSub_eq_some_iff, block, h.block_addr]
  omega

theorem Fits.userOf?_header (h : r.Fits x) : r.userOf? (x.user - r.head) = some x.user := by
  rw [userOf?, checkedAdd_eq_some_iff, h.block_addr, h.start_add]

theorem Fits.block_len (h : r.Fits x) : (r.block x).len.toNat = r.total x.len := UInt64.toNat_ofNat_of_lt' h.total_lt

theorem Fits.block_stop (h : r.Fits x) : (r.block x).stop = r.stop x := by
  have hlen := h.block_len
  have haddr : (r.block x).addr.toNat = r.start x := h.block_addr
  have hstart := h.start_add
  rw [Block.stop, hlen, haddr, stop, total]
  omega

/-! ## The shadow bytes of a block -/

/-- What the shadow bytes of a tracked block are: a redzone in front, the user's whole granules, a boundary granule with
the rest of the user's bytes, if there is a rest, and a redzone behind. -/
structure Laid (r : Redzones) (s : ShadowMap) (memory : Memory) (x : UserBlock) : Prop where
  head : ∀ a : Address, r.start x ≤ a.toNat → a.toNat < x.user.toNat → s.byteAt memory a = Tag.heapLeft.byte
  whole : ∀ a : Address, x.user.toNat ≤ a.toNat → a.toNat < x.user.toNat + x.len.toNat / 8 * 8 →
    s.byteAt memory a = 0
  boundary : ∀ a : Address, x.user.toNat + x.len.toNat / 8 * 8 ≤ a.toNat →
    a.toNat < x.user.toNat + roundUp x.len.toNat → (s.byteAt memory a).toNat = x.len.toNat % 8
  tail : ∀ a : Address, x.user.toNat + roundUp x.len.toNat ≤ a.toNat → a.toNat < r.stop x →
    s.byteAt memory a = Tag.heapRight.byte

theorem Laid.congr (h : r.Laid s memory x)
    (hsame : ∀ a : Address, r.start x ≤ a.toNat → a.toNat < r.stop x → s.byteAt memory' a = s.byteAt memory a) :
    r.Laid s memory' x := by
  have hround := le_roundUp x.len.toNat
  have hstart : r.start x ≤ x.user.toNat := Nat.sub_le _ _
  have hstop : r.stop x = x.user.toNat + roundUp x.len.toNat + r.tail.toNat := rfl
  refine ⟨fun a h1 h2 => ?_, fun a h1 h2 => ?_, fun a h1 h2 => ?_, fun a h1 h2 => ?_⟩
  · rw [hsame a h1 (by omega)]
    exact h.head a h1 h2
  · rw [hsame a (by omega) (by omega)]
    exact h.whole a h1 h2
  · rw [hsame a (by omega) (by omega)]
    exact h.boundary a h1 h2
  · rw [hsame a (by omega) h2]
    exact h.tail a h1 h2

/-- Of the user's bytes, those that the map tracks are permitted by their shadow bytes. -/
def Accessible (s : ShadowMap) (memory : Memory) (x : UserBlock) : Prop :=
  ∀ a : Address, x.user.toNat ≤ a.toNat → a.toNat < x.user.toNat + x.len.toNat → s.Tracks a →
    Permits (s.byteAt memory a) a

/-- The user's bytes of a laid block are fenced by its tail redzone. -/
theorem Laid.fenced (h : r.Laid s memory x) : s.Fenced memory x.user x.len (r.stop x) .heapRight :=
  ⟨h.whole, h.boundary, h.tail⟩

section Marks

variable {A ε : Type}

/-- the updates of the shadow map that lay out a block -/
def marks (r : Redzones) (s : ShadowMap) (header user : Address) (len aligned : UInt64) :
    Action A ShadowError Unit := do
  s.unpoison user len
  s.poison header r.head .heapLeft
  s.poison (← Action.add user aligned) r.tail .heapRight

/-- What the updates of the shadow map for a block do to it. No shadow bytes change but those of the block. If the map
holds all of these, the block is laid; if it holds those of the user's whole granules, the user's bytes are accessible; and
if it misses one of those, nothing changes. -/
structure Marked (r : Redzones) (s : ShadowMap) (x : UserBlock) (memory memory' : Memory) : Prop where
  frame : memory.SameOutside (s.footprint (r.start x) (r.stop x)) memory'
  laid : s.Covers (r.start x) (r.stop x) → r.Laid s memory' x
  accessible : s.Covers x.user.toNat (x.user.toNat + x.len.toNat / 8 * 8) → Accessible s memory' x
  untracked : ¬s.Covers x.user.toNat (x.user.toNat + x.len.toNat / 8 * 8) → memory' = memory

/-- An update of the shadow map never fails, and a refused one leaves an event in the log. -/
theorem run_track (s : ShadowMap) (update : ShadowMap → Action A ShadowError Unit)
    (untracked : ShadowError → Event) (m : Machine A) :
    (track (some s) update untracked : Action A ε Unit).run m =
      match (update s).run m with
      | (.done (), m') => (.done (), m')
      | (.failed e, m') => (.done (), { m' with log := m'.log.push (untracked e) })
      | (.trapped t, m') => (.trapped t, m') := by
  unfold track
  rw [Action.run_bind, Action.run_attempt]
  rcases (update s).run m with ⟨_ | _ | _, m'⟩ <;> rfl

variable {aligned : UInt64} (hx : r.Fits x) (hmod : x.user.toNat % 8 = 0) (hlt : r.stop x < 2 ^ 64)
include hx hmod hlt

/-- The map holds all of the user's granules: they are written, and then as many of the redzones as it holds. -/
theorem run_marks_of_covers (hr : r.Valid) (haligned : aligned.toNat = roundUp x.len.toNat)
    (hs : s.InSpace ∨ s.Covers (r.start x) (r.stop x))
    (h : s.Covers x.user.toNat (x.user.toNat + roundUp x.len.toNat)) (m : Machine A) :
    ∃ (o : Outcome ShadowError Unit) (m' : Machine A),
      (r.marks s (x.user - r.head) x.user x.len aligned).run m = (o, m') ∧ (o = .done () ∨ ∃ e, o = .failed e) ∧
      m'.allocator = m.allocator ∧ r.Marked s x m.memory m'.memory := by
  obtain ⟨hhead, -, htail⟩ := hr
  have haddr := hx.block_addr
  have hstart := hx.start_add
  have hstop : r.stop x = x.user.toNat + roundUp x.len.toNat + r.tail.toNat := rfl
  have hround := le_roundUp x.len.toNat
  have hroundmod := roundUp_mod x.len.toNat
  have hadd : checkedAdd x.user aligned = some (x.user + aligned) := checkedAdd_of_lt (by omega)
  have hend : (x.user + aligned).toNat = x.user.toNat + roundUp x.len.toNat := by
    rw [toNat_add_of_lt (by omega), haligned]
  have hpre : s.Covers x.user.toNat (x.user.toNat + x.len.toNat / 8 * 8) := h.mono le_rfl (by omega)
  obtain ⟨m₁, hrun₁, halloc₁, hsame₁, hzero, hrest⟩ := ShadowMap.run_unpoison_of_covers hmod (by omega) h m
  obtain ⟨o₂, m₂, hrun₂, hend₂, halloc₂, hsame₂, hset₂, -⟩ := ShadowMap.run_poison_cases (s := s)
    (x.user - r.head) .heapLeft (by omega) hhead (by omega)
    (hs.imp_right fun h => h.mono (by omega) (by omega)) m₁
  rw [haddr] at hsame₂ hset₂
  -- the redzones lie outside the user's granules, so laying them leaves those as they are
  have hkeep₂ (a : Address) (h1 : x.user.toNat ≤ a.toNat) : s.byteAt m₂.memory a = s.byteAt m₁.memory a :=
    ShadowMap.byteAt_of_sameOutside hsame₂ (ShadowMap.not_mem_footprint (by omega) (by omega) (Or.inr (by omega)))
  have hframe₂ : m.memory.SameOutside (s.footprint (r.start x) (r.stop x)) m₂.memory :=
    (hsame₁.mono (ShadowMap.footprint_mono (by omega) (by omega))).trans
      (hsame₂.mono (ShadowMap.footprint_mono le_rfl (by omega)))
  have haccessible (memory : Memory) (hsame : ∀ a : Address, x.user.toNat ≤ a.toNat →
      a.toNat < x.user.toNat + roundUp x.len.toNat → s.byteAt memory a = s.byteAt m₁.memory a) :
      Accessible s memory x := by
    refine fun a => ShadowMap.permits_of_bytes hmod (fun a h1 h2 => ?_) fun a h1 h2 _ => ?_
    · rw [hsame a h1 (by omega)]
      exact hzero a h1 h2
    · rw [hsame a (by omega) h2]
      exact hrest a h1 h2
  rcases hend₂ with rfl | ⟨e, rfl⟩
  · obtain ⟨o₃, m₃, hrun₃, hend₃, halloc₃, hsame₃, hset₃, -⟩ := ShadowMap.run_poison_cases (s := s)
      (x.user + aligned) .heapRight (by omega) htail (by omega)
      (hs.imp_right fun h => h.mono (by omega) (by omega)) m₂
    rw [hend] at hsame₃ hset₃
    have hkeep₃ (a : Address) (h1 : a.toNat < x.user.toNat + roundUp x.len.toNat) :
        s.byteAt m₃.memory a = s.byteAt m₂.memory a :=
      ShadowMap.byteAt_of_sameOutside hsame₃ (ShadowMap.not_mem_footprint (by omega) (by omega) (Or.inl h1))
    refine ⟨o₃, m₃, ?_, hend₃, halloc₃.trans (halloc₂.trans halloc₁), ⟨
      hframe₂.trans (hsame₃.mono (ShadowMap.footprint_mono (by omega) (by omega))), fun h => ?_,
      fun _ => haccessible _ fun a h1 h2 => (hkeep₃ a h2).trans (hkeep₂ a h1), fun hnot => absurd hpre hnot⟩⟩
    · simp only [marks, Action.run_bind, hrun₁, hrun₂, Action.add, hadd, Action.run_orTrap_some, hrun₃]
    · obtain ⟨-, hset₂⟩ := hset₂ (h.mono le_rfl (by omega))
      obtain ⟨-, hset₃⟩ := hset₃ (h.mono (by omega) (by omega))
      refine ⟨fun a h1 h2 => ?_, fun a h1 h2 => ?_, fun a h1 h2 => ?_, hset₃⟩
      · rw [hkeep₃ a (by omega)]
        exact hset₂ a h1 (by omega)
      · rw [hkeep₃ a (by omega), hkeep₂ a h1]
        exact hzero a h1 h2
      · rw [hkeep₃ a h2, hkeep₂ a (by omega)]
        exact hrest a h1 h2
  · refine ⟨.failed e, m₂, ?_, Or.inr ⟨e, rfl⟩, halloc₂.trans halloc₁, ⟨hframe₂, fun h => ?_,
      fun _ => haccessible _ fun a h1 _ => hkeep₂ a h1, fun hnot => absurd hpre hnot⟩⟩
    · simp only [marks, Action.run_bind, hrun₁, hrun₂]
    · cases (hset₂ (h.mono le_rfl (by omega))).1

/-- The map holds the user's granules but for the boundary one: they are cleared, and that is all. -/
theorem run_marks_of_prefix (h : s.Covers x.user.toNat (x.user.toNat + x.len.toNat / 8 * 8))
    (hmiss : ¬s.Covers x.user.toNat (x.user.toNat + roundUp x.len.toNat)) (m : Machine A) :
    ∃ (o : Outcome ShadowError Unit) (m' : Machine A),
      (r.marks s (x.user - r.head) x.user x.len aligned).run m = (o, m') ∧ (o = .done () ∨ ∃ e, o = .failed e) ∧
      m'.allocator = m.allocator ∧ r.Marked s x m.memory m'.memory := by
  have hstart := hx.start_add
  have hstop : r.stop x = x.user.toNat + roundUp x.len.toNat + r.tail.toNat := rfl
  have hround := le_roundUp x.len.toNat
  obtain ⟨e, m₁, hrun, halloc, hsame, hzero⟩ := ShadowMap.run_unpoison_of_prefix hmod (by omega) h (fun _ => hmiss) m
  refine ⟨.failed e, m₁, ?_, Or.inr ⟨e, rfl⟩, halloc, ⟨hsame.mono (ShadowMap.footprint_mono (by omega) (by omega)),
    fun hall => absurd (hall.mono (by omega) (by omega)) hmiss,
    fun _ _ => ShadowMap.permits_of_bytes hmod hzero fun a h1 h2 ha => ?_, fun hnot => absurd h hnot⟩⟩
  · simp only [marks, Action.run_bind, hrun]
  · -- a tracked byte of the boundary granule would make the map hold it
    rw [roundUp] at h2
    exact absurd (h.of_boundary hmod (by omega) ha) hmiss

omit hlt in
/-- The map misses one of the user's whole granules: nothing is written. -/
theorem run_marks_of_not_covers (hs : s.InSpace)
    (h : ¬s.Covers x.user.toNat (x.user.toNat + x.len.toNat / 8 * 8)) (m : Machine A) :
    ∃ (o : Outcome ShadowError Unit) (m' : Machine A),
      (r.marks s (x.user - r.head) x.user x.len aligned).run m = (o, m') ∧ (o = .done () ∨ ∃ e, o = .failed e) ∧
      m'.allocator = m.allocator ∧ r.Marked s x m.memory m'.memory := by
  have hstart := hx.start_add
  have hstop : r.stop x = x.user.toNat + roundUp x.len.toNat + r.tail.toNat := rfl
  have hround := le_roundUp x.len.toNat
  obtain ⟨e, hrun⟩ := ShadowMap.run_unpoison_of_not_covers hs hmod (fun _ => h) m
  refine ⟨.failed e, { m with log := m.log.push (.unpoison x.user x.len) }, ?_, Or.inr ⟨e, rfl⟩, rfl,
    ⟨Memory.SameOutside.refl _ _, fun hall => absurd (hall.mono (by omega) (by omega)) h, fun hall => absurd hall h,
      fun _ => rfl⟩⟩
  simp only [marks, Action.run_bind, hrun]

theorem run_marks (hr : r.Valid) (haligned : aligned.toNat = roundUp x.len.toNat)
    (hs : s.InSpace ∨ s.Covers (r.start x) (r.stop x)) (m : Machine A) :
    ∃ (o : Outcome ShadowError Unit) (m' : Machine A),
      (r.marks s (x.user - r.head) x.user x.len aligned).run m = (o, m') ∧ (o = .done () ∨ ∃ e, o = .failed e) ∧
      m'.allocator = m.allocator ∧ r.Marked s x m.memory m'.memory := by
  by_cases hwhole : s.Covers x.user.toNat (x.user.toNat + roundUp x.len.toNat)
  · exact run_marks_of_covers hx hmod hlt hr haligned hs hwhole m
  by_cases hpre : s.Covers x.user.toNat (x.user.toNat + x.len.toNat / 8 * 8)
  · exact run_marks_of_prefix hx hmod hlt hpre hwhole m
  · have hstart := hx.start_add
    have hround := le_roundUp x.len.toNat
    have hspace := hs.resolve_right fun h => hpre (h.mono (by omega) (by rw [stop]; omega))
    exact run_marks_of_not_covers hx hmod hspace hpre m

/-- Laying out a block ends with the user's address, whatever becomes of its shadow bytes. -/
theorem run_layOut (hr : r.Valid) (haligned : aligned.toNat = roundUp x.len.toNat)
    (hs : s.InSpace ∨ s.Covers (r.start x) (r.stop x)) (m : Machine A) :
    ∃ m' : Machine A,
      (r.layOut (some s) (x.user - r.head) x.len aligned : Action A ε Address).run m = (.done x.user, m') ∧
      m'.allocator = m.allocator ∧ r.Marked s x (m.memory.writeWord (x.user - r.head) aligned) m'.memory := by
  obtain ⟨o, m₁, hrun, hended, halloc, hmarked⟩ := run_marks hx hmod hlt hr haligned hs
    { m with memory := m.memory.writeWord (x.user - r.head) aligned
             log := m.log.push (.allocated (x.user - r.head) x.user aligned) }
  have htrack := run_track (ε := ε) s (fun s => r.marks s (x.user - r.head) x.user x.len aligned)
    (.allocUntracked x.user) { m with memory := m.memory.writeWord (x.user - r.head) aligned
                                      log := m.log.push (.allocated (x.user - r.head) x.user aligned) }
  rw [hrun] at htrack
  unfold marks at htrack
  simp only [layOut, hx.userOf?_header, Action.run_bind, Action.run_modifyMemory, Action.run_orTrap_some, Action.run_emit,
    htrack]
  rcases hended with rfl | ⟨e, rfl⟩
  · exact ⟨m₁, rfl, halloc, hmarked⟩
  · exact ⟨{ m₁ with log := m₁.log.push (.allocUntracked x.user e) }, rfl, halloc, hmarked⟩

end Marks

end Redzones

end AddressSanitizer
