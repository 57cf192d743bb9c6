/-
Initialization that does not succeed. A layout is checked against the shadow map before anything is written, and a layout
that does not fit is turned away with no effect. One that fits may still be turned away: the map is cleared first, and
only then are the shadow bytes of the shadow region reserved, which the map may not hold. Such an attempt leaves the map
cleared. It leaves nothing else behind: how an initialization ends does not depend on what the shadow bytes say, and the
first thing a later one does is to clear them.

- `run_prepare_of_not_fits`: a layout that does not fit has no effect.
- `run_prepare_of_not_whole`, `run_prepare_of_whole`: one that fits clears the map, and then ends in the same way whatever
  the memory holds.
- `init_cases`: how an initialization ends that finds its latch empty, whatever kind of latch it is.
- `initsAlike`: machines that differ in shadow bytes alone are initialized in the same way.
- `Context.failed_init_keeps_shadow_iff`: which attempts keep the shadow bytes, and what a later attempt makes of them.
- `Context.refused_init_clears_shadow`: an attempt that does not keep them.
-/
import Mathlib.Tactic
import AddressSanitizer.Context
import AddressSanitizer.Proofs.Granules
import AddressSanitizer.Proofs.TwoRuns

namespace AddressSanitizer

/-- the length of the shadow region that a layout asks for, as far as the address space goes -/
def Layout.regionLen (l : Layout) : UInt64 := saturatingAdd l.shadowStart l.shadowSize - l.shadowStart

/-- The region is cut at the last address, so it never ends before it starts. -/
theorem Boundaries.shadowSize?_ofLayout (l : Layout) : (ofLayout l).shadowSize? = some l.regionLen := by
  have hle : l.shadowStart ≤ saturatingAdd l.shadowStart l.shadowSize := by
    rw [UInt64.le_iff_toNat_le]
    have hstart := l.shadowStart.toNat_lt
    unfold saturatingAdd
    cases hsum : checkedAdd l.shadowStart l.shadowSize with
    | some stop =>
      have := checkedAdd_eq_some_iff.mp hsum
      simp only [Option.getD_some]
      omega
    | none =>
      have hlast : (0 - 1 : UInt64).toNat = 2 ^ 64 - 1 := by decide
      simp only [Option.getD_none, hlast]
      omega
  exact if_pos hle

variable {A : Type}

namespace ShadowMap

variable {s : ShadowMap} {memory memory' : Memory} {a : Address} {v : UInt8}

/-! ## Clearing the map -/

/-- every shadow byte is zero -/
def Zeroed (s : ShadowMap) (memory : Memory) : Prop := ∀ a, (s.space, a) ∈ s.cells → memory.read s.space a = 0

theorem read_clear (h : (s.space, a) ∈ s.cells) : (s.clear v memory).read s.space a = v := by
  have hnear : (a - s.base).toNat < s.len.toNat := h.2
  rw [clear, Memory.read_fill _ _ _ _ _ _ (Nat.le_of_lt s.len.toNat_lt), if_pos ⟨rfl, hnear⟩]

theorem sameOutside_clear (s : ShadowMap) (v : UInt8) (memory : Memory) :
    memory.SameOutside s.cells (s.clear v memory) := by
  intro space a ha
  rw [clear, Memory.read_fill _ _ _ _ _ _ (Nat.le_of_lt s.len.toNat_lt), if_neg]
  rintro ⟨rfl, hnear⟩
  exact ha ⟨rfl, hnear⟩

/-- Clearing the map changes none of its bytes exactly if they were all zero. -/
theorem clear_keeps_iff (s : ShadowMap) (memory : Memory) :
    (∀ a, (s.space, a) ∈ s.cells → (s.clear 0 memory).read s.space a = memory.read s.space a) ↔ s.Zeroed memory := by
  constructor
  · intro h a ha
    rw [← h a ha, read_clear ha]
  · intro h a ha
    rw [read_clear ha, h a ha]

/-- Memories that differ in the shadow bytes alone are the same once these are cleared. -/
theorem clear_same (h : memory.SameOutside s.cells memory') (v : UInt8) :
    (s.clear v memory).SameOutside ∅ (s.clear v memory') := by
  intro space a _
  by_cases ha : (space, a) ∈ s.cells
  · obtain rfl : space = s.space := ha.1
    rw [read_clear ha, read_clear ha]
  · rw [sameOutside_clear s v memory' space a ha, sameOutside_clear s v memory space a ha, h space a ha]

/-! ## Reserving a range of it -/

theorem run_poison_of_not_aligned {start len : UInt64} {tag : Tag} (s : ShadowMap) (h : ¬Aligned start) (m : Machine A) :
    (s.poison start len tag).run m =
      (.trapped .unalignedPoison, { m with log := m.log.push (.poison start len tag) }) := by
  have hnot : ¬(Aligned start ∧ Aligned len) := fun hboth => h hboth.1
  simp only [poison, Action.run_bind, Action.run_emit, Action.assert, if_neg hnot, Action.run_trap]

end ShadowMap

/-- the machine with its memory changed by `f` and some events logged -/
def Machine.updated (m : Machine A) (f : Memory → Memory) (events : Array Event) : Machine A :=
  { m with memory := f m.memory, log := m.log ++ events }

namespace Context

section Prepare

variable {L : Type} {c : Context L} {layout : Layout}

/-- The checks of an initialization let the layout pass: its shadow region starts where the map does, is no longer than
the map, and has the map's offset. -/
structure Fits (c : Context L) (layout : Layout) : Prop where
  start_eq : layout.shadowStart = c.shadow.base
  len_le : layout.regionLen ≤ c.shadow.len
  offset_eq : layout.shadowOffset = c.shadow.translation.offset

/-- The shadow region starts with a granule, and can be rounded up to whole granules. An initialization insists on both,
by assertions. -/
structure Whole (c : Context L) (layout : Layout) : Prop where
  start_aligned : Aligned c.shadow.base
  len_rounds : layout.regionLen.toNat + 7 < 2 ^ 64

/-- the shadow region in whole granules -/
theorem Whole.exists_region (h : c.Whole layout) :
    ∃ region, alignUp layout.regionLen = some region ∧ region.toNat = roundUp layout.regionLen.toNat := by
  cases hregion : alignUp layout.regionLen with
  | none =>
    have hover := alignUp_eq_none_iff.mp hregion
    have hrounds := h.len_rounds
    omega
  | some region => exact ⟨region, rfl, alignUp_eq_some_iff.mp hregion⟩

/-! ## How an initialization runs -/

theorem run_prepare_of_not_fits (h : ¬c.Fits layout) :
    ∃ e, ∀ m : Machine A, (c.prepare layout).run m = (.failed e, m) := by
  unfold prepare
  simp only [Boundaries.shadowSize?_ofLayout]
  by_cases hstart : (Boundaries.ofLayout layout).shadowStart ≠ c.shadow.base
  · exact ⟨.baseMismatch layout.shadowStart c.shadow.base, fun m => by rw [if_pos hstart]; rfl⟩
  by_cases hlen : c.shadow.len < layout.regionLen
  · refine ⟨.shadow (.regionTooLarge layout.regionLen c.shadow.len), fun m => ?_⟩
    rw [if_neg hstart, Action.run_bind, Action.run_orTrap_some]
    simp only [if_pos hlen]
    rfl
  have hoffset : layout.shadowOffset ≠ c.shadow.translation.offset := fun hoffset =>
    h ⟨not_not.mp hstart, UInt64.not_lt.mp hlen, hoffset⟩
  refine ⟨.offsetMismatch layout.shadowOffset c.shadow.translation.offset, fun m => ?_⟩
  rw [if_neg hstart, Action.run_bind, Action.run_orTrap_some]
  simp only [if_neg hlen, if_pos hoffset]
  rfl

/-- Past the checks, the map is cleared before anything else can go wrong. -/
theorem run_prepare_eq (h : c.Fits layout) (m : Machine A) :
    (c.prepare layout).run m =
      match alignUp layout.regionLen with
      | none => (.trapped .alignUpOverflow, { m with memory := c.shadow.clear Tag.valid.byte m.memory })
      | some region =>
        match (c.shadow.poison c.shadow.base region .reserved).run
          { m with memory := c.shadow.clear Tag.valid.byte m.memory } with
        | (.done _, m') =>
          (.done (Boundaries.ofLayout layout), { m' with log := m'.log.push (.initialized (Boundaries.ofLayout layout)) })
        | (.failed e, m') => (.failed (.shadow e), m')
        | (.trapped t, m') => (.trapped t, m') := by
  have hstart : (Boundaries.ofLayout layout).shadowStart = c.shadow.base := h.start_eq
  unfold prepare
  simp only [Boundaries.shadowSize?_ofLayout, hstart, ne_eq, not_true_eq_false, if_false]
  rw [Action.run_bind, Action.run_orTrap_some]
  simp only [if_neg (UInt64.not_lt.mpr h.len_le), h.offset_eq, not_true_eq_false, if_false]
  rw [Action.run_bind, Action.run_modifyMemory]
  simp only
  rw [Action.run_bind]
  cases alignUp layout.regionLen with
  | none => rfl
  | some region =>
    rw [Action.run_orTrap_some]
    simp only
    rw [Action.run_mapError_bind]
    rcases (c.shadow.poison c.shadow.base region .reserved).run _ with ⟨_ | _ | _, m'⟩ <;> rfl

theorem run_prepare_of_not_whole (h : c.Fits layout) (hwhole : ¬c.Whole layout) :
    ∃ t events, ∀ m : Machine A,
      (c.prepare layout).run m = (.trapped t, m.updated (c.shadow.clear Tag.valid.byte) events) := by
  have hrun (m : Machine A) := run_prepare_eq h m
  cases hregion : alignUp layout.regionLen with
  | none =>
    simp only [hregion] at hrun
    refine ⟨.alignUpOverflow, #[], fun m => ?_⟩
    rw [hrun]
    simp [Machine.updated]
  | some region =>
    have hlen : layout.regionLen.toNat + 7 < 2 ^ 64 := by
      by_contra hover
      rw [alignUp_eq_none_iff.mpr (Nat.le_of_not_lt hover)] at hregion
      cases hregion
    have hbase : ¬Aligned c.shadow.base := fun hbase => hwhole ⟨hbase, hlen⟩
    simp only [hregion, c.shadow.run_poison_of_not_aligned hbase] at hrun
    refine ⟨.unalignedPoison, #[.poison c.shadow.base region .reserved], fun m => ?_⟩
    rw [hrun]
    simp [Machine.updated]

/-- The shadow bytes of the shadow region are reserved, or the map does not hold them all. -/
theorem run_prepare_of_whole (h : c.Fits layout) (hwhole : c.Whole layout) :
    (∃ e events, ∀ m : Machine A,
      (c.prepare layout).run m = (.failed e, m.updated (c.shadow.clear Tag.valid.byte) events)) ∨
    ∃ b events first n, ∀ m : Machine A, (c.prepare layout).run m =
      (.done b, m.updated (fun memory =>
        (c.shadow.clear Tag.valid.byte memory).fill c.shadow.space first n Tag.reserved.byte) events) := by
  have hrun (m : Machine A) := run_prepare_eq h m
  obtain ⟨region, hregion, hlen⟩ := hwhole.exists_region
  have haligned : region.toNat % 8 = 0 := by rw [hlen, roundUp_mod]
  simp only [hregion, ShadowMap.run_poison (aligned_iff.mp hwhole.start_aligned) haligned] at hrun
  rcases c.shadow.sets_writeGranules c.shadow.base region Tag.reserved.byte with ⟨e, he⟩ | ⟨first, n, -, hok⟩
  · left
    simp only [he] at hrun
    refine ⟨.shadow e, #[.poison c.shadow.base region .reserved], fun m => ?_⟩
    rw [hrun]
    simp [Machine.updated]
  · right
    simp only [hok] at hrun
    refine ⟨Boundaries.ofLayout layout, #[.poison c.shadow.base region .reserved, .initialized (Boundaries.ofLayout layout)],
      first, n, fun m => ?_⟩
    rw [hrun]
    rfl

end Prepare

/-! ## What the latch makes of it -/

section Latches

variable {L : Type} [LatchLike L Boundaries] {c : Context L} {b : Boundaries}

theorem init_of_filled (laws : LatchLike.Laws L) (h : LatchLike.get? c.boundaries = some b) (layout : Layout)
    (m : Machine A) : c.init layout m = (.done (), c, m) := by
  rw [init, laws.fillWith_filled h]

theorem init_of_broken (laws : LatchLike.Laws L) (h : LatchLike.Broken c.boundaries) (layout : Layout) (m : Machine A) :
    c.init layout m = (.trapped .brokenLatch, c, m) := by
  rw [init, laws.fillWith_broken h]

/-- An initialization that finds the latch empty ends as its preparation does. -/
theorem init_cases (laws : LatchLike.Laws L) (hempty : c.boundaries = LatchLike.empty) (layout : Layout) (m : Machine A) :
    (∃ b latch m', (c.prepare layout).run m = (.done b, m') ∧ LatchLike.get? latch = some b ∧
      c.init layout m = (.done (), { c with boundaries := latch }, m')) ∨
    (∃ e m', (c.prepare layout).run m = (.failed e, m') ∧ c.init layout m = (.failed e, c, m')) ∨
    ∃ t latch m', (c.prepare layout).run m = (.trapped t, m') ∧ LatchLike.Broken latch ∧
      c.init layout m = (.trapped t, { c with boundaries := latch }, m') := by
  rcases hrun : (c.prepare layout).run m with ⟨b | e | t, m'⟩
  · obtain ⟨latch, hfill, hfilled⟩ := laws.fillWith_of_done hrun
    exact Or.inl ⟨b, latch, m', rfl, hfilled, by rw [init, hempty, hfill]⟩
  · have hfill := laws.fillWith_of_failed hrun
    refine Or.inr (Or.inl ⟨e, m', rfl, ?_⟩)
    rw [init, hempty, hfill, ← hempty]
  · obtain ⟨latch, hfill, hbroken⟩ := laws.fillWith_of_trapped hrun
    exact Or.inr (Or.inr ⟨t, latch, m', rfl, hbroken, by rw [init, hempty, hfill]⟩)

end Latches

variable {c : Context} {layout : Layout}

theorem init_of_empty (h : c.boundaries = .empty) (m : Machine A) :
    c.init layout m =
      match (c.prepare layout).run m with
      | (.done b, m') => (.done (), { c with boundaries := .filled b }, m')
      | (.failed e, m') => (.failed e, c, m')
      | (.trapped t, m') => (.trapped t, { c with boundaries := .broken }, m') := by
  obtain ⟨shadow, config, boundaries⟩ := c
  obtain rfl : boundaries = .empty := h
  simp only [init, Latch.fillWith_eq, Latch.fillWith]
  rcases (prepare _ layout).run m with ⟨_ | _ | _, m'⟩ <;> rfl

theorem empty_or_broken (h : c.initialized = false) : c.boundaries = .empty ∨ c.boundaries = .broken := by
  unfold initialized at h
  cases hb : c.boundaries with
  | empty => exact Or.inl rfl
  | broken => exact Or.inr rfl
  | filled b =>
    rw [hb] at h
    cases h

/-! ## Two initializations -/

/-- The context is initialized in the same way on both machines: with one outcome, one context and one addition to the
logs. If the layout fits, as it does whenever an initialization succeeds, all bytes of the two memories are the same
afterwards. -/
structure InitsAlike (c : Context) (layout : Layout) (m m' : Machine A) : Prop where
  outcome_eq : (c.init layout m').1 = (c.init layout m).1
  context_eq : (c.init layout m').2.1 = (c.init layout m).2.1
  log_eq : ∃ events, (c.init layout m).2.2.log = m.log ++ events ∧ (c.init layout m').2.2.log = m'.log ++ events
  alike : (c.init layout m).2.2.Alike c.shadow.cells (c.init layout m').2.2
  fits : (c.init layout m).1 = .done () → c.Fits layout
  memory_same : c.Fits layout → (c.init layout m).2.2.memory.SameOutside ∅ (c.init layout m').2.2.memory

/-- An initialization does not see the shadow bytes that it finds. -/
theorem initsAlike {m m' : Machine A} (hempty : c.boundaries = .empty) (h : m.Alike c.shadow.cells m')
    (layout : Layout) : c.InitsAlike layout m m' := by
  have hclear := ShadowMap.clear_same h.memory_same Tag.valid.byte
  -- what an initialization that gets past its checks does to both machines
  have hupdated {o : Outcome ContextError Unit} {c' : Context} {f : Memory → Memory} {events : Array Event}
      (hfits : c.Fits layout) (hinit : ∀ m : Machine A, c.init layout m = (o, c', m.updated f events))
      (hsame : (f m.memory).SameOutside ∅ (f m'.memory)) : c.InitsAlike layout m m' := by
    constructor <;> simp only [hinit]
    · exact ⟨events, rfl, rfl⟩
    · exact ⟨h.allocator_eq, hsame.mono (Set.empty_subset _)⟩
    · exact fun _ => hfits
    · exact fun _ => hsame
  by_cases hfits : c.Fits layout
  case neg =>
    obtain ⟨e, hrun⟩ := run_prepare_of_not_fits (A := A) hfits
    have hinit (m : Machine A) : c.init layout m = (.failed e, c, m) := by rw [init_of_empty hempty, hrun]
    constructor <;> simp only [hinit]
    · exact ⟨#[], by simp, by simp⟩
    · exact h
    · exact nofun
    · exact fun hyes => absurd hyes hfits
  by_cases hwhole : c.Whole layout
  case neg =>
    obtain ⟨t, events, hrun⟩ := run_prepare_of_not_whole (A := A) hfits hwhole
    exact hupdated hfits (fun m => by rw [init_of_empty hempty, hrun]) hclear
  rcases run_prepare_of_whole (A := A) hfits hwhole with ⟨e, events, hrun⟩ | ⟨b, events, first, n, hrun⟩
  · exact hupdated hfits (fun m => by rw [init_of_empty hempty, hrun]) hclear
  · exact hupdated hfits (fun m => by rw [init_of_empty hempty, hrun])
      (hclear.fill c.shadow.space first n Tag.reserved.byte)

/-! ## Attempts that do not succeed -/

section Unsuccessful

variable {m m' : Machine A} {o : Outcome ContextError Unit} {c' : Context}

/-- How an initialization ends that does not succeed, the context it leaves and the machine it leaves. -/
inductive Unsuccessful (c : Context) (layout : Layout) (m : Machine A) :
    Outcome ContextError Unit → Context → Machine A → Prop where
  /-- an earlier initialization has trapped -/
  | broken (hbroken : c.boundaries = .broken) : c.Unsuccessful layout m (.trapped .brokenLatch) c m
  /-- the layout does not fit -/
  | refused (e : ContextError) (hempty : c.boundaries = .empty) (hfits : ¬c.Fits layout) :
    c.Unsuccessful layout m (.failed e) c m
  /-- the shadow region cannot be made of whole granules, as turned out after the map was cleared -/
  | trapped (t : Trap) (events : Array Event) (hempty : c.boundaries = .empty) (hfits : c.Fits layout)
      (hwhole : ¬c.Whole layout) :
    c.Unsuccessful layout m (.trapped t) { c with boundaries := .broken }
      (m.updated (c.shadow.clear Tag.valid.byte) events)
  /-- the map does not hold the shadow bytes of the shadow region, as turned out after it was cleared -/
  | unreserved (e : ContextError) (events : Array Event) (hempty : c.boundaries = .empty) (hfits : c.Fits layout)
      (hwhole : c.Whole layout) :
    c.Unsuccessful layout m (.failed e) c (m.updated (c.shadow.clear Tag.valid.byte) events)

theorem unsuccessful_of_not_done (hc : c.initialized = false) (hrun : c.init layout m = (o, c', m'))
    (hfail : o ≠ .done ()) : c.Unsuccessful layout m o c' m' := by
  rcases empty_or_broken hc with hempty | hbroken
  case inr =>
    rw [init_of_broken Latch.laws hbroken] at hrun
    cases hrun
    exact .broken hbroken
  by_cases hfits : c.Fits layout
  case neg =>
    obtain ⟨e, hprepare⟩ := run_prepare_of_not_fits (A := A) hfits
    rw [init_of_empty hempty, hprepare] at hrun
    cases hrun
    exact .refused e hempty hfits
  by_cases hwhole : c.Whole layout
  case neg =>
    obtain ⟨t, events, hprepare⟩ := run_prepare_of_not_whole (A := A) hfits hwhole
    rw [init_of_empty hempty, hprepare] at hrun
    cases hrun
    exact .trapped t events hempty hfits hwhole
  rcases run_prepare_of_whole (A := A) hfits hwhole with ⟨e, events, hprepare⟩ | ⟨b, events, first, n, hprepare⟩
  · rw [init_of_empty hempty, hprepare] at hrun
    cases hrun
    exact .unreserved e events hempty hfits hwhole
  · rw [init_of_empty hempty, hprepare] at hrun
    cases hrun
    exact absurd rfl hfail

/-- An attempt that does not succeed changes shadow bytes at most. -/
theorem Unsuccessful.alike (h : c.Unsuccessful layout m o c' m') : m.Alike c.shadow.cells m' := by
  cases h with
  | broken => exact .refl _ m
  | refused => exact .refl _ m
  | trapped => exact ⟨rfl, c.shadow.sameOutside_clear _ _⟩
  | unreserved => exact ⟨rfl, c.shadow.sameOutside_clear _ _⟩

/-- It changes none of them exactly if it ends before the map is cleared, or the map was clear already. -/
theorem Unsuccessful.keeps_shadow_iff (h : c.Unsuccessful layout m o c' m') :
    (∀ a, (c.shadow.space, a) ∈ c.shadow.cells →
        m'.memory.read c.shadow.space a = m.memory.read c.shadow.space a) ↔
      c.boundaries = .broken ∨ ¬c.Fits layout ∨ c.shadow.Zeroed m.memory := by
  have hne (hempty : c.boundaries = .empty) : c.boundaries ≠ .broken := by
    rw [hempty]
    exact nofun
  cases h with
  | broken hbroken => exact iff_of_true (fun _ _ => rfl) (Or.inl hbroken)
  | refused e _ hfits => exact iff_of_true (fun _ _ => rfl) (Or.inr (Or.inl hfits))
  | trapped t events hempty hfits | unreserved e events hempty hfits =>
    rw [or_iff_right (hne hempty), or_iff_right (not_not.mpr hfits)]
    exact c.shadow.clear_keeps_iff m.memory

theorem Unsuccessful.trapped_iff (h : c.Unsuccessful layout m o c' m') :
    (∃ t, o = .trapped t) ↔ c.boundaries = .broken ∨ c.Fits layout ∧ ¬c.Whole layout := by
  cases h with
  | broken hbroken => exact iff_of_true ⟨_, rfl⟩ (Or.inl hbroken)
  | refused e hempty hfits => simp [hempty, hfits]
  | trapped t events hempty hfits hwhole => exact iff_of_true ⟨t, rfl⟩ (Or.inr ⟨hfits, hwhole⟩)
  | unreserved e events hempty hfits hwhole => simp [hempty, hwhole]

end Unsuccessful

/-- Whether an initialization that does not succeed keeps the shadow bytes depends on where it ends: it does before the
map is cleared, and after that only if there was nothing to clear. Of the memory and the allocator it changes nothing else.
If it has failed, the context is as before, and every later initialization goes as if it had not been tried; if it has
trapped, none ever succeeds. -/
theorem failed_init_keeps_shadow_iff (c : Context) (hc : c.initialized = false) (layout : Layout) (m m' : Machine A)
    (o : Outcome ContextError Unit) (c' : Context) (hrun : c.init layout m = (o, c', m')) (hfail : o ≠ .done ()) :
    c'.initialized = false ∧ m.Alike c.shadow.cells m' ∧
      ((∀ a, (c.shadow.space, a) ∈ c.shadow.cells →
          m'.memory.read c.shadow.space a = m.memory.read c.shadow.space a) ↔
        c.boundaries = .broken ∨ ¬c.Fits layout ∨ c.shadow.Zeroed m.memory) ∧
      ((∃ t, o = .trapped t) ↔ c.boundaries = .broken ∨ c.Fits layout ∧ ¬c.Whole layout) ∧
      (∀ e, o = .failed e → c' = c ∧ ∀ later, c.InitsAlike later m m') ∧
      ∀ t, o = .trapped t → ∀ later (m₁ : Machine A), c'.init later m₁ = (.trapped .brokenLatch, c', m₁) := by
  have h := unsuccessful_of_not_done hc hrun hfail
  refine ⟨?_, h.alike, h.keeps_shadow_iff, h.trapped_iff, ?_, ?_⟩
  · cases h with
    | broken | refused | unreserved => exact hc
    | trapped => rfl
  · rintro e rfl
    have halike := h.alike
    cases h with
    | refused e hempty => exact ⟨rfl, fun later => initsAlike hempty halike later⟩
    | unreserved e events hempty => exact ⟨rfl, fun later => initsAlike hempty halike later⟩
  · rintro t rfl later m₁
    cases h with
    | broken hbroken => exact init_of_broken Latch.laws hbroken later m₁
    | trapped => exact init_of_broken Latch.laws rfl later m₁

/-- A context whose map describes memory from 0x880 on, in 0x100 shadow bytes. The shadow region starts at 0x1000, so the
map holds the shadow bytes of the first 0x80 bytes of it only. -/
def narrowContext : Context where
  shadow := { space := .detached, base := 0x1000, len := 0x100, translation := ⟨0xef0⟩ }
  config := {}
  boundaries := .empty

/-- a layout whose shadow region is as long as it says -/
def narrowLayout (shadowSize : UInt64) : Layout where
  shadowStart := 0x1000
  shadowSize
  shadowOffset := 0xef0
  lowEnd := 0x2000
  highStart := 0x2000
  highEnd := 0x10000

/-- a machine on which the first two shadow bytes of the context say that memory is freed -/
def markedMachine : Machine Unit where
  memory := Memory.fill {} .detached 0x1000 2 Tag.heapFreed.byte
  allocator := ()

/-- A layout with a region of 0x80 bytes initializes the context as if the one with a region of 0x100 bytes had not been
tried: the two end alike, and every byte of memory is the same. -/
theorem narrow_retry_as_first :
    narrowContext.initialized = false ∧
    let refused := narrowContext.init (narrowLayout 0x100) markedMachine
    let first := narrowContext.init (narrowLayout 0x80) markedMachine
    let retry := refused.2.1.init (narrowLayout 0x80) refused.2.2
    refused.1 ≠ .done () ∧ first.1 = .done () ∧ retry.1 = .done () ∧ retry.2.1 = first.2.1 ∧
      ∀ space a, retry.2.2.memory.read space a = first.2.2.memory.read space a := by
  have hrefused : (narrowContext.init (narrowLayout 0x100) markedMachine).1 =
      .failed (.shadow (.invalidRange 0x10f0 0x20)) := by decide +kernel
  have hfirst : (narrowContext.init (narrowLayout 0x80) markedMachine).1 = .done () := by decide +kernel
  refine ⟨rfl, ?_⟩
  rcases hrun : narrowContext.init (narrowLayout 0x100) markedMachine with ⟨o, c', m'⟩
  rw [hrun] at hrefused
  obtain rfl : o = .failed (.shadow (.invalidRange 0x10f0 0x20)) := hrefused
  obtain ⟨-, -, -, -, hretry, -⟩ :=
    failed_init_keeps_shadow_iff narrowContext rfl (narrowLayout 0x100) markedMachine m' _ c' hrun nofun
  obtain ⟨rfl, halike⟩ := hretry _ rfl
  have h := halike (narrowLayout 0x80)
  dsimp only
  refine ⟨nofun, hfirst, h.outcome_eq.trans hfirst, h.context_eq, fun space a => ?_⟩
  exact h.memory_same (h.fits hfirst) space a (Set.notMem_empty _)

/-- A layout with a region of 0x100 bytes is turned away, and the shadow bytes are gone. -/
theorem refused_init_clears_shadow :
    let refused := narrowContext.init (narrowLayout 0x100) markedMachine
    narrowContext.initialized = false ∧ refused.1 = .failed (.shadow (.invalidRange 0x10f0 0x20)) ∧
    narrowContext.shadow.Backs 0x1000 ∧ markedMachine.memory.read .detached 0x1000 = 0xfd ∧
    refused.2.2.memory.read .detached 0x1000 = 0 := by
  refine ⟨rfl, by decide +kernel, by decide, by decide +kernel, by decide +kernel⟩

end Context

end AddressSanitizer
