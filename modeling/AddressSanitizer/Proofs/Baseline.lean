/-
The baseline that an initialization lays. Whatever the shadow bytes were before, after an initialization that succeeds those
of the shadow region are reserved and all others of the map are zero. The region may end inside a granule, or be cut at the
last address: what is reserved are the granules that it touches, and these never reach past the end of the address space.

- `Reserved`: the shadow bytes of a range are reserved, all others are zero.
- `Context.run_prepare_of_covers`, `Context.run_prepare_of_not_covers`: past its checks, an initialization succeeds exactly
  if the map holds the shadow bytes of the shadow region, and then the region is reserved.
- `Context.init_lays_baseline`: when an initialization succeeds, and what it leaves.
-/
import Mathlib.Tactic
import AddressSanitizer.Proofs.Initialization

namespace AddressSanitizer

variable {A : Type}

namespace ShadowMap

variable {s : ShadowMap} {lo hi n : Nat} {memory memory' : Memory} {v : UInt8}

/-- The shadow byte of every address from `lo` on and below `hi` says that it is reserved, and every other shadow byte of
the map is zero. -/
structure Reserved (s : ShadowMap) (lo hi : Nat) (memory : Memory) : Prop where
  inside : ∀ a : Address, lo ≤ a.toNat → a.toNat < hi → s.byteAt memory a = 0xff
  outside : ∀ shadow, s.Backs shadow → (∀ a : Address, lo ≤ a.toNat → a.toNat < hi → shadow ≠ s.toShadow a) →
    memory.read s.space shadow = 0

/-- The granules of a range have the shadow bytes of its addresses, down to the granule that the range ends in. -/
theorem Writes.of_roundUp (h : s.Writes lo (lo + roundUp n) (fun _ => v) memory memory') (hlo : lo % 8 = 0) :
    s.Writes lo (lo + n) (fun _ => v) memory memory' where
  inside a h1 h2 := h.inside a h1 (by have := le_roundUp n; omega)
  outside shadow hbacked hout := by
    refine h.outside shadow hbacked fun a h1 h2 => ?_
    have hround : roundUp n = (n + 7) / 8 * 8 := rfl
    have hgranule := toNat_alignDown_eq a
    rw [toShadow_eq_iff.mpr (show a.toNat / 8 = (alignDown a).toNat / 8 by omega)]
    exact hout (alignDown a) (by omega) (by omega)

theorem Writes.reserved (h : s.Writes lo hi (fun _ => 0xff) memory memory') (hzero : s.Zeroed memory) :
    s.Reserved lo hi memory' where
  inside := h.inside
  outside shadow hbacked hout := by
    rw [h.outside shadow hbacked hout]
    exact hzero shadow ⟨rfl, hbacked.2⟩

theorem zeroed_clear (s : ShadowMap) (memory : Memory) : s.Zeroed (s.clear 0 memory) := fun _ => read_clear

end ShadowMap

/-- the end of a shadow region, cut at the last address -/
theorem Boundaries.toNat_shadowEnd_ofLayout (l : Layout) :
    (ofLayout l).shadowEnd.toNat = l.shadowStart.toNat + l.regionLen.toNat :=
  checkedSub_eq_some_iff.mp (shadowSize?_ofLayout l)

namespace Context

variable {c : Context} {layout : Layout}

/-- Rounded up to whole granules, a shadow region that fits still ends inside the address space. -/
theorem Fits.region_fits (h : c.Fits layout) (hbase : c.shadow.base.toNat % 8 = 0) (hs : c.shadow.InSpace) :
    c.shadow.base.toNat + roundUp layout.regionLen.toNat ≤ 2 ^ 64 := by
  have hspace : c.shadow.base.toNat + c.shadow.len.toNat ≤ 2 ^ 64 := hs
  have hlen := UInt64.le_iff_toNat_le.mp h.len_le
  have hround : roundUp layout.regionLen.toNat = (layout.regionLen.toNat + 7) / 8 * 8 := rfl
  omega

section Prepare

variable (hfits : c.Fits layout) (hwhole : c.Whole layout) (hs : c.shadow.InSpace)
include hfits hwhole hs

theorem run_prepare_of_covers
    (h : c.shadow.Covers c.shadow.base.toNat (c.shadow.base.toNat + layout.regionLen.toNat)) (m : Machine A) :
    ∃ m' : Machine A, (c.prepare layout).run m = (.done (.ofLayout layout), m') ∧
      c.shadow.Reserved c.shadow.base.toNat (c.shadow.base.toNat + layout.regionLen.toNat) m'.memory := by
  have hbase := aligned_iff.mp hwhole.start_aligned
  have hfit := hfits.region_fits hbase hs
  obtain ⟨region, hregion, hlen⟩ := hwhole.exists_region
  rw [← ShadowMap.covers_roundUp_iff hbase, ← hlen] at h
  rw [← hlen] at hfit
  obtain ⟨m', hpoison, -, hsame, hbyte⟩ := ShadowMap.run_poison_of_covers .reserved hbase
    (by rw [hlen, roundUp_mod]) hfit h { m with memory := c.shadow.clear Tag.valid.byte m.memory }
  have hwrites := ShadowMap.writes_of_footprint hsame hbyte
  rw [hlen] at hwrites
  refine ⟨{ m' with log := m'.log.push (.initialized (.ofLayout layout)) }, ?_,
    (hwrites.of_roundUp hbase).reserved (c.shadow.zeroed_clear m.memory)⟩
  simp only [run_prepare_eq hfits, hregion, hpoison]

theorem run_prepare_of_not_covers
    (h : ¬c.shadow.Covers c.shadow.base.toNat (c.shadow.base.toNat + layout.regionLen.toNat)) (m : Machine A) :
    ∃ e m', (c.prepare layout).run m = (.failed e, m') := by
  have hbase := aligned_iff.mp hwhole.start_aligned
  obtain ⟨region, hregion, hlen⟩ := hwhole.exists_region
  rw [← ShadowMap.covers_roundUp_iff hbase, ← hlen] at h
  obtain ⟨e, hpoison, -⟩ := ShadowMap.run_poison_of_not_covers .reserved hs hbase (by rw [hlen, roundUp_mod])
    (fun _ => h) { m with memory := c.shadow.clear Tag.valid.byte m.memory }
  refine ⟨.shadow e, { m with memory := c.shadow.clear Tag.valid.byte m.memory
                              log := m.log.push (.poison c.shadow.base region .reserved) }, ?_⟩
  simp only [run_prepare_eq hfits, hregion, hpoison]

end Prepare

/-- **Initialization lays the baseline, and succeeds exactly when it can.** Take a context that waits to be initialized,
with a map that starts with a granule, is shorter than 2^63 bytes and ends inside the address space. An initialization
succeeds exactly if the shadow region starts where the map does, is no longer than it and has its offset, and the map holds
the shadow bytes of the whole region. Then the context is initialized with the boundaries of the layout, the shadow region
is reserved, and all other shadow bytes are zero, whatever they were before. Otherwise the initialization fails, and the
context still waits. -/
theorem init_lays_baseline (c : Context) (hempty : c.boundaries = .empty) (hbase : Aligned c.shadow.base)
    (hlen : c.shadow.len.toNat < 2 ^ 63) (hs : c.shadow.InSpace) (layout : Layout) (m : Machine A) :
    let b := Boundaries.ofLayout layout
    ∃ size, b.shadowSize? = some size ∧
      ∃ (o : Outcome ContextError Unit) (c' : Context) (m' : Machine A), c.init layout m = (o, c', m') ∧
        (o = .done () ↔ b.shadowStart = c.shadow.base ∧ size ≤ c.shadow.len ∧
          layout.shadowOffset = c.shadow.translation.offset ∧
          (size = 0 ∨ c.shadow.Covers b.shadowStart.toNat b.shadowEnd.toNat)) ∧
        (o = .done () → c' = { c with boundaries := .filled b } ∧ c'.initialized = true ∧
          c.shadow.Reserved b.shadowStart.toNat b.shadowEnd.toNat m'.memory) ∧
        (o ≠ .done () → c' = c ∧ ∃ e, o = .failed e) := by
  intro b
  refine ⟨layout.regionLen, Boundaries.shadowSize?_ofLayout layout, ?_⟩
  rw [init_of_empty hempty]
  by_cases hfits : c.Fits layout
  case neg =>
    obtain ⟨e, hrun⟩ := run_prepare_of_not_fits (A := A) hfits
    rw [hrun]
    refine ⟨.failed e, c, m, rfl, iff_of_false nofun ?_, nofun, fun _ => ⟨rfl, e, rfl⟩⟩
    rintro ⟨hstart, hle, hoffset, -⟩
    exact hfits ⟨hstart, hle, hoffset⟩
  have hstart : b.shadowStart = c.shadow.base := hfits.start_eq
  have hend : b.shadowEnd.toNat = c.shadow.base.toNat + layout.regionLen.toNat := by
    rw [Boundaries.toNat_shadowEnd_ofLayout, hfits.start_eq]
  have hwhole : c.Whole layout := ⟨hbase, by have := UInt64.le_iff_toNat_le.mp hfits.len_le; omega⟩
  -- the shadow bytes of an empty region are all there
  have hcovers_iff : (layout.regionLen = 0 ∨
      c.shadow.Covers c.shadow.base.toNat (c.shadow.base.toNat + layout.regionLen.toNat)) ↔
      c.shadow.Covers c.shadow.base.toNat (c.shadow.base.toNat + layout.regionLen.toNat) := by
    refine or_iff_right_of_imp fun hzero a h1 h2 => ?_
    rw [hzero] at h2
    exact absurd h1 (not_le.mpr h2)
  rw [hstart, hend, hcovers_iff]
  by_cases hcovers : c.shadow.Covers c.shadow.base.toNat (c.shadow.base.toNat + layout.regionLen.toNat)
  · obtain ⟨m', hrun, hreserved⟩ := run_prepare_of_covers hfits hwhole hs hcovers m
    rw [hrun]
    exact ⟨.done (), _, m', rfl, iff_of_true rfl ⟨rfl, hfits.len_le, hfits.offset_eq, hcovers⟩,
      fun _ => ⟨rfl, rfl, hreserved⟩, fun hne => absurd rfl hne⟩
  · obtain ⟨e, m', hrun⟩ := run_prepare_of_not_covers hfits hwhole hs hcovers m
    rw [hrun]
    exact ⟨.failed e, c, m', rfl, iff_of_false nofun fun hyes => hcovers hyes.2.2.2, nofun, fun _ => ⟨rfl, e, rfl⟩⟩

theorem narrowContext_covers_iff {hi : Nat} (h : 0x1000 < hi) : narrowContext.shadow.Covers 0x1000 hi ↔ hi ≤ 0x1080 := by
  have hbase : narrowContext.shadow.base.toNat = 0x1000 := rfl
  have hlen : narrowContext.shadow.len.toNat = 0x100 := rfl
  have hoffset : narrowContext.shadow.translation.offset.toNat = 0xef0 := rfl
  constructor
  · intro hcovers
    by_contra hover
    have hbehind : narrowContext.shadow.Tracks 0x1080 := hcovers 0x1080 (by decide) (not_le.mp hover)
    have hend := (ShadowMap.backs_iff.mp hbehind).2
    rw [ShadowMap.toNat_toShadow, hbase, hlen, hoffset] at hend
    exact absurd hend (by decide)
  · intro hle
    refine ShadowMap.covers_of_le (show 0x1000 + 0x100 ≤ 2 ^ 64 by omega) ?_ ?_ <;> omega

/-- The narrow context turns away a region of 0x81 bytes, since its map does not hold the shadow byte of the last one. Then
it is initialized with a region that ends inside a granule; of the bytes that said that memory is freed nothing is left. -/
theorem narrowContext_baseline :
    narrowContext.boundaries = .empty ∧ Aligned narrowContext.shadow.base ∧ narrowContext.shadow.len.toNat < 2 ^ 63 ∧
    narrowContext.shadow.InSpace ∧
    let refused := narrowContext.init (narrowLayout 0x81) markedMachine
    refused.1 ≠ .done () ∧
    ∃ c' m', refused.2.1.init (narrowLayout 0x7d) refused.2.2 = (.done (), c', m') ∧ c'.initialized = true ∧
      narrowContext.shadow.Reserved 0x1000 0x107d m'.memory := by
  have hspace : narrowContext.shadow.InSpace := show 0x1000 + 0x100 ≤ 2 ^ 64 by omega
  refine ⟨rfl, by decide, by decide, hspace, ?_⟩
  obtain ⟨size, hsize, o, c', m', hrun, hiff, -, hfailed⟩ :=
    init_lays_baseline narrowContext rfl (by decide) (by decide) hspace (narrowLayout 0x81) markedMachine
  obtain rfl : 0x81 = size := Option.some.inj hsize
  have hne : o ≠ .done () := by
    intro hdone
    obtain ⟨-, -, -, hzero | hcovers⟩ := hiff.mp hdone
    · exact absurd hzero (by decide)
    · exact absurd ((narrowContext_covers_iff (by decide)).mp hcovers) (by decide)
  obtain ⟨rfl, -⟩ := hfailed hne
  rw [hrun]
  refine ⟨hne, ?_⟩
  obtain ⟨size, hsize, o, c', m', hrun, hiff, hlaid, -⟩ :=
    init_lays_baseline narrowContext rfl (by decide) (by decide) hspace (narrowLayout 0x7d) m'
  obtain rfl : 0x7d = size := Option.some.inj hsize
  obtain rfl : o = .done () :=
    hiff.mpr ⟨rfl, by decide, rfl, Or.inr ((narrowContext_covers_iff (by decide)).mpr (by decide))⟩
  obtain ⟨-, hinitialized, hreserved⟩ := hlaid rfl
  exact ⟨c', m', hrun, hinitialized, hreserved⟩

end Context

end AddressSanitizer
