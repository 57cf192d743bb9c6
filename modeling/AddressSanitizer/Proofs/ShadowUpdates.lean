/-
The two updates of the shadow map, whatever range they are asked for. Poisoning is one write, which is done in full or
refused. Unpoisoning is two: the whole granules of the range are cleared first, and then the boundary granule gets the
number of its accessible bytes. If the second write is refused, the first one stays done; this is the only way in which an
update is left half done.

- `accessibleByte`: the shadow bytes of a range that is made accessible.
- `poison_exact`: when poisoning succeeds, what it writes, and why it is refused.
- `unpoison_exact`: when unpoisoning succeeds, what it writes, and what it leaves when it is refused.
-/
import Mathlib.Tactic
import AddressSanitizer.Proofs.Granules

namespace AddressSanitizer

namespace ShadowMap

variable {A : Type} {s : ShadowMap} {start len : UInt64} {a : Address}

/-- The shadow byte of an address among the granules of `len` accessible bytes from `start` on: zero in the whole granules,
and in the boundary granule the number of the bytes that lie in it. -/
def accessibleByte (start len : UInt64) (a : Address) : UInt8 :=
  if a.toNat < start.toNat + len.toNat / 8 * 8 then 0 else (len % 8).toUInt8

theorem accessibleByte_of_whole (h : a.toNat < start.toNat + len.toNat / 8 * 8) :
    accessibleByte start len a = 0 := if_pos h

theorem accessibleByte_of_boundary {v : UInt8} (h : start.toNat + len.toNat / 8 * 8 ≤ a.toNat)
    (hv : v.toNat = len.toNat % 8) : v = accessibleByte start len a := by
  have hboundary : accessibleByte start len a = (granuleOffset len).toUInt8 := if_neg (by omega)
  rw [hboundary, ← UInt8.toNat_inj, toNat_boundary_byte, hv]

/-- A range whose granules end inside the address space and are all tracked, down to its boundary granule. -/
theorem spans_roundUp_iff (s : ShadowMap) (len : UInt64) (hstart : start.toNat % 8 = 0) :
    (len = 0 ∨ start.toNat + roundUp len.toNat ≤ 2 ^ 64 ∧ s.Covers start.toNat (start.toNat + len.toNat)) ↔
      start.toNat + roundUp len.toNat ≤ 2 ^ 64 ∧ s.Covers start.toNat (start.toNat + roundUp len.toNat) := by
  rw [covers_roundUp_iff hstart]
  refine ⟨?_, Or.inr⟩
  rintro (rfl | h)
  · have hlt := start.toNat_lt
    exact ⟨hlt.le, fun a h1 h2 => absurd h1 (not_le.mpr h2)⟩
  · exact h

/-- **Poisoning is exact, and done in full or not at all.** It succeeds exactly if the range is empty, or ends inside the
address space and the map holds the shadow bytes of all its granules. Then exactly these have become the tag. Otherwise
nothing has changed, and the error says whether the range runs past the end of the address space, its first shadow byte
lies below the map, or its shadow bytes run past the end of the map. -/
theorem poison_exact (s : ShadowMap) (hs : s.InSpace) (start len : UInt64) (hstart : Aligned start) (hlen : Aligned len)
    (tag : Tag) (m : Machine A) :
    ∃ (o : Outcome ShadowError Unit) (m' : Machine A), (s.poison start len tag).run m = (o, m') ∧
      m'.allocator = m.allocator ∧ m.memory.SameOutside s.bytes m'.memory ∧
      (o = .done () ↔
        len = 0 ∨ start.toNat + len.toNat ≤ 2 ^ 64 ∧ s.Covers start.toNat (start.toNat + len.toNat)) ∧
      (o = .done () → s.Writes start.toNat (start.toNat + len.toNat) (fun _ => tag.byte) m.memory m'.memory) ∧
      (o ≠ .done () → m'.memory = m.memory ∧ ∃ e, o = .failed e ∧ s.Refusal start len e) := by
  have hstart := aligned_iff.mp hstart
  have hlen := aligned_iff.mp hlen
  have hiff := s.spans_roundUp_iff len hstart
  rw [roundUp_of_dvd hlen] at hiff
  by_cases h : start.toNat + len.toNat ≤ 2 ^ 64 ∧ s.Covers start.toNat (start.toNat + len.toNat)
  · obtain ⟨m', hrun, halloc, hsame, hbyte⟩ := run_poison_of_covers tag hstart hlen h.1 h.2 m
    refine ⟨.done (), m', hrun, halloc, hsame.mono footprint_subset_bytes, iff_of_true rfl (hiff.mpr h), fun _ => ?_,
      fun hne => absurd rfl hne⟩
    exact writes_of_footprint hsame hbyte
  · obtain ⟨e, hrun, hrefusal⟩ :=
      run_poison_of_not_covers tag hs hstart hlen (fun hfit hcovers => h ⟨hfit, hcovers⟩) m
    refine ⟨.failed e, _, hrun, rfl, Memory.SameOutside.refl _ _, iff_of_false nofun fun hyes => h (hiff.mp hyes), nofun,
      fun _ => ⟨rfl, e, rfl, hrefusal⟩⟩

/-- a map over the last 2048 bytes of the address space; its translation wraps around -/
def topMap : ShadowMap := { space := .detached, base := 0x1000, len := 0x100, translation := ⟨0xe000000000001100⟩ }

theorem topMap_inSpace : topMap.InSpace := show 0x1000 + 0x100 ≤ 2 ^ 64 by omega

theorem topMap_covers {lo hi : Nat} (h : 2 ^ 64 - 0x800 ≤ lo) : topMap.Covers lo hi := by
  intro a h1 _
  have hlt := a.toNat_lt
  have hbase : topMap.base.toNat = 0x1000 := rfl
  have hlen : topMap.len.toNat = 0x100 := rfl
  have hoffset : topMap.translation.offset.toNat = 0xe000000000001100 := rfl
  rw [Tracks, backs_iff, toNat_toShadow]
  omega

/-- a map at the end of the address space, over the first 1024 bytes of it -/
def lastMap : ShadowMap :=
  { space := .detached, base := 0xffffffffffffff80, len := 0x80, translation := ⟨0xffffffffffffff80⟩ }

/-- The last sixteen bytes of the address space are poisoned. Two granules are refused of which the first has the last
shadow byte of all, so that the shadow address of the second one wraps around to zero. -/
theorem topMap_poisoned :
    topMap.InSpace ∧ lastMap.InSpace ∧ Aligned 0xfffffffffffffff0 ∧ Aligned 0x3f8 ∧ Aligned 0x10 ∧
    let m : Machine Unit := { allocator := () }
    (∃ m', (topMap.poison 0xfffffffffffffff0 0x10 .heapFreed).run m = (.done (), m') ∧
      topMap.Writes 0xfffffffffffffff0 0x10000000000000000 (fun _ => 0xfd) m.memory m'.memory) ∧
    ∃ m', (lastMap.poison 0x3f8 0x10 .heapFreed).run m = (.failed (.invalidRange 0xffffffffffffffff 2), m') ∧
      m'.memory = m.memory := by
  have hlast : lastMap.InSpace := show 0xffffffffffffff80 + 0x80 ≤ 2 ^ 64 by omega
  refine ⟨topMap_inSpace, hlast, by decide, by decide, by decide, ?_⟩
  intro m
  constructor
  · obtain ⟨o, m', hrun, -, -, hiff, hwrites, -⟩ :=
      poison_exact topMap topMap_inSpace 0xfffffffffffffff0 0x10 (by decide) (by decide) .heapFreed m
    obtain rfl : o = .done () := hiff.mpr (Or.inr ⟨by decide, topMap_covers (by decide)⟩)
    exact ⟨m', hrun, hwrites rfl⟩
  · obtain ⟨o, m', hrun, -, -, -, -, hkept⟩ :=
      poison_exact lastMap hlast 0x3f8 0x10 (by decide) (by decide) .heapFreed m
    have ho : ((lastMap.poison 0x3f8 0x10 .heapFreed).run m).1 = .failed (.invalidRange 0xffffffffffffffff 2) := rfl
    rw [hrun] at ho
    obtain rfl : o = .failed (.invalidRange 0xffffffffffffffff 2) := ho
    exact ⟨m', hrun, (hkept nofun).1⟩

/-- **Unpoisoning is exact when it succeeds, and can be left half done in one way only.** It succeeds exactly if the range
is empty, or its granules end inside the address space and the map holds the shadow bytes of them all. Then the shadow
bytes of its whole granules have become zero, that of its boundary granule, if there is one, the number of accessible bytes
in it, and no other has changed. Otherwise either nothing has changed, or the map holds the shadow bytes of all its whole
granules, exactly these have become zero, and the boundary granule lies behind the end of the address space or is not
tracked. -/
theorem unpoison_exact (s : ShadowMap) (hs : s.InSpace) (start len : UInt64) (hstart : Aligned start) (m : Machine A) :
    ∃ (o : Outcome ShadowError Unit) (m' : Machine A), (s.unpoison start len).run m = (o, m') ∧
      m'.allocator = m.allocator ∧ m.memory.SameOutside s.bytes m'.memory ∧
      (o = .done () ↔
        len = 0 ∨ start.toNat + roundUp len.toNat ≤ 2 ^ 64 ∧ s.Covers start.toNat (start.toNat + len.toNat)) ∧
      (o = .done () →
        s.Writes start.toNat (start.toNat + roundUp len.toNat) (accessibleByte start len) m.memory m'.memory) ∧
      (o ≠ .done () → (∃ e, o = .failed e) ∧
        (m'.memory = m.memory ∨
          start.toNat + len.toNat / 8 * 8 ≤ 2 ^ 64 ∧ s.Covers start.toNat (start.toNat + len.toNat / 8 * 8) ∧
            s.Writes start.toNat (start.toNat + len.toNat / 8 * 8) (fun _ => 0) m.memory m'.memory ∧
            (2 ^ 64 ≤ start.toNat + len.toNat ∨ ¬s.Tracks (start + len)))) := by
  have hstart := aligned_iff.mp hstart
  have hiff := s.spans_roundUp_iff len hstart
  have hround : roundUp len.toNat = (len.toNat + 7) / 8 * 8 := rfl
  by_cases hall : start.toNat + roundUp len.toNat ≤ 2 ^ 64 ∧ s.Covers start.toNat (start.toNat + roundUp len.toNat)
  case pos =>
    obtain ⟨m', hrun, halloc, hsame, hwhole, hboundary⟩ := run_unpoison_of_covers hstart hall.1 hall.2 m
    refine ⟨.done (), m', hrun, halloc, hsame.mono footprint_subset_bytes, iff_of_true rfl (hiff.mpr hall), fun _ => ?_,
      fun hne => absurd rfl hne⟩
    refine writes_of_footprint hsame fun a h1 h2 => ?_
    rcases Nat.lt_or_ge a.toNat (start.toNat + len.toNat / 8 * 8) with ha | ha
    · rw [hwhole a h1 ha, accessibleByte_of_whole ha]
    · exact accessibleByte_of_boundary ha (hboundary a ha h2)
  have hnot : ¬(len = 0 ∨ start.toNat + roundUp len.toNat ≤ 2 ^ 64 ∧
      s.Covers start.toNat (start.toNat + len.toNat)) := fun hyes => hall (hiff.mp hyes)
  by_cases hpre : start.toNat + len.toNat / 8 * 8 ≤ 2 ^ 64 ∧ s.Covers start.toNat (start.toNat + len.toNat / 8 * 8)
  case neg =>
    obtain ⟨e, hrun⟩ := run_unpoison_of_not_covers hs hstart (fun hfit hcovers => hpre ⟨hfit, hcovers⟩) m
    exact ⟨.failed e, _, hrun, rfl, Memory.SameOutside.refl _ _, iff_of_false nofun hnot, nofun,
      fun _ => ⟨⟨e, rfl⟩, Or.inl rfl⟩⟩
  obtain ⟨e, m', hrun, halloc, hsame, hbyte⟩ :=
    run_unpoison_of_prefix hstart hpre.1 hpre.2 (fun hfit hcovers => hall ⟨hfit, hcovers⟩) m
  refine ⟨.failed e, m', hrun, halloc, hsame.mono footprint_subset_bytes, iff_of_false nofun hnot, nofun,
    fun _ => ⟨⟨e, rfl⟩, Or.inr ⟨hpre.1, hpre.2, writes_of_footprint hsame hbyte, ?_⟩⟩⟩
  -- were the boundary granule tracked, nothing would be missing
  by_contra hboundary
  obtain ⟨hfit, htracks⟩ : start.toNat + len.toNat < 2 ^ 64 ∧ s.Tracks (start + len) := by
    simpa only [not_or, not_le, not_not] using hboundary
  have hsum : (start + len).toNat = start.toNat + len.toNat := toNat_add_of_lt hfit
  exact hall ⟨by omega, hpre.2.of_boundary hstart (by omega) htracks⟩

/-- Of the last sixteen bytes of the address space, thirteen are made accessible. Nine bytes from the last granule on are
refused, but that granule is cleared. -/
theorem topMap_unpoisoned :
    topMap.InSpace ∧ Aligned 0xfffffffffffffff0 ∧ Aligned 0xfffffffffffffff8 ∧
    let m : Machine Unit := { memory := topMap.clear 0xfd {}, allocator := () }
    (∃ m', (topMap.unpoison 0xfffffffffffffff0 13).run m = (.done (), m') ∧
      topMap.Writes 0xfffffffffffffff0 0x10000000000000000 (accessibleByte 0xfffffffffffffff0 13) m.memory m'.memory) ∧
    accessibleByte 0xfffffffffffffff0 13 0xfffffffffffffff8 = 5 ∧
    ∃ m', (topMap.unpoison 0xfffffffffffffff8 9).run m =
        (.failed (.addressRangeOverflow 0xfffffffffffffff8 9), m') ∧
      topMap.Writes 0xfffffffffffffff8 0x10000000000000000 (fun _ => 0) m.memory m'.memory := by
  refine ⟨topMap_inSpace, by decide, by decide, ?_⟩
  intro m
  refine ⟨?_, by decide, ?_⟩
  · obtain ⟨o, m', hrun, -, -, hiff, hwrites, -⟩ :=
      unpoison_exact topMap topMap_inSpace 0xfffffffffffffff0 13 (by decide) m
    obtain rfl : o = .done () := hiff.mpr (Or.inr ⟨by decide, topMap_covers (by decide)⟩)
    exact ⟨m', hrun, hwrites rfl⟩
  · obtain ⟨o, m', hrun, -, -, -, -, hleft⟩ :=
      unpoison_exact topMap topMap_inSpace 0xfffffffffffffff8 9 (by decide) m
    have ho : ((topMap.unpoison 0xfffffffffffffff8 9).run m).1 =
        .failed (.addressRangeOverflow 0xfffffffffffffff8 9) := rfl
    have hread : m'.memory.read .detached 0x10ff = 0 := by
      have heval : ((topMap.unpoison 0xfffffffffffffff8 9).run m).2.memory.read .detached 0x10ff = 0 := by decide +kernel
      rwa [hrun] at heval
    have hmarked : m.memory.read .detached 0x10ff = 0xfd := by decide +kernel
    rw [hrun] at ho
    obtain rfl : o = .failed (.addressRangeOverflow 0xfffffffffffffff8 9) := ho
    rcases (hleft nofun).2 with hkept | ⟨-, -, hwrites, -⟩
    · rw [hkept, hmarked] at hread
      cases hread
    · exact ⟨m', hrun, hwrites⟩

end ShadowMap

end AddressSanitizer
