/-
The shadow map seen from the memory it describes: which addresses have a shadow byte, what the byte of an address is,
and what the writes to the map do to the bytes of all addresses.

- `toShadow_eq_iff`: two addresses share their shadow byte exactly if they lie in one granule.
- `writeGranules_of_covers`, `writeGranules_of_not_covers`: a write to whole granules is done exactly if the map holds
  all their shadow bytes, and then sets the byte of every address in the range and of no other; otherwise a `Refusal` says
  why not.
- `run_poison_of_covers`, `run_poison_of_not_covers`, `run_unpoison_of_covers`, `run_unpoison_of_prefix`,
  `run_unpoison_of_not_covers`: how the two updates of the map end, for a range that the map holds whole, in part or not
  from the start.
- `Writes`: from one memory to the next, exactly the shadow bytes of a range have been written.
- `sets_writeGranules`: which bytes a write sets, and whether it fails, does not depend on what the memory holds.
-/
import Mathlib.Tactic
import AddressSanitizer.Proofs.AddressTranslation
import AddressSanitizer.Proofs.Frame
import AddressSanitizer.Shadow.Lemmas

namespace AddressSanitizer

/-- the least multiple of eight not below `n` -/
def roundUp (n : Nat) : Nat := (n + 7) / 8 * 8

theorem roundUp_of_dvd {n : Nat} (h : n % 8 = 0) : roundUp n = n := by
  unfold roundUp
  omega

/-- a boundary granule follows the whole granules of a length that is no multiple of eight -/
theorem roundUp_of_not_dvd {n : Nat} (h : n % 8 ≠ 0) : roundUp n = n / 8 * 8 + 8 := by
  unfold roundUp
  omega

theorem roundUp_mod (n : Nat) : roundUp n % 8 = 0 := by
  unfold roundUp
  omega

theorem le_roundUp (n : Nat) : n ≤ roundUp n := by
  unfold roundUp
  omega

theorem roundUp_lt (n : Nat) : roundUp n < n + 8 := by
  unfold roundUp
  omega

theorem isLeast_roundUp (n : Nat) : IsLeast {k | k % 8 = 0 ∧ n ≤ k} (roundUp n) := by
  refine ⟨⟨roundUp_mod n, le_roundUp n⟩, ?_⟩
  rintro k ⟨hmod, hle⟩
  unfold roundUp
  omega

theorem roundUp_mono {n k : Nat} (h : n ≤ k) : roundUp n ≤ roundUp k :=
  (isLeast_roundUp n).2 ⟨roundUp_mod k, h.trans (le_roundUp k)⟩

theorem aligned_iff {a : UInt64} : Aligned a ↔ a.toNat % 8 = 0 := by
  unfold Aligned
  rw [← UInt64.toNat_inj, UInt64.toNat_mod]
  rfl

theorem toNat_granuleOffset (a : UInt64) : (granuleOffset a).toNat = a.toNat % 8 := by
  unfold granuleOffset
  rw [UInt64.toNat_mod]
  rfl

theorem toNat_alignDown_eq (n : UInt64) : (alignDown n).toNat = n.toNat / 8 * 8 := by
  rw [toNat_alignDown]
  omega

theorem alignUp_eq_some_iff {a b : UInt64} : alignUp a = some b ↔ b.toNat = roundUp a.toNat := by
  have hb := b.toNat_lt
  have h7 : (7 : UInt64).toNat = 7 := rfl
  simp only [alignUp, Option.map_eq_some_iff, checkedAdd_eq_some_iff, h7, roundUp]
  constructor
  · rintro ⟨c, hc, rfl⟩
    rw [toNat_alignDown_eq, hc]
  · intro h
    have hsum : (a + 7).toNat = a.toNat + 7 := toNat_add_of_lt (by omega)
    refine ⟨a + 7, hsum, ?_⟩
    rw [← UInt64.toNat_inj, toNat_alignDown_eq, hsum, h]

theorem granuleOffset_eq_zero_iff {n : UInt64} : granuleOffset n = 0 ↔ n.toNat % 8 = 0 := by
  rw [← UInt64.toNat_inj, toNat_granuleOffset]
  rfl

/-- the shadow byte of a boundary granule is the number of its accessible bytes -/
theorem toNat_boundary_byte (n : UInt64) : ((granuleOffset n).toUInt8).toNat = n.toNat % 8 := by
  rw [UInt64.toNat_toUInt8, toNat_granuleOffset]
  omega

namespace ShadowMap

/-- the map holds the shadow byte of `a` -/
def Tracks (s : ShadowMap) (a : Address) : Prop := s.Backs (s.toShadow a)

/-- the shadow byte of `a`, if the map tracks `a` -/
def byteAt (s : ShadowMap) (memory : Memory) (a : Address) : UInt8 := memory.read s.space (s.toShadow a)

/-- the map tracks every address from `lo` on and below `hi` -/
def Covers (s : ShadowMap) (lo hi : Nat) : Prop := ∀ a : Address, lo ≤ a.toNat → a.toNat < hi → s.Tracks a

/-- the shadow bytes of the addresses from `lo` on and below `hi`, as far as the map holds them -/
def footprint (s : ShadowMap) (lo hi : Nat) : Footprint :=
  {p | p.1 = s.space ∧ ∃ a : Address, lo ≤ a.toNat ∧ a.toNat < hi ∧ s.Tracks a ∧ p.2 = s.toShadow a}

/-- the map ends inside the address space, as every map does whose bytes lie in some memory -/
def InSpace (s : ShadowMap) : Prop := s.base.toNat + s.len.toNat ≤ 2 ^ 64

/-- every shadow byte of the map -/
def bytes (s : ShadowMap) : Footprint := {p | p.1 = s.space ∧ s.Backs p.2}

/-- every byte of the memory the map is kept in; a map that runs past the end of the address space goes on at its start,
where it is written but holds no shadow byte -/
def cells (s : ShadowMap) : Footprint := {p | p.1 = s.space ∧ (p.2 - s.base).toNat < s.len.toNat}

variable {s : ShadowMap} {a b : Address} {lo hi lo' hi' : Nat} {m m' : Memory}

/-! ## Granules -/

theorem toNat_toShadow (s : ShadowMap) (a : Address) :
    (s.toShadow a).toNat = (a.toNat / 8 + s.translation.offset.toNat) % 2 ^ 64 := s.translation.toNat_toShadow a

theorem toShadow_eq_iff : s.toShadow a = s.toShadow b ↔ a.toNat / 8 = b.toNat / 8 := Translation.toShadow_eq_iff

theorem tracks_congr (h : a.toNat / 8 = b.toNat / 8) : s.Tracks a ↔ s.Tracks b := by
  unfold Tracks
  rw [toShadow_eq_iff.mpr h]

theorem byteAt_congr (h : a.toNat / 8 = b.toNat / 8) : s.byteAt m a = s.byteAt m b := by
  unfold byteAt
  rw [toShadow_eq_iff.mpr h]

theorem Covers.mono (h : s.Covers lo hi) (hlo : lo ≤ lo') (hhi : hi' ≤ hi) : s.Covers lo' hi' :=
  fun a h1 h2 => h a (by omega) (by omega)

/-- With a byte of a range the map tracks the whole granule of that byte. -/
theorem covers_roundUp_iff {n : Nat} (hlo : lo % 8 = 0) : s.Covers lo (lo + roundUp n) ↔ s.Covers lo (lo + n) := by
  have hround : roundUp n = (n + 7) / 8 * 8 := rfl
  refine ⟨fun h => h.mono le_rfl (by omega), fun h a h1 h2 => ?_⟩
  have hgranule := toNat_alignDown_eq a
  exact (tracks_congr (by omega)).mp (h (alignDown a) (by omega) (by omega))

/-- The map holds a range whole if it holds its whole granules and the one in which it ends. -/
theorem Covers.of_boundary {n : Nat} (h : s.Covers lo (lo + n / 8 * 8)) (hlo : lo % 8 = 0)
    (hb : b.toNat / 8 = (lo + n) / 8) (ht : s.Tracks b) : s.Covers lo (lo + roundUp n) := by
  have hround : roundUp n = (n + 7) / 8 * 8 := rfl
  intro a h1 h2
  rcases Nat.lt_or_ge a.toNat (lo + n / 8 * 8) with ha | ha
  · exact h a h1 ha
  · exact (tracks_congr (by omega)).mp ht

/-- A range is held whole if its shadow addresses lie in the map without wrapping around. -/
theorem covers_of_le (hs : s.InSpace) (hlo : s.base.toNat ≤ lo / 8 + s.translation.offset.toNat)
    (hhi : (hi + 7) / 8 + s.translation.offset.toNat ≤ s.base.toNat + s.len.toNat) : s.Covers lo hi := by
  intro a h1 h2
  have hspace : s.base.toNat + s.len.toNat ≤ 2 ^ 64 := hs
  rw [Tracks, backs_iff, toNat_toShadow]
  omega

theorem footprint_mono (hlo : lo' ≤ lo) (hhi : hi ≤ hi') : s.footprint lo hi ⊆ s.footprint lo' hi' := by
  rintro ⟨space, x⟩ ⟨hs, a, h1, h2, ht, hx⟩
  exact ⟨hs, a, by omega, by omega, ht, hx⟩

theorem footprint_subset_bytes : s.footprint lo hi ⊆ s.bytes := by
  rintro ⟨space, x⟩ ⟨hs, a, -, -, ht, hx⟩
  have hbacked : s.Backs x := by rwa [show x = s.toShadow a from hx]
  exact ⟨hs, hbacked⟩

/-- A map lies apart from a range that starts behind its end or ends before its base. -/
theorem cells_avoids (hs : s.InSpace) (h : s.base.toNat + s.len.toNat ≤ lo ∨ hi ≤ s.base.toNat) : s.cells.Avoids lo hi := by
  rintro a h1 h2 ⟨-, hnear⟩
  have hspace : s.base.toNat + s.len.toNat ≤ 2 ^ 64 := hs
  have hnear : (a - s.base).toNat < s.len.toNat := hnear
  have ha := a.toNat_lt
  rw [UInt64.toNat_sub] at hnear
  omega

/-- The shadow byte of an address outside a range of whole granules is not among those of the range. -/
theorem not_mem_footprint (hlo : lo % 8 = 0) (hhi : hi % 8 = 0) (ha : a.toNat < lo ∨ hi ≤ a.toNat) :
    (s.space, s.toShadow a) ∉ s.footprint lo hi := by
  rintro ⟨-, b, h1, h2, -, hb⟩
  have hg := toShadow_eq_iff.mp hb
  omega

theorem byteAt_of_sameOutside {F : Footprint} (h : m.SameOutside F m') (ha : (s.space, s.toShadow a) ∉ F) :
    s.byteAt m' a = s.byteAt m a := h _ _ ha

/-! ## Writing whole granules -/

/-- the address `j` granules behind the start of a range, and its shadow address -/
theorem exists_granule (s : ShadowMap) (start : Address) {j : Nat} (h : start.toNat + 8 * j < 2 ^ 64) :
    ∃ a : Address, a.toNat = start.toNat + 8 * j ∧
      (s.toShadow a).toNat = ((s.toShadow start).toNat + j) % 2 ^ 64 := by
  refine ⟨start + (8 * j).toUInt64, toNat_add_toUInt64 h, ?_⟩
  rw [toNat_toShadow, toNat_toShadow, toNat_add_toUInt64 h]
  omega

section WriteGranules

variable {start len : UInt64} {v : UInt8}

/-- A write to whole granules is a write of one shadow byte for each of them. -/
theorem writeGranules_eq_write (hstart : start.toNat % 8 = 0) (hlen : len.toNat % 8 = 0) (hpos : 0 < len.toNat)
    (hfit : start.toNat + len.toNat ≤ 2 ^ 64) :
    ∃ count : UInt64, count ≠ 0 ∧ count.toNat = len.toNat / 8 ∧
      s.writeGranules start len v m = s.write (s.toShadow start) count v m := by
  have hne : len ≠ 0 := by
    rintro rfl
    simp at hpos
  have hpred : (len - 1).toNat = len.toNat - 1 := toNat_sub_of_le (show 1 ≤ len.toNat from hpos)
  have hlast : (start + (len - 1)).toNat = start.toNat + (len.toNat - 1) := by
    rw [toNat_add_of_lt (by omega), hpred]
  have hcount : (s.toShadow (start + (len - 1)) + 1 - s.toShadow start).toNat = len.toNat / 8 := by
    rw [UInt64.toNat_sub, UInt64.toNat_add, toNat_toShadow, toNat_toShadow, hlast]
    simp only [UInt64.reduceToNat]
    omega
  refine ⟨_, fun h0 => ?_, hcount, ?_⟩
  · rw [h0] at hcount
    simp only [UInt64.reduceToNat] at hcount
    omega
  · have hadd : checkedAdd start (len - 1) = some (start + (len - 1)) := checkedAdd_of_lt (by omega)
    simp only [writeGranules, if_neg hne, hadd]

theorem writeGranules_zero : s.writeGranules start 0 v m = .ok m := by
  simp [writeGranules]

/-- The range is held whole exactly if its shadow bytes fit between the base and the end of the map: the addresses of
the shadow bytes wrap around nowhere, since the byte behind the end of the map would be one of them. -/
theorem Covers.fits (hstart : start.toNat % 8 = 0) (hlen : len.toNat % 8 = 0) (hpos : 0 < len.toNat)
    (hfit : start.toNat + len.toNat ≤ 2 ^ 64) (h : s.Covers start.toNat (start.toNat + len.toNat)) :
    s.base.toNat ≤ (s.toShadow start).toNat ∧
      (s.toShadow start).toNat + len.toNat / 8 ≤ s.base.toNat + s.len.toNat := by
  have hfirst := backs_iff.mp (h start le_rfl (by omega))
  refine ⟨hfirst.1, ?_⟩
  by_contra hover
  obtain ⟨a, ha, hsa⟩ := s.exists_granule start
    (show start.toNat + 8 * (s.base.toNat + s.len.toNat - (s.toShadow start).toNat) < 2 ^ 64 by omega)
  have hbacked := backs_iff.mp (h a (by omega) (by omega))
  have hb := s.base.toNat_lt
  have hl := s.len.toNat_lt
  omega

theorem writeGranules_of_covers (len : UInt64) (v : UInt8) (hstart : start.toNat % 8 = 0) (hlen : len.toNat % 8 = 0)
    (hfit : start.toNat + len.toNat ≤ 2 ^ 64) (h : s.Covers start.toNat (start.toNat + len.toNat)) :
    ∃ m', s.writeGranules start len v m = .ok m' ∧
      m.SameOutside (s.footprint start.toNat (start.toNat + len.toNat)) m' ∧
      ∀ a : Address, start.toNat ≤ a.toNat → a.toNat < start.toNat + len.toNat → s.byteAt m' a = v := by
  by_cases hzero : len.toNat = 0
  · have hlen0 : len = 0 := UInt64.toNat_inj.mp hzero
    subst hlen0
    refine ⟨m, writeGranules_zero, Memory.SameOutside.refl _ m, fun a h1 h2 => ?_⟩
    omega
  have hpos : 0 < len.toNat := by omega
  obtain ⟨hbase, hend⟩ := h.fits hstart hlen hpos hfit
  obtain ⟨count, hne, hcount, hwrite⟩ := writeGranules_eq_write (s := s) (v := v) (m := m) hstart hlen hpos hfit
  have hread (b : Address) (space : Space) :
      (m.fill s.space (s.toShadow start) (len.toNat / 8) v).read space b =
        if s.space = space ∧ (b - s.toShadow start).toNat < len.toNat / 8 then v else m.read space b :=
    Memory.read_fill m s.space space _ b v (by omega)
  refine ⟨m.fill s.space (s.toShadow start) (len.toNat / 8) v, ?_, ?_, ?_⟩
  · rw [hwrite, write_eq_ok_iff hne, hcount]
    exact ⟨hbase, hend, rfl⟩
  · intro space b hb
    rw [hread, if_neg]
    rintro ⟨rfl, hnear⟩
    -- a shadow byte this close to the first one is that of a granule of the range
    obtain ⟨a, ha, hsa⟩ := s.exists_granule start
      (show start.toNat + 8 * (b - s.toShadow start).toNat < 2 ^ 64 by omega)
    have hab : b = s.toShadow a := by
      have hb := b.toNat_lt
      have hs := (s.toShadow start).toNat_lt
      rw [UInt64.toNat_sub] at hsa
      rw [← UInt64.toNat_inj]
      omega
    exact hb ⟨rfl, a, by omega, by omega, h a (by omega) (by omega), hab⟩
  · intro a h1 h2
    have hnear : (s.toShadow a - s.toShadow start).toNat < len.toNat / 8 := by
      rw [UInt64.toNat_sub, toNat_toShadow, toNat_toShadow]
      omega
    rw [byteAt, hread, if_pos ⟨rfl, hnear⟩]

/-- Why a write to the granules of a range is refused: the range runs past the end of the address space, or its first
shadow byte lies below the map, or its shadow bytes run past the end of the map. -/
inductive Refusal (s : ShadowMap) (start len : UInt64) : ShadowError → Prop where
  | overflow (hover : 2 ^ 64 < start.toNat + len.toNat) : s.Refusal start len (.addressRangeOverflow start len)
  | below (hfit : start.toNat + len.toNat ≤ 2 ^ 64) (hbelow : (s.toShadow start).toNat < s.base.toNat) :
    s.Refusal start len (.invalidAddress (s.toShadow start))
  | past (hfit : start.toNat + len.toNat ≤ 2 ^ 64) (hbase : s.base.toNat ≤ (s.toShadow start).toNat)
      (hpast : s.base.toNat + s.len.toNat < (s.toShadow start).toNat + len.toNat / 8) :
    s.Refusal start len (.invalidRange (s.toShadow start) (len / 8))

theorem writeGranules_of_not_covers (len : UInt64) (v : UInt8) (hs : s.InSpace) (hstart : start.toNat % 8 = 0)
    (hlen : len.toNat % 8 = 0)
    (h : start.toNat + len.toNat ≤ 2 ^ 64 → ¬s.Covers start.toNat (start.toNat + len.toNat)) :
    ∃ e, s.writeGranules start len v m = .error e ∧ s.Refusal start len e := by
  have hspace : s.base.toNat + s.len.toNat ≤ 2 ^ 64 := hs
  have hpos : 0 < len.toNat := by
    by_contra hzero
    exact h (by have := start.toNat_lt; omega) fun a h1 h2 => by omega
  by_cases hfit : start.toNat + len.toNat ≤ 2 ^ 64
  case neg =>
    have hne : len ≠ 0 := by
      rintro rfl
      simp at hpos
    have hpred : (len - 1).toNat = len.toNat - 1 := toNat_sub_of_le (show 1 ≤ len.toNat from hpos)
    have hlast : checkedAdd start (len - 1) = none := checkedAdd_eq_none_iff.mpr (by omega)
    exact ⟨_, by simp only [writeGranules, if_neg hne, hlast], .overflow (by omega)⟩
  obtain ⟨count, hne, hcount, hwrite⟩ := writeGranules_eq_write (s := s) (v := v) (m := m) hstart hlen hpos hfit
  obtain rfl : count = len / 8 := UInt64.toNat_inj.mp (by rw [hcount, UInt64.toNat_div]; rfl)
  rw [hwrite]
  by_cases hbase : s.base.toNat ≤ (s.toShadow start).toNat
  case neg => exact ⟨_, write_of_below hne (by omega), .below hfit (by omega)⟩
  have hpast : s.base.toNat + s.len.toNat < (s.toShadow start).toNat + len.toNat / 8 := by
    by_contra hend
    refine h hfit fun a h1 h2 => backs_iff.mpr ?_
    have hs' := toNat_toShadow s start
    have ha' := toNat_toShadow s a
    omega
  exact ⟨_, write_of_past hne hbase (by omega), .past hfit hbase hpast⟩

/-! ## What a write depends on -/

/-- The update is refused whatever the memory holds, or it sets some bytes of the space to `v` whatever the memory holds. -/
def Sets (space : Space) (v : UInt8) (update : Memory → Except ShadowError Memory) : Prop :=
  (∃ e, ∀ memory, update memory = .error e) ∨
    ∃ first n, n ≤ 2 ^ 64 ∧ ∀ memory, update memory = .ok (memory.fill space first n v)

/-- Whether a write is refused does not depend on what the memory holds. -/
theorem sets_write (s : ShadowMap) (shadow len : UInt64) (v : UInt8) : Sets s.space v (s.write shadow len v) := by
  by_cases hlen : len = 0
  · refine Or.inr ⟨0, 0, Nat.zero_le _, fun memory => ?_⟩
    rw [hlen, write_zero, Memory.fill]
  by_cases hin : s.base.toNat ≤ shadow.toNat ∧ shadow.toNat + len.toNat ≤ s.base.toNat + s.len.toNat
  · exact Or.inr ⟨shadow, len.toNat, len.toNat_lt.le, fun memory => (write_eq_ok_iff hlen).mpr ⟨hin.1, hin.2, rfl⟩⟩
  · rcases Nat.lt_or_ge shadow.toNat s.base.toNat with hbelow | hbase
    · exact Or.inl ⟨_, fun memory => write_of_below hlen hbelow⟩
    · exact Or.inl ⟨_, fun memory => write_of_past hlen hbase (by omega)⟩

theorem sets_writeGranules (s : ShadowMap) (start len : UInt64) (v : UInt8) :
    Sets s.space v (s.writeGranules start len v) := by
  unfold writeGranules
  by_cases hlen : len = 0
  · exact Or.inr ⟨0, 0, Nat.zero_le _, fun memory => if_pos hlen⟩
  simp only [if_neg hlen]
  cases checkedAdd start (len - 1) with
  | none => exact Or.inl ⟨_, fun memory => rfl⟩
  | some last => exact s.sets_write _ _ v

/-! ## What a write can reach -/

/-- No write reaches a byte outside the memory of the map. -/
theorem sameOutside_of_write {shadow len : UInt64} {v : UInt8} (h : s.write shadow len v m = .ok m') :
    m.SameOutside s.cells m' := by
  by_cases hlen : len = 0
  · rw [hlen, write_zero, Except.ok.injEq] at h
    rw [h]
    exact Memory.SameOutside.refl _ _
  · obtain ⟨hbase, hend, rfl⟩ := (write_eq_ok_iff hlen).mp h
    intro space b hb
    rw [Memory.read_fill _ _ _ _ _ _ (Nat.le_of_lt len.toNat_lt), if_neg]
    rintro ⟨rfl, hnear⟩
    refine hb ⟨rfl, ?_⟩
    show (b - s.base).toNat < s.len.toNat
    rw [UInt64.toNat_sub] at hnear ⊢
    omega

theorem sameOutside_of_writeGranules {start len : UInt64} {v : UInt8} (h : s.writeGranules start len v m = .ok m') :
    m.SameOutside s.cells m' := by
  unfold writeGranules at h
  split_ifs at h with hlen
  · cases h
    exact Memory.SameOutside.refl _ _
  · split at h
    · cases h
    · exact sameOutside_of_write h

/-! ## Writing one granule -/

theorem store_of_tracks (lo : Nat) (v : UInt8) (h : s.Tracks b) (hlo : lo % 8 = 0) (hb : lo ≤ b.toNat ∧ b.toNat < lo + 8) :
    ∃ m', s.store (s.toShadow b) v m = .ok m' ∧ m.SameOutside (s.footprint lo (lo + 8)) m' ∧
      ∀ a : Address, lo ≤ a.toNat → a.toNat < lo + 8 → s.byteAt m' a = v := by
  have hbacked := backs_iff.mp h
  refine ⟨m.write s.space (s.toShadow b) v, ?_, ?_, ?_⟩
  · rw [store, write_eq_ok_iff (by decide)]
    exact ⟨hbacked.1, hbacked.2, rfl⟩
  · intro space x hx
    rw [Memory.read_write, if_neg]
    rintro ⟨rfl, rfl⟩
    exact hx ⟨rfl, b, hb.1, hb.2, h, rfl⟩
  · intro a h1 h2
    rw [byteAt, toShadow_eq_iff.mpr (show a.toNat / 8 = b.toNat / 8 by omega), Memory.read_write_self]

theorem store_of_not_tracks (h : ¬s.Tracks b) : ∃ e, s.store (s.toShadow b) v m = .error e := by
  cases hw : s.store (s.toShadow b) v m with
  | error e => exact ⟨e, rfl⟩
  | ok m' =>
    rw [store, write_eq_ok_iff (by decide)] at hw
    exact absurd (backs_iff.mpr ⟨hw.1, hw.2.1⟩) h

end WriteGranules

/-! ## A range written exactly -/

/-- From `memory` to `memory'`, the shadow byte of every address from `lo` on and below `hi` has become its `value`, and no
other shadow byte has changed. -/
structure Writes (s : ShadowMap) (lo hi : Nat) (value : Address → UInt8) (memory memory' : Memory) : Prop where
  inside : ∀ a : Address, lo ≤ a.toNat → a.toNat < hi → s.byteAt memory' a = value a
  outside : ∀ shadow, s.Backs shadow → (∀ a : Address, lo ≤ a.toNat → a.toNat < hi → shadow ≠ s.toShadow a) →
    memory'.read s.space shadow = memory.read s.space shadow

theorem writes_of_footprint {value : Address → UInt8} (hframe : m.SameOutside (s.footprint lo hi) m')
    (hinside : ∀ a : Address, lo ≤ a.toNat → a.toNat < hi → s.byteAt m' a = value a) :
    s.Writes lo hi value m m' where
  inside := hinside
  outside shadow _ hout := by
    refine hframe s.space shadow ?_
    rintro ⟨-, a, h1, h2, -, heq⟩
    exact hout a h1 h2 heq

/-! ## Poisoning -/

section Updates

variable {A : Type} {start len : UInt64} {tag : Tag}

theorem run_poison (hstart : start.toNat % 8 = 0) (hlen : len.toNat % 8 = 0) (m : Machine A) :
    (s.poison start len tag).run m =
      match s.writeGranules start len tag.byte m.memory with
      | .ok memory => (.done (), { m with memory, log := m.log.push (.poison start len tag) })
      | .error e => (.failed e, { m with log := m.log.push (.poison start len tag) }) := by
  have haligned : Aligned start ∧ Aligned len := ⟨aligned_iff.mpr hstart, aligned_iff.mpr hlen⟩
  simp only [poison, Action.run_bind, Action.run_emit, Action.run_assert_of _ haligned, Action.run_updateMemory]
  cases s.writeGranules start len tag.byte m.memory <;> rfl

/-- Poisoning whole granules sets the bytes of all of them if the map holds them all. -/
theorem run_poison_of_covers (tag : Tag) (hstart : start.toNat % 8 = 0) (hlen : len.toNat % 8 = 0)
    (hfit : start.toNat + len.toNat ≤ 2 ^ 64) (h : s.Covers start.toNat (start.toNat + len.toNat)) (m : Machine A) :
    ∃ m' : Machine A, (s.poison start len tag).run m = (.done (), m') ∧ m'.allocator = m.allocator ∧
      m.memory.SameOutside (s.footprint start.toNat (start.toNat + len.toNat)) m'.memory ∧
      ∀ a : Address, start.toNat ≤ a.toNat → a.toNat < start.toNat + len.toNat → s.byteAt m'.memory a = tag.byte := by
  obtain ⟨memory, hw, hsame, hbyte⟩ :=
    writeGranules_of_covers (m := m.memory) len tag.byte hstart hlen hfit h
  refine ⟨{ m with memory, log := m.log.push (.poison start len tag) }, ?_, rfl, hsame, hbyte⟩
  rw [run_poison hstart hlen, hw]

/-- Poisoning whole granules of which the map does not hold them all changes nothing. -/
theorem run_poison_of_not_covers (tag : Tag) (hs : s.InSpace) (hstart : start.toNat % 8 = 0) (hlen : len.toNat % 8 = 0)
    (h : start.toNat + len.toNat ≤ 2 ^ 64 → ¬s.Covers start.toNat (start.toNat + len.toNat)) (m : Machine A) :
    ∃ e, (s.poison start len tag).run m = (.failed e, { m with log := m.log.push (.poison start len tag) }) ∧
      s.Refusal start len e := by
  obtain ⟨e, he, hrefusal⟩ := writeGranules_of_not_covers (m := m.memory) len tag.byte hs hstart hlen h
  exact ⟨e, by rw [run_poison hstart hlen, he], hrefusal⟩

/-- Poisoning never traps on whole granules, and changes at most their bytes; if the map holds them all, it sets them. -/
theorem run_poison_cases (start : Address) (tag : Tag) (hstart : start.toNat % 8 = 0) (hlen : len.toNat % 8 = 0)
    (hfit : start.toNat + len.toNat ≤ 2 ^ 64) (hs : s.InSpace ∨ s.Covers start.toNat (start.toNat + len.toNat))
    (m : Machine A) :
    ∃ (o : Outcome ShadowError Unit) (m' : Machine A), (s.poison start len tag).run m = (o, m') ∧
      (o = .done () ∨ ∃ e, o = .failed e) ∧ m'.allocator = m.allocator ∧
      m.memory.SameOutside (s.footprint start.toNat (start.toNat + len.toNat)) m'.memory ∧
      (s.Covers start.toNat (start.toNat + len.toNat) → o = .done () ∧
        ∀ a : Address, start.toNat ≤ a.toNat → a.toNat < start.toNat + len.toNat →
          s.byteAt m'.memory a = tag.byte) ∧
      (¬s.Covers start.toNat (start.toNat + len.toNat) → m'.memory = m.memory) := by
  by_cases h : s.Covers start.toNat (start.toNat + len.toNat)
  · obtain ⟨m', hrun, halloc, hsame, hbyte⟩ := run_poison_of_covers tag hstart hlen hfit h m
    exact ⟨_, m', hrun, Or.inl rfl, halloc, hsame, fun _ => ⟨rfl, hbyte⟩, fun hnot => absurd h hnot⟩
  · obtain ⟨e, hrun, -⟩ := run_poison_of_not_covers tag (hs.resolve_right h) hstart hlen (fun _ => h) m
    exact ⟨.failed e, { m with log := m.log.push (.poison start len tag) }, hrun, Or.inr ⟨e, rfl⟩, rfl,
      Memory.SameOutside.refl _ _, fun hc => absurd hc h, fun _ => rfl⟩

/-! ## Unpoisoning -/

theorem run_unpoison (hstart : start.toNat % 8 = 0) (m : Machine A) :
    (s.unpoison start len).run m =
      match s.writeGranules start (alignDown len) Tag.valid.byte m.memory with
      | .error e => (.failed e, { m with log := m.log.push (.unpoison start len) })
      | .ok memory =>
        let m' := { m with memory, log := m.log.push (.unpoison start len) }
        if granuleOffset len = 0 then (.done (), m')
        else match checkedAdd start len with
          | none => (.failed (.addressRangeOverflow start len), m')
          | some boundary =>
            match s.store (s.toShadow boundary) (granuleOffset len).toUInt8 memory with
            | .ok memory => (.done (), { m' with memory })
            | .error e => (.failed e, m') := by
  have haligned : Aligned start := aligned_iff.mpr hstart
  simp only [unpoison, Action.run_bind, Action.run_emit, Action.run_assert_of _ haligned, Action.run_updateMemory]
  cases s.writeGranules start (alignDown len) Tag.valid.byte m.memory with
  | error e => rfl
  | ok memory =>
    by_cases hzero : granuleOffset len = 0
    · simp only [hzero, ne_eq, not_true_eq_false, if_false, if_true]
      rfl
    · simp only [hzero, ne_eq, not_false_eq_true, if_true, if_false, Action.run_bind]
      cases checkedAdd start len with
      | none => rfl
      | some boundary =>
        simp only [Action.run_require_some, Action.run_updateMemory]
        cases s.store (s.toShadow boundary) (granuleOffset len).toUInt8 memory <;> rfl

/-- Unpoisoning a range of which the map holds every granule clears the whole granules and records the accessible bytes
of the last one. -/
theorem run_unpoison_of_covers (hstart : start.toNat % 8 = 0) (hfit : start.toNat + roundUp len.toNat ≤ 2 ^ 64)
    (h : s.Covers start.toNat (start.toNat + roundUp len.toNat)) (m : Machine A) :
    ∃ m' : Machine A, (s.unpoison start len).run m = (.done (), m') ∧ m'.allocator = m.allocator ∧
      m.memory.SameOutside (s.footprint start.toNat (start.toNat + roundUp len.toNat)) m'.memory ∧
      (∀ a : Address, start.toNat ≤ a.toNat → a.toNat < start.toNat + len.toNat / 8 * 8 → s.byteAt m'.memory a = 0) ∧
      ∀ a : Address, start.toNat + len.toNat / 8 * 8 ≤ a.toNat → a.toNat < start.toNat + roundUp len.toNat →
        (s.byteAt m'.memory a).toNat = len.toNat % 8 := by
  have hpre := toNat_alignDown_eq len
  have hround := le_roundUp len.toNat
  obtain ⟨memory, hw, hsame, hbyte⟩ := writeGranules_of_covers (m := m.memory) (alignDown len) Tag.valid.byte
    hstart (by omega) (by omega) (h.mono le_rfl (by omega))
  rw [hpre] at hsame hbyte
  by_cases hmod : len.toNat % 8 = 0
  · have hr := roundUp_of_dvd hmod
    refine ⟨{ m with memory, log := m.log.push (.unpoison start len) }, ?_, rfl,
      hsame.mono (footprint_mono le_rfl (by omega)), hbyte, fun a h1 h2 => ?_⟩
    · simp only [run_unpoison hstart, hw, granuleOffset_eq_zero_iff.mpr hmod, if_true]
    · omega
  · have hr := roundUp_of_not_dvd hmod
    have hadd : checkedAdd start len = some (start + len) := checkedAdd_of_lt (by omega)
    have hsum : (start + len).toNat = start.toNat + len.toNat := toNat_add_of_lt (by omega)
    obtain ⟨memory', hstore, hsame', hbyte'⟩ := store_of_tracks (m := memory)
      (start.toNat + len.toNat / 8 * 8) (granuleOffset len).toUInt8 (h (start + len) (by omega) (by omega)) (by omega) (by omega)
    refine ⟨{ m with memory := memory', log := m.log.push (.unpoison start len) }, ?_, rfl, ?_, ?_, ?_⟩
    · simp only [run_unpoison hstart, hw, granuleOffset_eq_zero_iff.not.mpr hmod, if_false, hadd, hstore]
    · exact (hsame.mono (footprint_mono le_rfl (by omega))).trans (hsame'.mono (footprint_mono (by omega) (by omega)))
    · intro a h1 h2
      rw [byteAt_of_sameOutside hsame' (not_mem_footprint (by omega) (by omega) (Or.inl h2))]
      exact hbyte a h1 h2
    · intro a h1 h2
      rw [hbyte' a h1 (by omega), toNat_boundary_byte]

/-- Unpoisoning a range of whose whole granules the map misses one changes nothing. -/
theorem run_unpoison_of_not_covers (hs : s.InSpace) (hstart : start.toNat % 8 = 0)
    (h : start.toNat + len.toNat / 8 * 8 ≤ 2 ^ 64 → ¬s.Covers start.toNat (start.toNat + len.toNat / 8 * 8))
    (m : Machine A) :
    ∃ e, (s.unpoison start len).run m = (.failed e, { m with log := m.log.push (.unpoison start len) }) := by
  have hpre := toNat_alignDown_eq len
  obtain ⟨e, he, -⟩ := writeGranules_of_not_covers (m := m.memory) (alignDown len) Tag.valid.byte hs hstart
    (by omega) (by rwa [hpre])
  exact ⟨e, by simp only [run_unpoison hstart, he]⟩

/-- Unpoisoning a range of which the map holds all granules but the boundary one clears those and is refused. So it is if
the boundary granule lies behind the end of the address space. -/
theorem run_unpoison_of_prefix (hstart : start.toNat % 8 = 0) (hfit : start.toNat + len.toNat / 8 * 8 ≤ 2 ^ 64)
    (h : s.Covers start.toNat (start.toNat + len.toNat / 8 * 8))
    (hmiss : start.toNat + roundUp len.toNat ≤ 2 ^ 64 → ¬s.Covers start.toNat (start.toNat + roundUp len.toNat))
    (m : Machine A) :
    ∃ e, ∃ m' : Machine A, (s.unpoison start len).run m = (.failed e, m') ∧ m'.allocator = m.allocator ∧
      m.memory.SameOutside (s.footprint start.toNat (start.toNat + len.toNat / 8 * 8)) m'.memory ∧
      ∀ a : Address, start.toNat ≤ a.toNat → a.toNat < start.toNat + len.toNat / 8 * 8 → s.byteAt m'.memory a = 0 := by
  have hpre := toNat_alignDown_eq len
  have hround : roundUp len.toNat = (len.toNat + 7) / 8 * 8 := rfl
  obtain ⟨memory, hw, hsame, hbyte⟩ := writeGranules_of_covers (m := m.memory) (alignDown len) Tag.valid.byte
    hstart (by omega) (by omega) (by rwa [hpre])
  rw [hpre] at hsame hbyte
  have hmod : len.toNat % 8 ≠ 0 := by
    intro hmod
    have hr : roundUp len.toNat = len.toNat / 8 * 8 := by omega
    rw [hr] at hmiss
    exact hmiss hfit h
  have hpartial := granuleOffset_eq_zero_iff.not.mpr hmod
  cases hadd : checkedAdd start len with
  | none =>
    refine ⟨.addressRangeOverflow start len, { m with memory, log := m.log.push (.unpoison start len) }, ?_, rfl, hsame, hbyte⟩
    simp only [run_unpoison hstart, hw, hpartial, if_false, hadd]
  | some boundary =>
    have hsum := checkedAdd_eq_some_iff.mp hadd
    have hlt := boundary.toNat_lt
    have hboundary : ¬s.Tracks boundary := fun ht => hmiss (by omega) (h.of_boundary hstart (by omega) ht)
    obtain ⟨e, he⟩ := store_of_not_tracks (v := (granuleOffset len).toUInt8) (m := memory) hboundary
    refine ⟨e, { m with memory, log := m.log.push (.unpoison start len) }, ?_, rfl, hsame, hbyte⟩
    simp only [run_unpoison hstart, hw, hpartial, if_false, hadd, he]

end Updates

end ShadowMap

end AddressSanitizer
