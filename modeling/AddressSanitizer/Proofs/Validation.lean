/-
What a check finds, said byte by byte. The scan looks at one shadow byte per granule and makes an exception for the last
granule of an access; the law is about single bytes: a check fails exactly if the access has a byte that its shadow byte
does not permit, all bytes of the access up to that one being tracked, and it reports the lowest such byte.

- `firstNonzero_eq_some_iff`: the scan by distances from its first shadow byte.
- `scan_eq_some_iff`: the same by addresses: it stops at the first byte whose shadow byte is not zero.
- `findPoisoned_eq_some_iff`: with the exception for the last granule, it finds the first byte that is not permitted.
- `Context.violation?_eq_some_iff`, `Context.run_check`: the violation of an access, and how its check ends.
- `Context.check_done_of_permits`, `Context.check_failed_of_firstForbidden`: accesses that pass, and accesses that are rejected.
- `Context.check_failed_iff_forbidden`: the law.
-/
import Mathlib.Tactic
import AddressSanitizer.Context
import AddressSanitizer.Proofs.Granules

namespace AddressSanitizer

/-- a granule with the shadow byte `v` lets its byte at `a` be accessed -/
def Permits (v : UInt8) (a : Address) : Prop := v.toNat = 0 ∨ (1 ≤ v.toNat ∧ v.toNat ≤ 7 ∧ a.toNat % 8 < v.toNat)

instance (v : UInt8) (a : Address) : Decidable (Permits v a) := inferInstanceAs (Decidable (_ ∨ _))

/-- a granule whose shadow byte is a tag has no accessible byte -/
theorem not_permits_of_le {v : UInt8} {a : Address} (h : 8 ≤ v.toNat) : ¬Permits v a := by
  rw [Permits]
  omega

theorem isPartial_iff {v : UInt8} : IsPartial v ↔ 1 ≤ v.toNat ∧ v.toNat ≤ 7 := by
  have h8 : (8 : UInt8).toNat = 8 := rfl
  unfold IsPartial
  rw [ne_eq, ← UInt8.toNat_inj, UInt8.lt_iff_toNat_lt, UInt8.toNat_zero, h8]
  omega

theorem exists_address {n : Nat} (h : n < 2 ^ 64) : ∃ a : Address, a.toNat = n :=
  ⟨n.toUInt64, UInt64.toNat_ofNat_of_lt' h⟩

theorem Access.last?_eq_some_iff {x : Access} {last : Address} :
    x.last? = some last ↔ 1 ≤ x.size.toNat ∧ last.toNat = x.addr.toNat + (x.size.toNat - 1) := by
  simp only [last?, Option.bind_eq_some_iff, checkedSub_eq_some_iff, checkedAdd_eq_some_iff]
  have h1 : (1 : UInt64).toNat = 1 := rfl
  constructor
  · rintro ⟨n, hn, hlast⟩
    omega
  · rintro ⟨hsize, hlast⟩
    have hpred : (x.size - 1).toNat = x.size.toNat - 1 := toNat_sub_of_le hsize
    exact ⟨x.size - 1, by omega, by omega⟩

namespace ShadowMap

variable {s : ShadowMap} {memory : Memory} {addr last : Address}

/-- `a` is a byte of the range from `addr` to `last` that its shadow byte does not permit, and every byte of the range up
to `a` is tracked. -/
structure Forbids (s : ShadowMap) (memory : Memory) (addr last a : Address) : Prop where
  addr_le : addr.toNat ≤ a.toNat
  le_last : a.toNat ≤ last.toNat
  tracked : ∀ b : Address, addr.toNat ≤ b.toNat → b.toNat ≤ a.toNat → s.Tracks b
  not_permitted : ¬Permits (s.byteAt memory a) a

/-- the lowest byte that is forbidden -/
structure FirstForbidden (s : ShadowMap) (memory : Memory) (addr last a : Address) : Prop
    extends s.Forbids memory addr last a where
  lowest : ∀ b, s.Forbids memory addr last b → a.toNat ≤ b.toNat

/-- a forbidden byte has a lowest one at or below it -/
theorem Forbids.exists_first {a : Address} (h : s.Forbids memory addr last a) :
    ∃ a, s.FirstForbidden memory addr last a := by
  classical
  have hex : ∃ n, ∃ a : Address, a.toNat = n ∧ s.Forbids memory addr last a := ⟨_, a, rfl, h⟩
  obtain ⟨b, hb, hforbids⟩ := Nat.find_spec hex
  exact ⟨b, { hforbids with lowest := fun c hc => hb ▸ Nat.find_min' hex ⟨c, rfl, hc⟩ }⟩

/-! ## The scan -/

theorem firstNonzero_eq_some_iff {n : Nat} {shadow found : Address} {v : UInt8} :
    s.firstNonzero memory n shadow = some (found, v) ↔
      ∃ k, k < n ∧ found = shadow + k.toUInt64 ∧ v ≠ 0 ∧ s.load? memory found = some v ∧
        ∀ j, j < k → s.load? memory (shadow + j.toUInt64) = some 0 := by
  have hzero (x : Address) : x + Nat.toUInt64 0 = x := UInt64.add_zero x
  have hsucc (x : Address) (j : Nat) : x + 1 + j.toUInt64 = x + (j + 1).toUInt64 := by
    rw [UInt64.add_assoc, UInt64.add_comm 1]
    simp
  induction n generalizing shadow with
  | zero => simp [firstNonzero]
  | succ n ih =>
    simp only [firstNonzero]
    cases hload : s.load? memory shadow with
    | none =>
      simp only [reduceCtorEq, false_iff]
      rintro ⟨k, -, hfound, -, hv, hbelow⟩
      rcases Nat.eq_zero_or_pos k with rfl | hk
      · rw [hfound, hzero, hload] at hv
        cases hv
      · have := hbelow 0 hk
        rw [hzero, hload] at this
        cases this
    | some w =>
      by_cases hw : w = 0
      · simp only [hw, if_true]
        refine ih.trans ?_
        constructor
        · rintro ⟨k, hk, hfound, hv, hload', hbelow⟩
          refine ⟨k + 1, by omega, by rw [hfound, hsucc], hv, hload', fun j hj => ?_⟩
          cases j with
          | zero => rw [hzero, hload, hw]
          | succ j => rw [← hsucc]; exact hbelow j (by omega)
        · rintro ⟨k, hk, hfound, hv, hload', hbelow⟩
          cases k with
          | zero =>
            rw [hfound, hzero, hload, hw] at hload'
            exact absurd (Option.some.inj hload').symm hv
          | succ k =>
            refine ⟨k, by omega, by rw [hfound, hsucc], hv, hload', fun j hj => ?_⟩
            rw [hsucc]
            exact hbelow (j + 1) (by omega)
      · simp only [hw, if_false, Option.some.injEq, Prod.mk.injEq]
        constructor
        · rintro ⟨rfl, rfl⟩
          exact ⟨0, by omega, (hzero _).symm, hw, hload, fun j hj => by omega⟩
        · rintro ⟨k, hk, hfound, hv, hload', hbelow⟩
          rcases Nat.eq_zero_or_pos k with rfl | hpos
          · rw [hzero] at hfound
            rw [hfound, hload] at hload'
            exact ⟨hfound.symm, Option.some.inj hload'⟩
          · have := hbelow 0 hpos
            rw [hzero, hload] at this
            exact absurd (Option.some.inj this) hw

theorem load?_toShadow_eq_some_iff {a : Address} {v : UInt8} :
    s.load? memory (s.toShadow a) = some v ↔ s.Tracks a ∧ s.byteAt memory a = v := load?_eq_some_iff

/-- the shadow address `k` granules behind that of `addr` -/
theorem toShadow_eq_add {a : Address} {k : Nat} (h : a.toNat / 8 = addr.toNat / 8 + k) :
    s.toShadow a = s.toShadow addr + k.toUInt64 := by
  have ha := a.toNat_lt
  have hk : k.toUInt64.toNat = k := UInt64.toNat_ofNat_of_lt' (by simp only [UInt64.size]; omega)
  rw [← UInt64.toNat_inj, UInt64.toNat_add, toNat_toShadow, toNat_toShadow, hk]
  omega

/-- number of granules that a range touches -/
theorem toNat_scan_length (h : addr.toNat ≤ last.toNat) :
    (s.toShadow last - s.toShadow addr + 1).toNat = last.toNat / 8 - addr.toNat / 8 + 1 := by
  have hlast := last.toNat_lt
  rw [UInt64.toNat_add, UInt64.toNat_sub, toNat_toShadow, toNat_toShadow]
  simp only [UInt64.reduceToNat]
  omega

/-- The scan of a range stops at the first byte whose shadow byte is not zero. -/
theorem scan_eq_some_iff (h : addr.toNat ≤ last.toNat) {found : Address} {v : UInt8} :
    s.firstNonzero memory (s.toShadow last - s.toShadow addr + 1).toNat (s.toShadow addr) = some (found, v) ↔
      ∃ a : Address, addr.toNat ≤ a.toNat ∧ a.toNat ≤ last.toNat ∧ found = s.toShadow a ∧ v = s.byteAt memory a ∧ v ≠ 0 ∧
        (∀ b : Address, addr.toNat ≤ b.toNat → b.toNat ≤ a.toNat → s.Tracks b) ∧
        ∀ b : Address, addr.toNat ≤ b.toNat → b.toNat < a.toNat → s.byteAt memory b = 0 := by
  have hlt := last.toNat_lt
  rw [firstNonzero_eq_some_iff, toNat_scan_length h]
  constructor
  · rintro ⟨k, hk, rfl, hv, hload, hbelow⟩
    -- the first byte of the range that lies in the `k`-th granule
    obtain ⟨a, ha⟩ := exists_address (n := max addr.toNat ((addr.toNat / 8 + k) * 8)) (by omega)
    rw [← toShadow_eq_add (a := a) (by omega), load?_toShadow_eq_some_iff] at hload
    have hbefore (b : Address) (h1 : addr.toNat ≤ b.toNat) (h2 : b.toNat / 8 < a.toNat / 8) :
        s.Tracks b ∧ s.byteAt memory b = 0 := by
      have := hbelow (b.toNat / 8 - addr.toNat / 8) (by omega)
      rwa [← toShadow_eq_add (a := b) (by omega), load?_toShadow_eq_some_iff] at this
    refine ⟨a, by omega, by omega, (toShadow_eq_add (by omega)).symm, hload.2.symm, hv, fun b h1 h2 => ?_, fun b h1 h2 => ?_⟩
    · rcases Nat.lt_or_ge (b.toNat / 8) (a.toNat / 8) with hb | hb
      · exact (hbefore b h1 hb).1
      · exact (tracks_congr (by omega)).mpr hload.1
    · exact (hbefore b h1 (by omega)).2
  · rintro ⟨a, h1, h2, rfl, rfl, hv, htracked, hbelow⟩
    refine ⟨a.toNat / 8 - addr.toNat / 8, by omega, toShadow_eq_add (by omega), hv,
      load?_toShadow_eq_some_iff.mpr ⟨htracked a h1 le_rfl, rfl⟩, fun j hj => ?_⟩
    obtain ⟨b, hb⟩ := exists_address (n := max addr.toNat ((addr.toNat / 8 + j) * 8)) (by omega)
    rw [← toShadow_eq_add (a := b) (by omega), load?_toShadow_eq_some_iff]
    exact ⟨htracked b (by omega) (by omega), hbelow b (by omega) (by omega)⟩

/-! ## The first forbidden byte -/

/-- From the first byte whose shadow byte is not zero, the first forbidden byte of its granule: the byte itself, or the
first one behind the accessible bytes of a partial granule. The exception for the last granule is the case in which that
byte lies behind the range. -/
theorem firstForbidden_of_scan {a : Address} (h1 : addr.toNat ≤ a.toNat) (h2 : a.toNat ≤ last.toNat)
    (hv : s.byteAt memory a ≠ 0) (htracked : ∀ b : Address, addr.toNat ≤ b.toNat → b.toNat ≤ a.toNat → s.Tracks b)
    (hbelow : ∀ b : Address, addr.toNat ≤ b.toNat → b.toNat < a.toNat → s.byteAt memory b = 0)
    (hlast : ¬(a.toNat / 8 = last.toNat / 8 ∧ (s.byteAt memory a).toNat ≤ 7 ∧
      last.toNat % 8 < (s.byteAt memory a).toNat)) :
    ∃ f : Address, s.FirstForbidden memory addr last f ∧ f.toNat / 8 = a.toNat / 8 := by
  have hlt := last.toNat_lt
  have hpos : (s.byteAt memory a).toNat ≠ 0 := fun h0 => hv (UInt8.toNat_inj.mp h0)
  obtain ⟨f, hf⟩ := exists_address (n := if (s.byteAt memory a).toNat ≤ 7
    then max a.toNat (a.toNat / 8 * 8 + (s.byteAt memory a).toNat) else a.toNat) (by split <;> omega)
  have hgranule : f.toNat / 8 = a.toNat / 8 := by
    split at hf <;> omega
  have hsame := byteAt_congr (s := s) (m := memory) hgranule
  refine ⟨f, ⟨⟨by split at hf <;> omega, by split at hf <;> omega, fun b hb1 hb2 => ?_, ?_⟩, fun b hb => ?_⟩, hgranule⟩
  · rcases Nat.lt_or_ge a.toNat b.toNat with hab | hab
    · exact (tracks_congr (by omega)).mpr (htracked a h1 le_rfl)
    · exact htracked b hb1 hab
  · rw [Permits, hsame]
    split at hf <;> omega
  · by_contra hbf
    apply hb.not_permitted
    rcases Nat.lt_or_ge b.toNat a.toNat with hab | hab
    · rw [hbelow b hb.addr_le hab]
      exact Or.inl rfl
    · rw [Permits, byteAt_congr (s := s) (m := memory) (show b.toNat / 8 = a.toNat / 8 by omega)]
      split at hf <;> omega

/-- Before the granule of the first forbidden byte every shadow byte is zero: the last byte of an earlier granule is in
the range, and only zero permits it. -/
theorem FirstForbidden.byteAt_eq_zero {f b : Address} (h : s.FirstForbidden memory addr last f)
    (h1 : addr.toNat ≤ b.toNat) (h2 : b.toNat / 8 < f.toNat / 8) : s.byteAt memory b = 0 := by
  have hf := f.toNat_lt
  obtain ⟨c, hc⟩ := exists_address (n := b.toNat / 8 * 8 + 7) (by omega)
  have hpermits : Permits (s.byteAt memory c) c := by
    by_contra hnot
    have hle := h.lowest c
      ⟨by omega, by have := h.le_last; omega, fun d hd1 hd2 => h.tracked d hd1 (by omega), hnot⟩
    omega
  rw [byteAt_congr (show b.toNat / 8 = c.toNat / 8 by omega), ← UInt8.toNat_inj]
  rcases hpermits with h0 | ⟨-, hle, hlt⟩
  · exact h0
  · omega

theorem findPoisoned_eq_some_iff (h : addr.toNat ≤ last.toNat) {found : Address} {v : UInt8} :
    s.findPoisoned memory addr last = some (found, v) ↔
      ∃ a, s.FirstForbidden memory addr last a ∧ found = s.toShadow a ∧ v = s.byteAt memory a := by
  have hoffset (v : UInt8) : granuleOffset last < v.toUInt64 ↔ last.toNat % 8 < v.toNat := by
    rw [UInt64.lt_iff_toNat_lt, toNat_granuleOffset, UInt8.toNat_toUInt64]
  simp only [findPoisoned]
  constructor
  · intro hfind
    split at hfind
    · cases hfind
    rename_i found' v' hscan
    split_ifs at hfind with hexempt
    cases hfind
    obtain ⟨a, h1, h2, rfl, rfl, hv, htracked, hbelow⟩ := (scan_eq_some_iff h).mp hscan
    rw [toShadow_eq_iff, isPartial_iff, hoffset] at hexempt
    have hpos : (s.byteAt memory a).toNat ≠ 0 := fun h0 => hv (UInt8.toNat_inj.mp h0)
    obtain ⟨f, hf, hgranule⟩ := firstForbidden_of_scan h1 h2 hv htracked hbelow (by omega)
    exact ⟨f, hf, toShadow_eq_iff.mpr hgranule.symm, byteAt_congr hgranule.symm⟩
  · rintro ⟨f, hf, rfl, rfl⟩
    have hflt := f.toNat_lt
    have hbound := hf.addr_le
    have hbound' := hf.le_last
    have hnot := hf.not_permitted
    rw [Permits] at hnot
    -- the first byte of the range that lies in the granule of `f`
    obtain ⟨a, ha⟩ := exists_address (n := max addr.toNat (f.toNat / 8 * 8)) (by omega)
    have hgranule : a.toNat / 8 = f.toNat / 8 := by omega
    have hbyte := byteAt_congr (s := s) (m := memory) hgranule
    have hne : s.byteAt memory f ≠ 0 := by
      intro h0
      rw [h0] at hnot
      exact hnot (Or.inl rfl)
    have hscan : s.firstNonzero memory (s.toShadow last - s.toShadow addr + 1).toNat (s.toShadow addr) =
        some (s.toShadow f, s.byteAt memory f) := (scan_eq_some_iff h).mpr
      ⟨a, by omega, by omega, (toShadow_eq_iff.mpr hgranule).symm, hbyte.symm, hne,
        fun b hb1 hb2 => hf.tracked b hb1 (by omega), fun b hb1 hb2 => hf.byteAt_eq_zero hb1 (by omega)⟩
    rw [hscan]
    simp only
    rw [if_neg]
    rw [toShadow_eq_iff, isPartial_iff, hoffset]
    omega

/-- the violation of an access that is stopped at the byte `a` -/
def violationAt (s : ShadowMap) (memory : Memory) (x : Access) (a : Address) : Violation where
  access := x
  shadowAddr := s.toShadow a
  shadowValue := s.byteAt memory a
  kind := ViolationKind.ofShadow (s.byteAt memory a) (s.load? memory (s.toShadow a + 1))

theorem violation?_eq_some_iff {x : Access} {v : Violation} :
    s.violation? memory x = some v ↔
      ∃ last, x.last? = some last ∧ ∃ a, s.FirstForbidden memory x.addr last a ∧ v = s.violationAt memory x a := by
  simp only [violation?, Option.bind_eq_bind, Option.bind_eq_some_iff, Option.pure_def, Option.some.injEq]
  constructor
  · rintro ⟨last, hlast, ⟨found, value⟩, hfind, rfl⟩
    have hle : x.addr.toNat ≤ last.toNat := by have := Access.last?_eq_some_iff.mp hlast; omega
    obtain ⟨a, ha, rfl, rfl⟩ := (findPoisoned_eq_some_iff hle).mp hfind
    exact ⟨last, hlast, a, ha, rfl⟩
  · rintro ⟨last, hlast, a, ha, rfl⟩
    have hle : x.addr.toNat ≤ last.toNat := by have := Access.last?_eq_some_iff.mp hlast; omega
    exact ⟨last, hlast, _, (findPoisoned_eq_some_iff hle).mpr ⟨a, ha, rfl, rfl⟩, rfl⟩

/-! ## Reports -/

theorem trap?_dump {shadow : Address} {before after : UInt64} :
    (s.dump memory shadow before after).trap? =
      if rowLimit ≤ before.toNat ∨ rowLimit ≤ after.toNat then some .mulOverflow else none := by
  simp only [dump]
  by_cases hb : rowLimit ≤ before.toNat <;> by_cases ha : rowLimit ≤ after.toNat <;> simp [hb, ha]

/-- A report logs its opening lines and the rows of its dump, and traps if rows are too far away to be numbered. -/
theorem run_report {A ε : Type} (v : Violation) (before after : UInt64) (m : Machine A) :
    (s.report v before after : Action A ε Unit).run m =
      (if rowLimit ≤ before.toNat ∨ rowLimit ≤ after.toNat then .trapped .mulOverflow else .done (),
        { m with log := m.log ++ ((s.reportHead v).map Event.report).toArray ++
            ((s.dump m.memory v.shadowAddr before after).rows.map fun row => Event.report (.row row)).toArray }) := by
  simp only [report, Action.run_bind, Action.run_forM_emit, Action.run_memory, trap?_dump]
  by_cases h : rowLimit ≤ before.toNat ∨ rowLimit ≤ after.toNat
  · simp only [h, if_true, Action.run_trap]
  · simp only [h, if_false, Action.run_pure]

end ShadowMap

/-- fewer rows than have a distance on both sides of the faulting one -/
def Config.RowsNumbered (c : Config) : Prop := c.rowsBefore.toNat < 2 ^ 60 ∧ c.rowsAfter.toNat < 2 ^ 60

instance (c : Config) : Decidable c.RowsNumbered := inferInstanceAs (Decidable (_ ∧ _))

theorem Config.not_rowsNumbered_iff {c : Config} :
    ¬c.RowsNumbered ↔ ShadowMap.rowLimit ≤ c.rowsBefore.toNat ∨ ShadowMap.rowLimit ≤ c.rowsAfter.toNat := by
  rw [RowsNumbered, not_and_or, Nat.not_lt, Nat.not_lt]
  rfl

namespace Context

variable {A : Type} {c : Context} {x : Access} {last : Address} {m : Machine A}

/-- The access ends at `last`, and a check of it looks at the shadow map: the context is initialized, the access is not
empty and does not wrap around, and it lies in no trusted window. -/
structure Validates (c : Context) (x : Access) (last : Address) : Prop where
  size_pos : 1 ≤ x.size.toNat
  last_eq : last.toNat = x.addr.toNat + (x.size.toNat - 1)
  untrusted : ∃ b, c.boundaries = .filled b ∧ ¬(b.shadowStart ≤ x.addr ∧ last < b.shadowEnd) ∧
    ¬(b.lowEnd ≤ x.addr ∧ last < b.highStart) ∧ last < b.highEnd

theorem validates_iff :
    c.Validates x last ↔
      x.last? = some last ∧ ∃ b, c.boundaries.get? = some b ∧ ¬b.Trusted x.addr last := by
  have hget (b : Boundaries) : c.boundaries.get? = some b ↔ c.boundaries = .filled b := by
    cases c.boundaries <;> simp [Latch.get?]
  simp only [Access.last?_eq_some_iff, hget, Boundaries.Trusted, not_or, UInt64.not_le]
  exact ⟨fun h => ⟨⟨h.size_pos, h.last_eq⟩, h.untrusted⟩, fun h => ⟨h.1.1, h.1.2, h.2⟩⟩

theorem violation?_eq_some_iff {memory : Memory} {v : Violation} :
    c.violation? memory x = some v ↔
      ∃ last, c.Validates x last ∧ ∃ a, c.shadow.FirstForbidden memory x.addr last a ∧
        v = c.shadow.violationAt memory x a := by
  simp only [validates_iff, violation?, Option.bind_eq_bind, Option.bind_eq_some_iff]
  constructor
  · rintro ⟨b, hb, last, hlast, hv⟩
    split_ifs at hv with htrusted
    obtain ⟨last', hlast', a, ha, rfl⟩ := ShadowMap.violation?_eq_some_iff.mp hv
    exact ⟨last', ⟨hlast', b, hb, by rwa [← Option.some.inj (hlast.symm.trans hlast')]⟩, a, ha, rfl⟩
  · rintro ⟨last, ⟨hlast, b, hb, htrusted⟩, a, ha, rfl⟩
    refine ⟨b, hb, last, hlast, ?_⟩
    rw [if_neg htrusted]
    exact ShadowMap.violation?_eq_some_iff.mpr ⟨last, hlast, a, ha, rfl⟩

/-- A check ends with the violation that it finds, unless the report of it has too many rows; finding none, it passes. All
that it leaves is the report. -/
theorem run_check_report (c : Context) (x : Access) (m : Machine A) :
    (c.check x).run m =
      match c.violation? m.memory x with
      | none => (.done (), m)
      | some v =>
        (if c.config.RowsNumbered then .failed v else .trapped .mulOverflow,
          ((c.report v : Action A Violation Unit).run m).2) := by
  simp only [check, Action.run_bind, Action.run_memory]
  cases c.violation? m.memory x with
  | none => rfl
  | some v =>
    simp only [report, Action.run_bind, ShadowMap.run_report, ← Config.not_rowsNumbered_iff]
    by_cases h : c.config.RowsNumbered
    · simp only [h, not_true_eq_false, if_false, if_true, Action.run_fail]
    · simp only [h, not_false_eq_true, if_false, if_true]

theorem run_check (c : Context) (x : Access) (m : Machine A) :
    ((c.check x).run m).1 =
      match c.violation? m.memory x with
      | none => .done ()
      | some v => if c.config.RowsNumbered then .failed v else .trapped .mulOverflow := by
  rw [run_check_report]
  cases c.violation? m.memory x <;> rfl

theorem check_eq_done_iff : ((c.check x).run m).1 = .done () ↔ c.violation? m.memory x = none := by
  rw [run_check]
  cases c.violation? m.memory x with
  | none => simp
  | some v =>
    simp only [reduceCtorEq, iff_false]
    split <;> exact nofun

theorem check_failed_of_firstForbidden {a : Address} (hrows : c.config.RowsNumbered) (hval : c.Validates x last)
    (h : c.shadow.FirstForbidden m.memory x.addr last a) :
    ((c.check x).run m).1 = .failed (c.shadow.violationAt m.memory x a) := by
  rw [run_check, violation?_eq_some_iff.mpr ⟨last, hval, a, h, rfl⟩]
  exact if_pos hrows

/-- An access that starts at a tracked byte that is not permitted is rejected there. -/
theorem check_failed_at_start (hrows : c.config.RowsNumbered) (hval : c.Validates x last)
    (htracked : c.shadow.Tracks x.addr) (hnot : ¬Permits (c.shadow.byteAt m.memory x.addr) x.addr) :
    ((c.check x).run m).1 = .failed (c.shadow.violationAt m.memory x x.addr) := by
  have hlast := hval.last_eq
  refine check_failed_of_firstForbidden hrows hval ⟨⟨le_rfl, by omega, fun b h1 h2 => ?_, hnot⟩, fun b hb => hb.addr_le⟩
  obtain rfl : b = x.addr := UInt64.toNat_inj.mp (Nat.le_antisymm h2 h1)
  exact htracked

/-- An access passes whose tracked bytes are all permitted. -/
theorem check_done_of_permits (h : ∀ a : Address, x.addr.toNat ≤ a.toNat → a.toNat < x.addr.toNat + x.size.toNat →
    c.shadow.Tracks a → Permits (c.shadow.byteAt m.memory a) a) : ((c.check x).run m).1 = .done () := by
  rw [check_eq_done_iff]
  cases hv : c.violation? m.memory x with
  | none => rfl
  | some v =>
    obtain ⟨last, hval, a, ha, -⟩ := violation?_eq_some_iff.mp hv
    have hsize := hval.size_pos
    have hlast := hval.last_eq
    have hle := ha.addr_le
    have hle' := ha.le_last
    exact absurd (h a hle (by omega) (ha.tracked a hle le_rfl)) ha.not_permitted

/-- **The checks are exact, byte by byte.** A check fails exactly if it looks at the shadow map and the access has a byte
that its shadow byte does not permit, all bytes of the access up to that one being tracked. The violation is that of the
lowest such byte: it carries the access, the shadow address and the shadow byte of that byte, the kind that this shadow
byte and the next one tell, and its shadow address is that of the granule of the byte. Otherwise the check passes. -/
theorem check_failed_iff_forbidden (c : Context) (hbefore : c.config.rowsBefore.toNat < 2 ^ 60)
    (hafter : c.config.rowsAfter.toNat < 2 ^ 60) (x : Access) (m : Machine A) :
    ((∃ v, ((c.check x).run m).1 = .failed v) ↔
      ∃ last, c.Validates x last ∧ ∃ a, c.shadow.Forbids m.memory x.addr last a) ∧
    (∀ last a, c.Validates x last → c.shadow.FirstForbidden m.memory x.addr last a →
      ((c.check x).run m).1 = .failed
        { access := x, shadowAddr := c.shadow.toShadow a, shadowValue := c.shadow.byteAt m.memory a,
          kind := ViolationKind.ofShadow (c.shadow.byteAt m.memory a)
            (c.shadow.load? m.memory (c.shadow.toShadow a + 1)) } ∧
      (c.shadow.toReal (c.shadow.toShadow a)).toNat = a.toNat / 8 * 8) ∧
    ((¬∃ last, c.Validates x last ∧ ∃ a, c.shadow.Forbids m.memory x.addr last a) → ((c.check x).run m).1 = .done ()) := by
  have hfirst (last a : Address) (hval : c.Validates x last) (ha : c.shadow.FirstForbidden m.memory x.addr last a) :
      ((c.check x).run m).1 = .failed (c.shadow.violationAt m.memory x a) :=
    check_failed_of_firstForbidden ⟨hbefore, hafter⟩ hval ha
  have hnone (h : ¬∃ last, c.Validates x last ∧ ∃ a, c.shadow.Forbids m.memory x.addr last a) :
      ((c.check x).run m).1 = .done () := by
    rw [run_check]
    cases hv : c.violation? m.memory x with
    | none => rfl
    | some v =>
      obtain ⟨last, hval, a, ha, -⟩ := violation?_eq_some_iff.mp hv
      exact absurd ⟨last, hval, a, ha.toForbids⟩ h
  refine ⟨⟨?_, ?_⟩, fun last a hval ha => ⟨hfirst last a hval ha, ?_⟩, hnone⟩
  · rintro ⟨v, hv⟩
    by_contra h
    rw [hnone h] at hv
    cases hv
  · rintro ⟨last, hval, a, ha⟩
    obtain ⟨f, hf⟩ := ha.exists_first
    exact ⟨_, hfirst last f hval hf⟩
  · rw [ShadowMap.toReal, ShadowMap.toShadow, Translation.toReal_toShadow, toNat_alignDown_eq]

/-- a context over the first 2048 bytes of memory, none of them trusted -/
def lowContext : Context where
  shadow := { space := .detached, base := 0x1000, len := 0x100, translation := ⟨0x1000⟩ }
  config := {}
  boundaries := .filled { shadowStart := 0x1000, shadowEnd := 0x1100, lowEnd := 0x800, highStart := 0x800,
                          highEnd := 0x2000 }

/-- a context over the first 2048 bytes of memory, whose reports have 2^60 rows before the faulting one -/
def longReports : Context where
  shadow := { space := .detached, base := 0x1000, len := 0x100, translation := ⟨0x1000⟩ }
  config := { rowsBefore := 0x1000000000000000 }
  boundaries := .filled { shadowStart := 0x1000, shadowEnd := 0x1100, lowEnd := 0x800, highStart := 0x800,
                          highEnd := 0x2000 }

theorem lowContext_covers (lo : Nat) {hi : Nat} (h : hi ≤ 0x800) : lowContext.shadow.Covers lo hi := by
  refine ShadowMap.covers_of_le (show 0x1000 + 0x100 ≤ 2 ^ 64 by omega) (show 0x1000 ≤ lo / 8 + 0x1000 by omega) ?_
  show (hi + 7) / 8 + 0x1000 ≤ 0x1000 + 0x100
  omega

theorem lowContext_validates {access : Access} {last : Address} (hsize : 1 ≤ access.size.toNat)
    (hlast : last.toNat = access.addr.toNat + (access.size.toNat - 1)) (hlow : last.toNat < 0x800) :
    lowContext.Validates access last := by
  refine ⟨hsize, hlast, _, rfl, ?_, ?_, UInt64.lt_iff_toNat_lt.mpr (show last.toNat < 0x2000 by omega)⟩
  · rintro ⟨hlo, -⟩
    have hlo : 0x1000 ≤ access.addr.toNat := UInt64.le_iff_toNat_le.mp hlo
    omega
  · rintro ⟨hlo, -⟩
    have hlo : 0x800 ≤ access.addr.toNat := UInt64.le_iff_toNat_le.mp hlo
    omega

/-- memory in which a variable of ten bytes at 0x38 is followed by a heap redzone -/
def tenBytes : Memory := (({} : Memory).write .detached 0x1008 2).write .detached 0x1009 0xfb

/-- A read of eight bytes that starts in a whole granule and runs over the end of the variable is stopped at the third
byte of the partial granule, and the redzone behind that granule tells the kind. -/
theorem check_failed_at_end_of_tenBytes :
    lowContext.config.rowsBefore.toNat < 2 ^ 60 ∧ lowContext.config.rowsAfter.toNat < 2 ^ 60 ∧
    lowContext.Validates (.load 0x3c 8 0) 0x43 ∧
    lowContext.shadow.FirstForbidden tenBytes 0x3c 0x43 0x42 ∧
    ((lowContext.check (.load 0x3c 8 0)).run (⟨tenBytes, #[], ()⟩ : Machine Unit)).1 =
      .failed { access := .load 0x3c 8 0, shadowAddr := 0x1008, shadowValue := 2, kind := .heapBufferOverflow } := by
  have hval : lowContext.Validates (.load 0x3c 8 0) 0x43 := lowContext_validates (by decide) (by decide) (by decide)
  have hfirst : lowContext.shadow.FirstForbidden tenBytes 0x3c 0x43 0x42 := by
    refine ⟨⟨by decide, by decide, fun b h1 h2 => ?_, by decide⟩, fun b hb => ?_⟩
    · exact lowContext_covers 0 le_rfl b (Nat.zero_le _) (lt_of_le_of_lt h2 (by decide))
    · by_contra hlt
      have h1 : 60 ≤ b.toNat := hb.addr_le
      have h2 : b.toNat < 66 := not_le.mp hlt
      apply hb.not_permitted
      rcases Nat.lt_or_ge b.toNat 64 with h | h
      · rw [ShadowMap.byteAt_congr (b := 0x38) (show b.toNat / 8 = 7 by omega)]
        exact Or.inl rfl
      · have hbyte : (lowContext.shadow.byteAt tenBytes 0x40).toNat = 2 := by decide
        rw [ShadowMap.byteAt_congr (b := 0x40) (show b.toNat / 8 = 8 by omega), Permits]
        omega
  exact ⟨by decide, by decide, hval, hfirst,
    ((check_failed_iff_forbidden lowContext (by decide) (by decide) _ ⟨tenBytes, #[], ()⟩).2.1 _ _ hval hfirst).1⟩

end Context

end AddressSanitizer
