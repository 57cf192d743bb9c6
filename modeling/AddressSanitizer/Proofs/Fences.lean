/-
Redzones behind accessible bytes. A range of bytes is fenced up to `stop` if its shadow bytes make it accessible, and those
of the granules behind it, up to `stop`, are a tag. Heap blocks are fenced by the redzone behind them, and globals by their
padding; what the checks make of it is the same for both.

- `permits_of_bytes`, `Fenced.not_permits`: the range is accessible, and no byte behind it is.
- `Context.check_done_of_inside`: an access inside the range passes.
- `Context.check_failed_of_overrun`: an access that runs over the end of the range is rejected there, and the tag behind the range
  tells the kind, even where the end of the range lies inside a granule.
-/
import Mathlib.Tactic
import AddressSanitizer.Proofs.Validation

namespace AddressSanitizer

/-- the bytes accessed are among the `len` bytes from `user` on -/
structure Access.Inside (access : Access) (user : Address) (len : UInt64) : Prop where
  le_addr : user.toNat ≤ access.addr.toNat
  end_le : access.addr.toNat + access.size.toNat ≤ user.toNat + len.toNat

namespace ShadowMap

variable {s : ShadowMap} {memory : Memory} {start len : UInt64} {stop : Nat} {tag : Tag} {a addr last : Address}

/-- Cleared granules and a boundary granule that counts the rest make a range accessible, as far as it is tracked. -/
theorem permits_of_bytes (hmod : start.toNat % 8 = 0)
    (hwhole : ∀ a : Address, start.toNat ≤ a.toNat → a.toNat < start.toNat + len.toNat / 8 * 8 → s.byteAt memory a = 0)
    (hboundary : ∀ a : Address, start.toNat + len.toNat / 8 * 8 ≤ a.toNat → a.toNat < start.toNat + roundUp len.toNat →
      s.Tracks a → (s.byteAt memory a).toNat = len.toNat % 8)
    (hlo : start.toNat ≤ a.toNat) (hhi : a.toNat < start.toNat + len.toNat) (htracked : s.Tracks a) :
    Permits (s.byteAt memory a) a := by
  have hround := le_roundUp len.toNat
  rcases Nat.lt_or_ge a.toNat (start.toNat + len.toNat / 8 * 8) with ha | ha
  · rw [hwhole a hlo ha]
    exact Or.inl rfl
  · have hbyte := hboundary a ha (by omega) htracked
    rw [Permits]
    omega

/-- The `len` bytes from `start` on are accessible, and the granules behind them, up to `stop`, are tagged. -/
structure Fenced (s : ShadowMap) (memory : Memory) (start len : UInt64) (stop : Nat) (tag : Tag) : Prop where
  whole : ∀ a : Address, start.toNat ≤ a.toNat → a.toNat < start.toNat + len.toNat / 8 * 8 → s.byteAt memory a = 0
  boundary : ∀ a : Address, start.toNat + len.toNat / 8 * 8 ≤ a.toNat → a.toNat < start.toNat + roundUp len.toNat →
    (s.byteAt memory a).toNat = len.toNat % 8
  behind : ∀ a : Address, start.toNat + roundUp len.toNat ≤ a.toNat → a.toNat < stop → s.byteAt memory a = tag.byte

namespace Fenced

variable (h : s.Fenced memory start len stop tag) (hmod : start.toNat % 8 = 0)
include h hmod

theorem permits (hlo : start.toNat ≤ a.toNat) (hhi : a.toNat < start.toNat + len.toNat) (htracked : s.Tracks a) :
    Permits (s.byteAt memory a) a :=
  permits_of_bytes hmod h.whole (fun a h1 h2 _ => h.boundary a h1 h2) hlo hhi htracked

/-- Behind the range no byte is permitted. -/
theorem not_permits (htag : 8 ≤ tag.byte.toNat) (hlo : start.toNat + len.toNat ≤ a.toNat) (hhi : a.toNat < stop) :
    ¬Permits (s.byteAt memory a) a := by
  have hround := le_roundUp len.toNat
  rcases Nat.lt_or_ge a.toNat (start.toNat + roundUp len.toNat) with hlt | hge
  · have hbyte := h.boundary a (by omega) hlt
    rw [roundUp] at hlt
    rw [Permits]
    omega
  · rw [h.behind a hge hhi]
    exact not_permits_of_le htag

/-- The first forbidden byte of an access that runs over the end of the range is the byte at that end. -/
theorem firstForbidden (htag : 8 ≤ tag.byte.toNat) (hcovers : s.Covers start.toNat stop)
    (hlt : start.toNat + len.toNat < stop) (hstop : stop ≤ 2 ^ 64) (hlo : start.toNat ≤ addr.toNat)
    (hhi : addr.toNat < start.toNat + len.toNat) (hover : start.toNat + len.toNat ≤ last.toNat) :
    s.FirstForbidden memory addr last (start + len) := by
  have hend : (start + len).toNat = start.toNat + len.toNat := toNat_add_of_lt (by omega)
  refine ⟨⟨by omega, by omega, fun b h1 h2 => hcovers b (by omega) (by omega),
    h.not_permits hmod htag hend.ge (by omega)⟩, fun b hb => ?_⟩
  by_contra hlower
  have hle := hb.addr_le
  exact hb.not_permitted (h.permits hmod (by omega) (by omega) (hb.tracked b hle le_rfl))

/-- The byte behind the range tells what is overrun: it is a tagged byte, or its granule holds the last bytes of the range
and a tagged one follows. -/
theorem kind_behind (htag : 8 ≤ tag.byte) (hcovers : s.Covers start.toNat stop)
    (hlt : start.toNat + roundUp len.toNat < stop) (hstop : stop ≤ 2 ^ 64) (ha : a.toNat = start.toNat + len.toNat) :
    ViolationKind.ofShadow (s.byteAt memory a) (s.load? memory (s.toShadow a + 1)) = .ofByte tag.byte := by
  have hround := le_roundUp len.toNat
  by_cases hwhole : len.toNat % 8 = 0
  · have htag := UInt8.le_iff_toNat_le.mp htag
    have hnot : ¬IsPartial tag.byte := by
      rw [isPartial_iff]
      have h8 : (8 : UInt8).toNat = 8 := rfl
      omega
    rw [h.behind a (by rw [roundUp_of_dvd hwhole]; omega) (by omega)]
    exact if_neg hnot
  · have hrest := roundUp_of_not_dvd hwhole
    have hbyte := h.boundary a (by omega) (by omega)
    obtain ⟨f, hf⟩ := exists_address (n := start.toNat + roundUp len.toNat) (by omega)
    have hnext : s.load? memory (s.toShadow a + 1) = some tag.byte := by
      have hadd : s.toShadow f = s.toShadow a + Nat.toUInt64 1 := toShadow_eq_add (by omega)
      have hone : Nat.toUInt64 1 = 1 := rfl
      rw [hone] at hadd
      rw [← hadd, load?_toShadow_eq_some_iff]
      exact ⟨hcovers f (by omega) (by omega), h.behind f (by omega) (by omega)⟩
    rw [hnext, ViolationKind.ofShadow, if_pos (isPartial_iff.mpr (by omega))]
    exact if_pos htag

end Fenced

end ShadowMap

namespace Context

variable {A : Type} {c : Context} {m : Machine A} {start len : UInt64} {stop : Nat} {tag : Tag} {access : Access}
  {last : Address}

/-- An access inside a range that is accessible passes. -/
theorem check_done_of_inside (h : ∀ a : Address, start.toNat ≤ a.toNat → a.toNat < start.toNat + len.toNat →
      c.shadow.Tracks a → Permits (c.shadow.byteAt m.memory a) a)
    (hin : access.Inside start len) : ((c.check access).run m).1 = .done () := by
  obtain ⟨hlo, hhi⟩ := hin
  exact check_done_of_permits fun a h1 h2 ht => h a (by omega) (by omega) ht

/-- An access that starts in a fenced range and runs over its end is rejected at that end; and if a tagged granule follows,
its tag tells the kind. -/
theorem check_failed_of_overrun (hrows : c.config.RowsNumbered) (h : c.shadow.Fenced m.memory start len stop tag)
    (hmod : start.toNat % 8 = 0) (htag : 8 ≤ tag.byte) (hcovers : c.shadow.Covers start.toNat stop)
    (hlt : start.toNat + len.toNat < stop) (hstop : stop ≤ 2 ^ 64) (hval : c.Validates access last)
    (hlo : start.toNat ≤ access.addr.toNat) (hhi : access.addr.toNat < start.toNat + len.toNat)
    (hover : start.toNat + len.toNat ≤ last.toNat) :
    ∃ v, ((c.check access).run m).1 = .failed v ∧ v.shadowAddr = c.shadow.toShadow (start + len) ∧
      (start.toNat + roundUp len.toNat < stop → v.kind = .ofByte tag.byte) := by
  have hfirst := h.firstForbidden hmod (UInt8.le_iff_toNat_le.mp htag) hcovers hlt hstop hlo hhi hover
  have hend : (start + len).toNat = start.toNat + len.toNat := toNat_add_of_lt (by omega)
  exact ⟨_, check_failed_of_firstForbidden hrows hval hfirst, rfl,
    fun hredzone => h.kind_behind hmod htag hcovers hredzone hstop hend⟩

end Context

end AddressSanitizer
