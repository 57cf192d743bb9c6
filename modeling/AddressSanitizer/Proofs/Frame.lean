/-
Frames: what a change to memory leaves alone. A footprint is a set of bytes, each given by its space and its address;
`SameOutside F m m'` says that `m'` differs from `m` at most at the bytes of `F`.

- `SameOutside.trans`, `SameOutside.mono`: frames compose, and may be widened.
- `sameOutside_writeWord`, `sameOutside_writeBytes`, `sameOutside_copy`: the footprints of the writes to the program's
  memory, as plain ranges of numbers.
- `SameOutside.readWord_eq`: a word that lies outside the footprint keeps its value.
- `read_copy`: a copy upwards into a range behind the source has the bytes of the source.
-/
import Mathlib.Tactic
import AddressSanitizer.Memory.Lemmas

namespace AddressSanitizer

/-! ## Sums and differences that stay in the address space -/

theorem toNat_add_of_lt {a b : UInt64} (h : a.toNat + b.toNat < 2 ^ 64) : (a + b).toNat = a.toNat + b.toNat := by
  rw [UInt64.toNat_add]
  omega

theorem toNat_sub_of_le {a b : UInt64} (h : b.toNat ≤ a.toNat) : (a - b).toNat = a.toNat - b.toNat :=
  UInt64.toNat_sub_of_le _ _ (UInt64.le_iff_toNat_le.mpr h)

theorem checkedAdd_of_lt {a b : UInt64} (h : a.toNat + b.toNat < 2 ^ 64) : checkedAdd a b = some (a + b) :=
  checkedAdd_eq_some_iff.mpr (toNat_add_of_lt h)

theorem toNat_add_toUInt64 {a : UInt64} {i : Nat} (h : a.toNat + i < 2 ^ 64) : (a + i.toUInt64).toNat = a.toNat + i := by
  have hi : i.toUInt64.toNat = i := UInt64.toNat_ofNat_of_lt' (by simp only [UInt64.size]; omega)
  rw [toNat_add_of_lt (by omega), hi]

/-! ## Footprints -/

/-- a set of bytes of the memory -/
abbrev Footprint := Set (Space × Address)

/-- the bytes of the program's memory from `lo` on and below `hi` -/
def Footprint.program (lo hi : Nat) : Footprint := {p | p.1 = .program ∧ lo ≤ p.2.toNat ∧ p.2.toNat < hi}

@[simp] theorem Footprint.mem_program {lo hi : Nat} {space : Space} {a : Address} :
    (space, a) ∈ Footprint.program lo hi ↔ space = .program ∧ lo ≤ a.toNat ∧ a.toNat < hi := Iff.rfl

theorem Footprint.program_subset {lo hi lo' hi' : Nat} (h : hi ≤ lo ∨ lo' ≤ lo ∧ hi ≤ hi') :
    Footprint.program lo hi ⊆ Footprint.program lo' hi' := by
  rintro ⟨space, a⟩ ⟨hs, h1, h2⟩
  exact ⟨hs, by omega, by omega⟩

/-- `F` has no byte of the program's memory from `lo` on and below `hi` -/
def Footprint.Avoids (F : Footprint) (lo hi : Nat) : Prop :=
  ∀ a : Address, lo ≤ a.toNat → a.toNat < hi → (Space.program, a) ∉ F

namespace Footprint

variable {F G : Footprint} {lo hi lo' hi' : Nat}

theorem avoids_program (h : hi' ≤ lo ∨ hi ≤ lo') : (program lo' hi').Avoids lo hi := by
  rintro a h1 h2 ⟨-, h3, h4⟩
  have : lo' ≤ a.toNat ∧ a.toNat < hi' := ⟨h3, h4⟩
  omega

theorem empty_avoids : Avoids ∅ lo hi := fun _ _ _ => Set.notMem_empty _

theorem Avoids.union (hF : F.Avoids lo hi) (hG : G.Avoids lo hi) : (F ∪ G).Avoids lo hi :=
  fun a h1 h2 h => h.elim (hF a h1 h2) (hG a h1 h2)

theorem Avoids.subset_compl (h : F.Avoids lo hi) : F ⊆ (program lo hi)ᶜ := by
  rintro ⟨space, a⟩ hF ⟨rfl, h1, h2⟩
  exact h a h1 h2 hF

theorem Avoids.mono (h : F.Avoids lo hi) (hlo : lo ≤ lo') (hhi : hi' ≤ hi) : F.Avoids lo' hi' :=
  fun a h1 h2 => h a (by omega) (by omega)

end Footprint

namespace Memory

/-- `m'` has the bytes of `m` outside `F` -/
def SameOutside (F : Footprint) (m m' : Memory) : Prop :=
  ∀ space a, (space, a) ∉ F → m'.read space a = m.read space a

variable {F G : Footprint} {m m' m'' : Memory}

theorem SameOutside.refl (F : Footprint) (m : Memory) : SameOutside F m m := fun _ _ _ => rfl

theorem SameOutside.trans (h : SameOutside F m m') (h' : SameOutside F m' m'') : SameOutside F m m'' :=
  fun space a ha => (h' space a ha).trans (h space a ha)

theorem SameOutside.mono (h : SameOutside F m m') (hFG : F ⊆ G) : SameOutside G m m' :=
  fun space a ha => h space a fun hF => ha (hFG hF)

theorem SameOutside.readWord_eq (h : SameOutside F m m') {a : Address} (ha : a.toNat + 8 ≤ 2 ^ 64)
    (hF : F.Avoids a.toNat (a.toNat + 8)) :
    m'.readWord a = m.readWord a := by
  apply readWord_congr
  intro i hi
  have hai : (a + i.toUInt64).toNat = a.toNat + i := toNat_add_toUInt64 (by omega)
  exact h _ _ (hF _ (by omega) (by omega))

/-! ## The footprints of writes -/

theorem sameOutside_write (a : Address) (v : UInt8) :
    SameOutside (Footprint.program a.toNat (a.toNat + 1)) m (m.write .program a v) := by
  intro space b hb
  rw [read_write, if_neg]
  rintro ⟨rfl, rfl⟩
  exact hb ⟨rfl, le_rfl, Nat.lt_succ_self _⟩

theorem sameOutside_writeWord {a : Address} (ha : a.toNat + 8 ≤ 2 ^ 64) (w : UInt64) :
    SameOutside (Footprint.program a.toNat (a.toNat + 8)) m (m.writeWord a w) := by
  intro space b hb
  apply read_writeWord_of_le
  by_cases hs : space = .program
  · right
    have hout : ¬(a.toNat ≤ b.toNat ∧ b.toNat < a.toNat + 8) := fun h => hb ⟨hs, h⟩
    have := b.toNat_lt
    rw [UInt64.toNat_sub]
    omega
  · exact Or.inl hs

/-- the next address, unless `a` is the last one -/
theorem toNat_succ {a : Address} (h : a.toNat + 1 < 2 ^ 64) : (a + 1).toNat = a.toNat + 1 :=
  toNat_add_of_lt h

theorem sameOutside_writeBytes {a : Address} {vs : List UInt8} (ha : a.toNat + vs.length < 2 ^ 64) :
    SameOutside (Footprint.program a.toNat (a.toNat + vs.length)) m (m.writeBytes a vs) := by
  induction vs generalizing m a with
  | nil => exact SameOutside.refl _ m
  | cons v vs ih =>
    simp only [List.length_cons] at ha ⊢
    have hsucc := toNat_succ (a := a) (by omega)
    have hrest := ih (m := m.write .program a v) (a := a + 1) (by omega)
    rw [hsucc] at hrest
    rw [writeBytes]
    exact ((sameOutside_write a v).mono (Footprint.program_subset (by omega))).trans
      (hrest.mono (Footprint.program_subset (by omega)))

theorem sameOutside_copy {dst src : Address} {n : Nat} (h : dst.toNat + n < 2 ^ 64) :
    SameOutside (Footprint.program dst.toNat (dst.toNat + n)) m (m.copy dst src n) := by
  induction n generalizing m dst src with
  | zero => exact SameOutside.refl _ m
  | succ n ih =>
    have hsucc := toNat_succ (a := dst) (by omega)
    have hrest : SameOutside _ (m.write .program dst (m.read .program src))
        ((m.write .program dst (m.read .program src)).copy (dst + 1) (src + 1) n) := ih (by omega)
    rw [hsucc] at hrest
    rw [copy]
    exact ((sameOutside_write dst _).mono (Footprint.program_subset (by omega))).trans
      (hrest.mono (Footprint.program_subset (by omega)))

/-- The destination lies behind the source, so no byte is overwritten before it is read. -/
theorem read_copy {dst src : Address} {n i : Nat} (hdst : dst.toNat + n < 2 ^ 64) (hsrc : src.toNat + n ≤ dst.toNat)
    (hi : i < n) : (m.copy dst src n).read .program (dst + i.toUInt64) = m.read .program (src + i.toUInt64) := by
  induction n generalizing m dst src i with
  | zero => omega
  | succ n ih =>
    have hdst1 := toNat_succ (a := dst) (by omega)
    have hsrc1 := toNat_succ (a := src) (by omega)
    rw [copy]
    cases i with
    | zero =>
      have hframe : SameOutside _ (m.write .program dst (m.read .program src))
          ((m.write .program dst (m.read .program src)).copy (dst + 1) (src + 1) n) := sameOutside_copy (by omega)
      have hzero : Nat.toUInt64 0 = 0 := rfl
      rw [hzero, UInt64.add_zero, UInt64.add_zero, hframe .program dst (by simp [hdst1]), read_write_self]
    | succ i =>
      have hshift (a : Address) : a + (i + 1).toUInt64 = a + 1 + i.toUInt64 := by
        rw [UInt64.add_assoc, UInt64.add_comm 1]
        simp
      have hlater : (src + 1 + i.toUInt64).toNat = src.toNat + 1 + i := by
        rw [toNat_add_toUInt64 (by omega), hsrc1]
      rw [hshift, hshift, ih (by omega) (by omega) (by omega), read_write, if_neg]
      rintro ⟨-, rfl⟩
      omega

end Memory

end AddressSanitizer
