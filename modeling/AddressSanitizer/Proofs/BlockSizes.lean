/-
How long a block with redzones is, counted in whole numbers and not in machine words. The user length is rounded up by a
sum and a mask, and two more sums add the redzones. The checks on the three sums refuse exactly the lengths whose block is
not shorter than the address space, with redzones of any size.

- `blockSize_eq_ok_iff`, `blockSize_eq_error_iff`: the sizes of a block as numbers, and which lengths have none.
- `Valid.total_mod`, `total_mono`: a block takes whole granules, and no fewer for more user bytes.
- `Parts`: where the user's bytes of a block lie and where the redzone behind them; `exists_parts`: no address of them
  overflows if the end of the block does not.
- `block_sizes_exact`: the laws together.
-/
import Mathlib.Tactic
import AddressSanitizer.Proofs.RedzoneOperations

namespace AddressSanitizer.Redzones

variable {E : Type} {r : Redzones} {len len' : UInt64} {size : BlockSize} {header : Address}

/-! ## Which lengths have a block -/

theorem blockSize_eq_ok_iff : r.blockSize (E := E) len = .ok size ↔
    size.aligned.toNat = roundUp len.toNat ∧ size.total.toNat = r.total len := by
  rw [← blockSize?_eq_some_iff, blockSize]
  cases r.blockSize? len <;> simp

theorem exists_blockSize_iff : (∃ size, r.blockSize (E := E) len = .ok size) ↔ r.total len < 2 ^ 64 := by
  constructor
  · rintro ⟨size, hsize⟩
    rw [← (blockSize_eq_ok_iff.mp hsize).2]
    exact size.total.toNat_lt
  · intro h
    have hsize := blockSize?_eq_some_iff.mp (blockSize?_of_total_lt h)
    exact ⟨_, blockSize_eq_ok_iff.mpr hsize⟩

theorem blockSize_eq_error_iff {e : HeapError E} :
    r.blockSize len = .error e ↔ 2 ^ 64 ≤ r.total len ∧ e = .sizeOverflow len := by
  rw [← Nat.not_lt, ← exists_blockSize_iff (E := E)]
  unfold blockSize
  cases r.blockSize? len with
  | none => simp [eq_comm]
  | some size => simp

theorem Valid.total_mod (hr : r.Valid) (len : UInt64) : r.total len % 8 = 0 := by
  have hround := roundUp_mod len.toNat
  have hhead := hr.head_mod
  have htail := hr.tail_mod
  unfold total
  omega

theorem total_mono (h : len ≤ len') : r.total len ≤ r.total len' := by
  have hround := roundUp_mono (UInt64.le_iff_toNat_le.mp h)
  unfold total
  omega

/-- A shorter length has a block too, and it takes no more. -/
theorem exists_blockSize_of_le (h : len' ≤ len) (hsize : r.blockSize (E := E) len = .ok size) :
    ∃ size', r.blockSize (E := E) len' = .ok size' ∧ size'.aligned ≤ size.aligned ∧ size'.total ≤ size.total := by
  have htotals : r.total len' ≤ r.total len := total_mono h
  obtain ⟨size', hsize'⟩ := exists_blockSize_iff.mpr (htotals.trans_lt (exists_blockSize_iff.mp ⟨size, hsize⟩))
  obtain ⟨haligned, htotal⟩ := blockSize_eq_ok_iff.mp hsize
  obtain ⟨haligned', htotal'⟩ := blockSize_eq_ok_iff.mp hsize'
  refine ⟨size', hsize', ?_, ?_⟩
  · rw [UInt64.le_iff_toNat_le, haligned, haligned']
    exact roundUp_mono (UInt64.le_iff_toNat_le.mp h)
  · rw [UInt64.le_iff_toNat_le, htotal, htotal']
    exact htotals

/-! ## The redzone behind the user's bytes -/

/-- The parts of a block that starts at `header`: the user's bytes start at `user`, behind the head redzone, and are found
back from there. The tail redzone starts at `behind`, at the end of the granules that hold the user's bytes, and ends where
the block does. -/
structure Parts (r : Redzones) (len : UInt64) (size : BlockSize) (header user behind : Address) : Prop where
  user_eq : r.userOf? header = some user
  header_eq : r.headerOf? user = some header
  behind_eq : checkedAdd user size.aligned = some behind
  le_behind : user.toNat + len.toNat ≤ behind.toNat
  behind_lt : behind.toNat < user.toNat + len.toNat + 8
  stop_eq : behind.toNat + r.tail.toNat = header.toNat + size.total.toNat

theorem exists_parts (hsize : r.blockSize (E := E) len = .ok size) (hlt : header.toNat + size.total.toNat < 2 ^ 64) :
    ∃ user behind, r.Parts len size header user behind := by
  obtain ⟨haligned, htotal⟩ := blockSize_eq_ok_iff.mp hsize
  obtain ⟨user, rfl, hfits, -⟩ := exists_block (blockSize?_eq_some_iff.mpr ⟨haligned, htotal⟩) header hlt
  have haddr : (user - r.head).toNat = r.start ⟨user, len⟩ := hfits.block_addr
  have hstart : r.start ⟨user, len⟩ + r.head.toNat = user.toNat := hfits.start_add
  have hspan : r.total len = roundUp len.toNat + r.head.toNat + r.tail.toNat := rfl
  have hle := le_roundUp len.toNat
  have hnear := roundUp_lt len.toNat
  have hbehind : (user + size.aligned).toNat = user.toNat + roundUp len.toNat := by
    rw [toNat_add_of_lt (by omega), haligned]
  exact ⟨user, user + size.aligned, {
    user_eq := hfits.userOf?_header
    header_eq := hfits.headerOf?_user
    behind_eq := checkedAdd_of_lt (by omega)
    le_behind := by omega
    behind_lt := by omega
    stop_eq := by omega }⟩

/-- **A length has a block exactly if the block is shorter than the address space.** With redzones of any size a length is
accepted exactly if the least multiple of eight not below it and the two redzones come to less than 2^64; then these are the
sizes given, and otherwise the error names the length. Valid redzones make blocks of whole granules. Below an accepted
length all lengths are accepted, and none takes a longer block. Where the end of a block has an address, so have the user's
bytes and the redzone behind them, which starts less than eight bytes behind these and ends with the block. -/
theorem block_sizes_exact (E : Type) (r : Redzones) :
    (∀ len, (∃ size, r.blockSize (E := E) len = .ok size) ↔
      roundUp len.toNat + r.head.toNat + r.tail.toNat < 2 ^ 64) ∧
    (∀ len (e : HeapError E), r.blockSize len = .error e ↔
      2 ^ 64 ≤ roundUp len.toNat + r.head.toNat + r.tail.toNat ∧ e = .sizeOverflow len) ∧
    ∀ len size, r.blockSize (E := E) len = .ok size →
      IsLeast {n | n % 8 = 0 ∧ len.toNat ≤ n} size.aligned.toNat ∧
      size.total.toNat = size.aligned.toNat + r.head.toNat + r.tail.toNat ∧
      (∀ c : Config, c.validate = .ok () → r = .ofConfig c → size.total.toNat % 8 = 0) ∧
      (∀ len', len' ≤ len → ∃ size', r.blockSize (E := E) len' = .ok size' ∧
        size'.aligned ≤ size.aligned ∧ size'.total ≤ size.total) ∧
      ∀ header : Address, header.toNat + size.total.toNat < 2 ^ 64 →
        ∃ user behind, r.Parts len size header user behind := by
  refine ⟨fun len => exists_blockSize_iff, fun len e => blockSize_eq_error_iff, fun len size hsize => ?_⟩
  obtain ⟨haligned, htotal⟩ := blockSize_eq_ok_iff.mp hsize
  refine ⟨?_, ?_, ?_, ?_, ?_⟩
  · rw [haligned]
    exact isLeast_roundUp len.toNat
  · rw [htotal, haligned]
    rfl
  · rintro c hvalid rfl
    rw [htotal]
    exact (valid_of_validate hvalid).total_mod len
  · intro len' hle
    exact exists_blockSize_of_le hle hsize
  · intro header hlt
    exact exists_parts hsize hlt

/-- The default redzones: the longest block that there is, one byte more, and a block whose header is at 64 and whose end
is the last multiple of eight. -/
theorem longest_block_sizes_exact :
    ({} : Config).validate = .ok () ∧
    (∃ size, (ofConfig {}).blockSize (E := Unit) 0xffffffffffffff98 = .ok size) ∧
    (ofConfig {}).blockSize (E := Unit) 0xffffffffffffff99 = .error (.sizeOverflow 0xffffffffffffff99) ∧
    (ofConfig {}).blockSize (E := Unit) 0xffffffffffffff55 = .ok ⟨0xffffffffffffff58, 0xffffffffffffffb8⟩ ∧
    (0xffffffffffffffb8 : UInt64).toNat % 8 = 0 ∧
    (∃ size', (ofConfig {}).blockSize (E := Unit) 0xffffffffffffff50 = .ok size' ∧
      size'.aligned ≤ 0xffffffffffffff58 ∧ size'.total ≤ 0xffffffffffffffb8) ∧
    ∃ user behind,
      (ofConfig {}).Parts 0xffffffffffffff55 ⟨0xffffffffffffff58, 0xffffffffffffffb8⟩ 0x40 user behind := by
  have hvalid : ({} : Config).validate = .ok () := rfl
  have hsize : (ofConfig {}).blockSize (E := Unit) 0xffffffffffffff55 =
      .ok ⟨0xffffffffffffff58, 0xffffffffffffffb8⟩ := rfl
  obtain ⟨hok, herror, hlaws⟩ := block_sizes_exact Unit (ofConfig {})
  obtain ⟨-, -, hmod, hshorter, hparts⟩ := hlaws _ _ hsize
  exact ⟨hvalid, (hok _).mpr (by decide), (herror _ _).mpr ⟨by decide, rfl⟩, hsize, hmod {} hvalid rfl,
    hshorter _ (by decide), hparts 0x40 (by decide)⟩

end AddressSanitizer.Redzones
