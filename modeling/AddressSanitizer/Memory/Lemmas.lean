/-
What a memory holds after a write. Every write changes the bytes it names and no others, in its own space and in the
other one; a word that is written reads back.

- `read_write`, `read_fill`: the byte at any address after a write or a fill.
- `read_writeNumber_of_le`, `read_writeWord_of_le`: numbers and words leave the bytes outside their range alone.
- `readWord_writeWord`: a word reads back at its own address.
- `readWord_congr`: a word depends on its eight bytes only.

Whether `b` lies in the `n` bytes from `a` on is said as `(b - a).toNat < n`, which is right also for a range that
wraps around.
-/
import Mathlib.Tactic
import AddressSanitizer.Memory

namespace AddressSanitizer.Memory

variable (m : Memory) (space space' : Space) (a b : Address) (v : UInt8)

theorem read_write :
    (m.write space a v).read space' b = if space = space' ∧ a = b then v else m.read space' b := by
  cases space <;> cases space' <;> simp [write, read, Bytes.read_write]

@[simp] theorem read_write_self : (m.write space a v).read space a = v := by
  simp [read_write]

/-! ## Distances between addresses -/

/-- the distance from the next address is one less, except at the address itself -/
theorem toNat_sub_succ {a b : Address} (h : a ≠ b) : (b - (a + 1)).toNat + 1 = (b - a).toNat := by
  have hab : a.toNat ≠ b.toNat := fun e => h (UInt64.toNat_inj.mp e)
  have ha := a.toNat_lt
  have hb := b.toNat_lt
  rw [UInt64.toNat_sub, UInt64.toNat_sub, UInt64.toNat_add]
  simp only [UInt64.reduceToNat]
  omega

/-! ## Fills -/

theorem read_fill {n : Nat} (h : n ≤ 2 ^ 64) :
    (m.fill space a n v).read space' b =
      if space = space' ∧ (b - a).toNat < n then v else m.read space' b := by
  induction n generalizing m a with
  | zero => simp [fill]
  | succ n ih =>
    rw [fill, ih _ _ (by omega), read_write]
    by_cases hs : space = space'
    · by_cases hab : a = b
      · subst hab
        simp [hs]
      · have hd := toNat_sub_succ hab
        simp only [hs, hab, and_false, if_false, true_and]
        by_cases hn : (b - (a + 1)).toNat < n
        · rw [if_pos hn, if_pos (by omega)]
        · rw [if_neg hn, if_neg (by omega)]
    · simp [hs]

/-! ## Numbers and words -/

theorem read_writeNumber_of_le {n : Nat} {w : UInt64} (h : space ≠ .program ∨ n ≤ (b - a).toNat) :
    (m.writeNumber a n w).read space b = m.read space b := by
  induction n generalizing m a w with
  | zero => rfl
  | succ n ih =>
    rw [writeNumber]
    by_cases hs : space = .program
    · have hn : n + 1 ≤ (b - a).toNat := h.resolve_left (fun h => h hs)
      have hab : a ≠ b := by
        rintro rfl
        simp at hn
      have hd := toNat_sub_succ hab
      rw [ih _ _ (Or.inr (by omega)), read_write, if_neg (fun h => hab h.2)]
    · rw [ih _ _ (Or.inl hs), read_write, if_neg (fun h => hs h.1.symm)]

theorem read_writeWord_of_le {w : UInt64} (h : space ≠ .program ∨ 8 ≤ (b - a).toNat) :
    (m.writeWord a w).read space b = m.read space b :=
  read_writeNumber_of_le m space a b h

/-- the low `n` bytes of a number read back -/
theorem readNumber_writeNumber {n : Nat} (h : n ≤ 8) (w : UInt64) :
    ((m.writeNumber a n w).readNumber a n).toNat = w.toNat % 256 ^ n := by
  induction n generalizing m a w with
  | zero => simp [readNumber, Nat.mod_one]
  | succ n ih =>
    have hself : (m.writeNumber a (n + 1) w).read .program a = w.toUInt8 := by
      rw [writeNumber, read_writeNumber_of_le _ _ _ _ (Or.inr _), read_write_self]
      rw [UInt64.toNat_sub, UInt64.toNat_add]
      have := a.toNat_lt
      simp only [UInt64.reduceToNat]
      omega
    have hrest := ih (m.write .program a w.toUInt8) (a + 1) (by omega) (w / 256)
    rw [readNumber, hself, writeNumber, UInt64.toNat_add, UInt64.toNat_mul, hrest]
    have hw := w.toNat_lt
    have hpow : 256 ^ (n + 1) ≤ 2 ^ 64 := by
      calc 256 ^ (n + 1) ≤ 256 ^ 8 := Nat.pow_le_pow_right (by decide) h
        _ = 2 ^ 64 := by decide
    have hlt : w.toNat % 256 ^ (n + 1) < 256 ^ (n + 1) := Nat.mod_lt _ (Nat.pow_pos (by decide))
    have hsplit : w.toNat % 256 ^ (n + 1) = w.toNat % 256 + 256 * (w.toNat / 256 % 256 ^ n) := by
      rw [Nat.pow_succ, Nat.mul_comm, Nat.mod_mul]
    simp only [UInt64.toNat_div, UInt64.toNat_toUInt8, UInt8.toNat_toUInt64, UInt64.reduceToNat]
    omega

theorem readWord_writeWord (w : UInt64) : (m.writeWord a w).readWord a = w := by
  have h := readNumber_writeNumber m a (n := 8) (by decide) w
  rw [Nat.mod_eq_of_lt (by have := w.toNat_lt; omega)] at h
  exact UInt64.toNat_inj.mp h

theorem readNumber_congr {m m' : Memory} {a : Address} {n : Nat}
    (h : ∀ i, i < n → m.read .program (a + i.toUInt64) = m'.read .program (a + i.toUInt64)) :
    m.readNumber a n = m'.readNumber a n := by
  induction n generalizing a with
  | zero => rfl
  | succ n ih =>
    have h0 := h 0 (by omega)
    have hrest : m.readNumber (a + 1) n = m'.readNumber (a + 1) n := by
      apply ih
      intro i hi
      have hi' := h (i + 1) (by omega)
      rwa [show a + (i + 1).toUInt64 = a + 1 + i.toUInt64 by
        rw [UInt64.add_assoc, UInt64.add_comm 1]; simp] at hi'
    simp only [readNumber, hrest]
    rw [show m.read .program a = m'.read .program a by simpa using h0]

theorem readWord_congr {m m' : Memory} {a : Address}
    (h : ∀ i, i < 8 → m.read .program (a + i.toUInt64) = m'.read .program (a + i.toUInt64)) :
    m.readWord a = m'.readWord a :=
  readNumber_congr h

end AddressSanitizer.Memory
