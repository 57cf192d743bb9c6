/-
How numbers and the rows of a report read. A row is written cell by cell; a bracket takes the place of the blank in front of
the next cell, so that every cell has three columns, whichever one is marked.

- `Hex.toList_upper`, `Hex.byte_upperDigit`: numbers and bytes in upper case are the digits of their value, to base sixteen.
- `cellsText_eq`: the text of a row, by columns.
- `ShowsCells`: what the characters of a row come to; `showsCells_cellsText`: that of any sixteen cells.
-/
import Mathlib.Tactic
import AddressSanitizer.Report.Row

namespace AddressSanitizer

/-! ## Hexadecimal numbers -/

namespace Hex

theorem upperDigit_eq : ∀ n < 16, upperDigit n = (Nat.digitChar n).toUpper := by
  decide

/-- A single digit is dropped if it is a zero. -/
theorem dropWhile_upperDigit :
    ∀ n < 16, [upperDigit n].dropWhile (· = '0') = if n = 0 then [] else [(Nat.digitChar n).toUpper] := by
  decide

/-- The digits before the last one, and the last one. -/
theorem map_toDigits {n : Nat} (h : 16 ≤ n) :
    (Nat.toDigits 16 n).map Char.toUpper = (Nat.toDigits 16 (n / 16)).map Char.toUpper ++ [upperDigit (n % 16)] := by
  rw [Nat.toDigits_of_base_le (by decide) h, List.map_append, List.map_singleton, upperDigit_eq _ (Nat.mod_lt n (by decide))]

/-- The digits of a number that fits the width, without its leading zeros. -/
theorem dropWhile_padded {width n : Nat} (h : n < 16 ^ width) :
    (padded upperDigit width n).dropWhile (· = '0') =
      if n = 0 then [] else (Nat.toDigits 16 n).map Char.toUpper := by
  induction width generalizing n with
  | zero =>
    have hn : n = 0 := by simpa using h
    simp [padded, hn]
  | succ width ih =>
    have hhigh : n / 16 < 16 ^ width := by
      rw [pow_succ] at h
      omega
    rw [padded, List.dropWhile_append, ih hhigh]
    rcases Nat.lt_or_ge n 16 with hsmall | hlarge
    · -- the digits before the last one are zeros
      have hzero : n / 16 = 0 := Nat.div_eq_of_lt hsmall
      simp only [hzero, if_true, List.isEmpty_nil, Nat.mod_eq_of_lt hsmall, dropWhile_upperDigit n hsmall,
        Nat.toDigits_of_lt_base hsmall, List.map_singleton]
    · have hne : n / 16 ≠ 0 := by omega
      have hne' : n ≠ 0 := by omega
      simp [hne, hne', map_toDigits hlarge]

theorem digits_upperDigit (a : UInt64) : digits upperDigit a = (Nat.toDigits 16 a.toNat).map Char.toUpper := by
  have hpadded : (padded upperDigit 16 a.toNat).dropWhile (· = '0') = _ := dropWhile_padded a.toNat_lt
  rw [digits, hpadded]
  by_cases ha : a.toNat = 0
  · rw [if_pos ha, ha]
    rfl
  · rw [if_neg ha]
    split
    · rename_i hnil
      simp at hnil
    · rfl

theorem toList_upper (a : UInt64) : (upper a).toList = '0' :: 'x' :: (Nat.toDigits 16 a.toNat).map Char.toUpper := by
  rw [upper, digits_upperDigit]
  simp

theorem exists_of_mem_padded {digit : Nat → Char} {width n : Nat} {c : Char} (h : c ∈ padded digit width n) :
    ∃ k < 16, c = digit k := by
  induction width generalizing n with
  | zero => simp [padded] at h
  | succ width ih =>
    rcases List.mem_append.mp h with h | h
    · exact ih h
    · exact ⟨n % 16, Nat.mod_lt n (by decide), List.mem_singleton.mp h⟩

theorem exists_of_mem_digits {a : UInt64} {c : Char} (h : c ∈ digits upperDigit a) : ∃ k < 16, c = upperDigit k := by
  unfold digits at h
  split at h
  · exact ⟨0, by decide, List.mem_singleton.mp h⟩
  · exact exists_of_mem_padded ((List.dropWhile_sublist _).subset h)

theorem byte_upperDigit (v : UInt8) :
    byte upperDigit v = [(Nat.digitChar (v.toNat / 16)).toUpper, (Nat.digitChar (v.toNat % 16)).toUpper] := by
  have hv := v.toNat_lt
  have hhigh : v.toNat / 16 % 16 = v.toNat / 16 := Nat.mod_eq_of_lt (by omega)
  rw [← upperDigit_eq _ (by omega), ← upperDigit_eq _ (by omega)]
  simp [byte, padded, hhigh]

/-- Digits are no marks. -/
theorem digit_ne : ∀ n < 16, (Nat.digitChar n).toUpper ∉ ['-', ' ', '[', ']', ':'] := by
  decide

end Hex

namespace ShadowRow

variable {fault : Option Nat} {cells : List (Option UInt8)} {i k : Nat}

/-! ## Columns -/

/-- what stands in front of the digits of the `i`-th cell -/
def separator (fault : Option Nat) (i : Nat) : Char :=
  if fault = some i then '[' else if fault.map (· + 1) = some i then ']' else ' '

/-- three columns for each cell from the `i`-th on: what separates it from the one before, and its two characters -/
def columns (fault : Option Nat) (i : Nat) : List (Option UInt8) → List Char
  | [] => []
  | c :: cs => separator fault i :: cellText c ++ columns fault (i + 1) cs

/-- the bracket that is closed in front of the `i`-th cell, if one is -/
def closing (fault : Option Nat) (i : Nat) : List Char := if fault.map (· + 1) = some i then [']'] else []

/-- The bracket behind the faulting cell is the separator of the next one; behind the last cell it stands by itself. -/
theorem closing_append_cellsText (fault : Option Nat) (i : Nat) (cells : List (Option UInt8)) :
    closing fault i ++ cellsText fault i cells = columns fault i cells ++ closing fault (i + cells.length) := by
  induction cells generalizing i with
  | nil => simp [cellsText, columns]
  | cons c cs ih =>
    have hcell : closing fault i ++ cellsText fault i (c :: cs) =
        separator fault i :: cellText c ++ (closing fault (i + 1) ++ cellsText fault (i + 1) cs) := by
      by_cases hfault : fault = some i
      · subst hfault
        simp [cellsText, closing, separator]
      · have hnext : fault.map (· + 1) ≠ some (i + 1) := by
          cases fault <;> simp_all
        by_cases hbehind : fault.map (· + 1) = some i
        · simp [cellsText, closing, separator, hfault, hbehind]
        · simp [cellsText, closing, separator, hfault, hbehind, hnext]
    calc closing fault i ++ cellsText fault i (c :: cs)
      _ = separator fault i :: cellText c ++ (closing fault (i + 1) ++ cellsText fault (i + 1) cs) := hcell
      _ = separator fault i :: cellText c ++ (columns fault (i + 1) cs ++ closing fault (i + 1 + cs.length)) := by rw [ih]
      _ = columns fault i (c :: cs) ++ closing fault (i + (c :: cs).length) := by
        rw [List.length_cons, Nat.add_right_comm i 1, Nat.add_assoc, columns, List.append_assoc]

theorem cellsText_eq (fault : Option Nat) (cells : List (Option UInt8)) :
    cellsText fault 0 cells = columns fault 0 cells ++ closing fault cells.length := by
  have hfirst : closing fault 0 = [] := by cases fault <;> simp [closing]
  have h := closing_append_cellsText fault 0 cells
  rwa [hfirst, List.nil_append, Nat.zero_add] at h

theorem length_cellText (c : Option UInt8) : (cellText c).length = 2 := by
  cases c with
  | none => rfl
  | some v => exact Hex.length_padded ..

theorem length_columns (fault : Option Nat) (i : Nat) (cells : List (Option UInt8)) :
    (columns fault i cells).length = 3 * cells.length := by
  induction cells generalizing i with
  | nil => rfl
  | cons c cs ih =>
    simp only [columns, List.cons_append, List.length_cons, List.length_append, length_cellText, ih]
    omega

/-- The three columns of a cell. -/
theorem getElem?_columns (fault : Option Nat) (i : Nat) {c : Option UInt8} (h : cells[k]? = some c) :
    (columns fault i cells)[3 * k]? = some (separator fault (i + k)) ∧
      (columns fault i cells)[3 * k + 1]? = (cellText c)[0]? ∧ (columns fault i cells)[3 * k + 2]? = (cellText c)[1]? := by
  induction cells generalizing i k with
  | nil => simp at h
  | cons c' cs ih =>
    obtain ⟨x, y, htext⟩ : ∃ x y, cellText c' = [x, y] := List.length_eq_two.mp (length_cellText c')
    cases k with
    | zero =>
      obtain rfl : c' = c := by simpa using h
      simp [columns, htext]
    | succ k =>
      obtain ⟨h0, h1, h2⟩ := ih (i + 1) (by simpa using h)
      have hskip (j : Nat) : (columns fault i (c' :: cs))[3 * (k + 1) + j]? = (columns fault (i + 1) cs)[3 * k + j]? := by
        rw [show 3 * (k + 1) + j = 3 * k + j + 1 + 1 + 1 by omega]
        simp [columns, htext]
      refine ⟨(hskip 0).trans (h0.trans ?_), (hskip 1).trans h1, (hskip 2).trans h2⟩
      rw [Nat.add_assoc i 1 k, Nat.add_comm 1 k]

/-- The two characters of a cell are no marks of a row. -/
theorem mem_cellText {c : Option UInt8} {x : Char} (h : x ∈ cellText c) : x ≠ ' ' ∧ x ≠ '[' ∧ x ≠ ']' := by
  cases c with
  | none =>
    obtain rfl : x = '-' := by simpa [cellText] using h
    decide
  | some v =>
    have hv := v.toNat_lt
    rw [cellText, Hex.byte_upperDigit] at h
    obtain ⟨n, hn, rfl⟩ : ∃ n < 16, x = (Nat.digitChar n).toUpper := by
      simp only [List.mem_cons, List.not_mem_nil, or_false] at h
      rcases h with rfl | rfl
      · exact ⟨_, by omega, rfl⟩
      · exact ⟨_, by omega, rfl⟩
    have hne := Hex.digit_ne n hn
    simp only [List.mem_cons, not_or] at hne
    exact ⟨hne.2.1, hne.2.2.1, hne.2.2.2.1⟩

theorem separator_eq_open_iff : separator fault i = '[' ↔ fault = some i := by
  unfold separator
  split_ifs <;> simp_all

theorem separator_eq_close_iff : separator fault i = ']' ↔ ∃ j, fault = some j ∧ i = j + 1 := by
  unfold separator
  cases fault with
  | none => simp
  | some j =>
    simp only [Option.some.injEq, Option.map_some, exists_eq_left']
    split_ifs with h1 h2
    · exact iff_of_false (by decide) (by omega)
    · exact iff_of_true rfl h2.symm
    · exact iff_of_false (by decide) fun h => h2 h.symm

/-- What the characters of a row behind its colon are, if it has sixteen cells, `bytes i` in the `i`-th one. -/
structure ShowsCells (bytes : Nat → Option UInt8) (fault : Option Nat) (text : List Char) : Prop where
  digits : ∀ i < 16, ∀ v, bytes i = some v →
    text[3 * i + 1]? = some (Nat.digitChar (v.toNat / 16)).toUpper ∧
      text[3 * i + 2]? = some (Nat.digitChar (v.toNat % 16)).toUpper
  dashes : ∀ i < 16, bytes i = none ↔ text[3 * i + 1]? = some '-' ∧ text[3 * i + 2]? = some '-'
  blanks : ∀ i < 16, (∀ j, fault = some j → i ≠ j ∧ i ≠ j + 1) → text[3 * i]? = some ' '
  opens : ∀ k, text[k]? = some '[' ↔ ∃ i, fault = some i ∧ k = 3 * i
  closes : ∀ k, text[k]? = some ']' ↔ ∃ i, fault = some i ∧ k = 3 * i + 3

/-- Every character behind the colon separates two cells, stands for a byte, or closes the bracket of the last cell. -/
theorem cellsText_cases (fault : Option Nat) (hlen : cells.length = 16) (k : Nat) :
    (∃ i < 16, k = 3 * i ∧ (cellsText fault 0 cells)[k]? = some (separator fault i)) ∨
    (k % 3 ≠ 0 ∧ ∃ c x, x ∈ cellText c ∧ (cellsText fault 0 cells)[k]? = some x) ∨
    (48 ≤ k ∧ (cellsText fault 0 cells)[k]? = if fault = some 15 ∧ k = 48 then some ']' else none) := by
  have hcolumns : (columns fault 0 cells).length = 48 := by rw [length_columns, hlen]
  rw [cellsText_eq, hlen]
  rcases Nat.lt_or_ge k 48 with hk | hk
  · rw [List.getElem?_append_left (by omega)]
    have hcell : cells[k / 3]? = some cells[k / 3] := List.getElem?_eq_getElem (by omega)
    obtain ⟨h0, h1, h2⟩ := getElem?_columns fault 0 hcell
    obtain ⟨x, y, htext⟩ := List.length_eq_two.mp (length_cellText cells[k / 3])
    rw [htext] at h1 h2
    obtain hk' | hk' | hk' : k = 3 * (k / 3) ∨ k = 3 * (k / 3) + 1 ∨ k = 3 * (k / 3) + 2 := by omega
    · left
      refine ⟨k / 3, by omega, hk', ?_⟩
      rw [Nat.zero_add] at h0
      rwa [← hk'] at h0
    · right; left
      refine ⟨by omega, cells[k / 3], x, by simp [htext], ?_⟩
      rwa [← hk'] at h1
    · right; left
      refine ⟨by omega, cells[k / 3], y, by simp [htext], ?_⟩
      rwa [← hk'] at h2
  · right; right
    refine ⟨hk, ?_⟩
    rw [List.getElem?_append_right (by omega), hcolumns]
    by_cases hlast : fault = some 15
    · subst hlast
      by_cases hk' : k = 48
      · simp [closing, hk']
      · have hpast : ([']'] : List Char).length ≤ k - 48 := by
          rw [List.length_singleton]
          omega
        simp [closing, hk', List.getElem?_eq_none hpast]
    · have hnone : fault.map (· + 1) ≠ some 16 := by
        cases fault <;> simp_all
      simp [closing, hlast, hnone]

theorem showsCells_cellsText {bytes : Nat → Option UInt8} (hlen : cells.length = 16) (hcells : ∀ i < 16, cells[i]? = some (bytes i))
    (hfault : ∀ i, fault = some i → i < 16) : ShowsCells bytes fault (cellsText fault 0 cells) := by
  have hcolumn {k : Nat} (hk : k < 48) : (cellsText fault 0 cells)[k]? = (columns fault 0 cells)[k]? := by
    rw [cellsText_eq, List.getElem?_append_left]
    rw [length_columns]
    omega
  constructor
  case digits =>
    intro i hi v hv
    obtain ⟨-, h1, h2⟩ := getElem?_columns fault 0 (hcells i hi)
    rw [hcolumn (by omega), hcolumn (by omega), h1, h2, hv, cellText, Hex.byte_upperDigit]
    exact ⟨rfl, rfl⟩
  case dashes =>
    intro i hi
    obtain ⟨-, h1, h2⟩ := getElem?_columns fault 0 (hcells i hi)
    rw [hcolumn (by omega), hcolumn (by omega), h1, h2]
    cases hbyte : bytes i with
    | none => simp [cellText]
    | some v =>
      have hv := v.toNat_lt
      have hne := Hex.digit_ne (v.toNat / 16) (by omega)
      simp only [List.mem_cons, not_or] at hne
      simp [cellText, Hex.byte_upperDigit, hne.1]
  case blanks =>
    intro i hi hnot
    obtain ⟨h0, -⟩ := getElem?_columns fault 0 (hcells i hi)
    rw [hcolumn (by omega), h0, Nat.zero_add, separator, if_neg, if_neg]
    · intro h
      obtain ⟨j, hj, hji⟩ := Option.map_eq_some_iff.mp h
      exact (hnot j hj).2 hji.symm
    · intro h
      exact (hnot i h).1 rfl
  case opens =>
    intro k
    rcases cellsText_cases fault hlen k with ⟨i, hi, rfl, htext⟩ | ⟨hk, c, x, hx, htext⟩ | ⟨hk, htext⟩
    · rw [htext, Option.some.injEq, separator_eq_open_iff]
      constructor
      · intro h
        exact ⟨i, h, rfl⟩
      · rintro ⟨j, hj, hij⟩
        rw [hj]
        congr
        omega
    · rw [htext, Option.some.injEq]
      refine iff_of_false (mem_cellText hx).2.1 ?_
      rintro ⟨j, -, rfl⟩
      omega
    · rw [htext]
      refine iff_of_false ?_ ?_
      · split_ifs <;> simp
      · rintro ⟨j, hj, rfl⟩
        have := hfault j hj
        omega
  case closes =>
    intro k
    rcases cellsText_cases fault hlen k with ⟨i, hi, rfl, htext⟩ | ⟨hk, c, x, hx, htext⟩ | ⟨hk, htext⟩
    · rw [htext, Option.some.injEq, separator_eq_close_iff]
      constructor
      · rintro ⟨j, hj, rfl⟩
        exact ⟨j, hj, by omega⟩
      · rintro ⟨j, hj, hij⟩
        exact ⟨j, hj, by omega⟩
    · rw [htext, Option.some.injEq]
      refine iff_of_false (mem_cellText hx).2.2 ?_
      rintro ⟨j, -, rfl⟩
      omega
    · rw [htext]
      constructor
      · intro h
        split_ifs at h with hlast
        exact ⟨15, hlast.1, hlast.2⟩
      · rintro ⟨j, hj, rfl⟩
        have hj' := hfault j hj
        obtain rfl : j = 15 := by omega
        rw [if_pos ⟨hj, rfl⟩]

end ShadowRow

end AddressSanitizer
