/-
The shadow bytes that a report shows. The rows before the faulting one are made from the nearest to the farthest and then
turned around, those behind it are made in order; both are rows at a distance from one start, which wraps around at either
end of the address space.

- `toNat_rowStart`, `rowStart_add_fault`: where the rows start, and that the faulting one holds the shadow address.
- `rows_dump`: the rows of a dump, in order.
- `Shows`: what a line shows of the shadow map; `shows_row`: that a row does.
- `Context.run_check_eq`: how a check ends, with what it logs; `Context.EndsNormally`: it gives its answer and leaves its
  complete report.
- `Context.reports_show_shadow`: the report of a violation, read back.
-/
import Mathlib.Tactic
import AddressSanitizer.Proofs.RowText
import AddressSanitizer.Proofs.Validation

namespace AddressSanitizer

namespace ShadowMap

variable {s : ShadowMap} {memory : Memory} {shadow : Address} {before after : UInt64}

/-! ## Rows -/

/-- the address of the `j`-th row around a shadow address, if `before` rows come before the one that holds it -/
def rowStart (shadow : Address) (before j : Nat) : Address :=
  shadow - shadow % 16 + 16 * j.toUInt64 - 16 * before.toUInt64

/-- the cell of the shadow address, in the row that holds it -/
def faultCell (shadow : Address) (before j : Nat) : Option Nat := if j = before then some (shadow.toNat % 16) else none

/-- the `j`-th row around a shadow address -/
def rowAt (s : ShadowMap) (memory : Memory) (shadow : Address) (before j : Nat) : ShadowRow :=
  s.row memory (rowStart shadow before j) (faultCell shadow before j)

theorem toNat_rowStart (shadow : Address) (before j : Nat) :
    ((rowStart shadow before j).toNat : ℤ) =
      ((shadow.toNat / 16 * 16 : ℕ) + 16 * ((j : ℤ) - before)) % 2 ^ 64 := by
  have hshadow := shadow.toNat_lt
  have hmod : (shadow % 16).toNat = shadow.toNat % 16 := by simp
  have hstart : (shadow - shadow % 16).toNat = shadow.toNat / 16 * 16 := by
    rw [toNat_sub_of_le (by omega), hmod]
    omega
  have h16 : (16 : UInt64).toNat = 16 := rfl
  have hword (n : Nat) : n.toUInt64.toNat = n % 2 ^ 64 := UInt64.toNat_ofNat'
  rw [rowStart, UInt64.toNat_sub, UInt64.toNat_add, UInt64.toNat_mul, UInt64.toNat_mul, hstart, h16, hword, hword]
  omega

theorem rowStart_add_fault (shadow : Address) (before : Nat) :
    rowStart shadow before before + (shadow.toNat % 16).toUInt64 = shadow := by
  have hstart := toNat_rowStart shadow before before
  have hfault : (shadow.toNat % 16).toUInt64.toNat = shadow.toNat % 16 :=
    UInt64.toNat_ofNat_of_lt' (by simp only [UInt64.size]; omega)
  have hshadow := shadow.toNat_lt
  rw [← UInt64.toNat_inj, UInt64.toNat_add, hfault]
  omega

theorem rowStart_before {before i j : Nat} (h : i + 1 + j = before) :
    shadow - shadow % 16 - (i + 1).toUInt64 * 16 = rowStart shadow before j := by
  have hsum : before.toUInt64 = (i + 1).toUInt64 + j.toUInt64 := by
    rw [← h]
    exact UInt64.ofNat_add _ _
  rw [rowStart, hsum]
  grind

theorem rowStart_after {before i j : Nat} (h : before + 1 + i = j) :
    shadow - shadow % 16 + (i + 1).toUInt64 * 16 = rowStart shadow before j := by
  have hsum : j.toUInt64 = before.toUInt64 + (i + 1).toUInt64 := by
    rw [← h, Nat.add_assoc, Nat.add_comm 1 i]
    exact UInt64.ofNat_add _ _
  rw [rowStart, hsum]
  grind

theorem rowsBefore_eq (s : ShadowMap) (memory : Memory) (shadow : Address) (before : Nat) :
    s.rowsBefore memory (shadow - shadow % 16) before = (List.range before).map (s.rowAt memory shadow before) := by
  unfold rowsBefore
  apply List.ext_getElem
  · simp
  · intro j hj _
    have hj : j < before := by simpa using hj
    simp only [List.getElem_map, List.getElem_reverse, List.getElem_range, List.length_range]
    rw [rowAt, faultCell, if_neg (Nat.ne_of_lt hj), ← rowStart_before (show before - 1 - j + 1 + j = before by omega)]

theorem rowsAfter_eq (s : ShadowMap) (memory : Memory) (shadow : Address) (before after : Nat) :
    s.rowsAfter memory (shadow - shadow % 16) after =
      (List.range after).map fun i => s.rowAt memory shadow before (before + 1 + i) := by
  unfold rowsAfter
  apply List.map_congr_left
  intro i _
  rw [rowAt, faultCell, if_neg (by omega), rowStart_after rfl]

theorem row_fault_eq (s : ShadowMap) (memory : Memory) (shadow : Address) (before : Nat) :
    s.row memory (shadow - shadow % 16) (some (shadow % 16).toNat) = s.rowAt memory shadow before before := by
  have hmod : (shadow % 16).toNat = shadow.toNat % 16 := by simp
  have hstart : rowStart shadow before before = shadow - shadow % 16 := by
    rw [rowStart, UInt64.add_sub_cancel]
  rw [rowAt, faultCell, if_pos rfl, hstart, hmod]

/-- how many rows of a dump can be numbered: none if there are too many before the faulting one, otherwise those up to it and
as many behind it as have a number -/
def numberedRows (before after : UInt64) : Nat :=
  if rowLimit ≤ before.toNat then 0 else before.toNat + 1 + min after.toNat (rowLimit - 1)

theorem numberedRows_of_lt (hbefore : before.toNat < rowLimit) (hafter : after.toNat < rowLimit) :
    numberedRows before after = before.toNat + 1 + after.toNat := by
  rw [numberedRows, if_neg (Nat.not_le.mpr hbefore), Nat.min_eq_left (by omega)]

theorem rows_dump (s : ShadowMap) (memory : Memory) (shadow : Address) (before after : UInt64) :
    (s.dump memory shadow before after).rows =
      (List.range (numberedRows before after)).map (s.rowAt memory shadow before.toNat) := by
  have hsplit (n : Nat) :
      s.rowsBefore memory (shadow - shadow % 16) before.toNat ++
          [s.row memory (shadow - shadow % 16) (some (shadow % 16).toNat)] ++
        s.rowsAfter memory (shadow - shadow % 16) n =
      (List.range (before.toNat + 1 + n)).map (s.rowAt memory shadow before.toNat) := by
    rw [rowsBefore_eq, row_fault_eq s memory shadow before.toNat, rowsAfter_eq s memory shadow before.toNat, List.range_add,
      List.range_succ, List.map_append, List.map_append, List.map_map]
    rfl
  simp only [dump, numberedRows]
  split_ifs with hbefore hafter
  · rfl
  · rw [Nat.min_eq_right (by omega), ← hsplit]
  · rw [Nat.min_eq_left (by omega), ← hsplit]

/-! ## Lines -/

/-- A line shows the sixteen shadow bytes from `start` on: `heading` is their address, and behind a colon come the `cells`. -/
structure Shows (s : ShadowMap) (memory : Memory) (start : Address) (fault : Option Nat) (heading cells : List Char) :
    Prop where
  heading_eq : heading = '0' :: 'x' :: (Nat.toDigits 16 start.toNat).map Char.toUpper
  heading_plain : '[' ∉ heading ∧ ']' ∉ heading ∧ ':' ∉ heading
  cells : ShadowRow.ShowsCells (fun i => s.load? memory (start + i.toUInt64)) fault cells

theorem heading_plain (a : Address) {x : Char} (hx : x ∈ ['[', ']', ':']) : x ∉ (Hex.upper a).toList := by
  intro hmem
  simp only [Hex.upper, String.toList_append, String.toList_ofList, List.mem_append] at hmem
  rcases hmem with hmem | hmem
  · fin_cases hx <;> simp at hmem
  · obtain ⟨k, hk, rfl⟩ := Hex.exists_of_mem_digits hmem
    rw [Hex.upperDigit_eq k hk] at hx
    exact Hex.digit_ne k hk (List.mem_cons_of_mem _ (List.mem_cons_of_mem _ hx))

theorem shows_row (s : ShadowMap) (memory : Memory) (start : Address) {fault : Option Nat}
    (hfault : ∀ i, fault = some i → i < 16) :
    ∃ heading cells, (s.row memory start fault).text.toList = heading ++ ':' :: cells ∧
      s.Shows memory start fault heading cells := by
  refine ⟨(Hex.upper start).toList, ShadowRow.cellsText fault 0 (s.row memory start fault).cells, ?_, ?_, ?_, ?_⟩
  · simp [ShadowRow.text, row]
  · exact Hex.toList_upper start
  · exact ⟨heading_plain start (by simp), heading_plain start (by simp), heading_plain start (by simp)⟩
  · apply ShadowRow.showsCells_cellsText
    · simp [row]
    · intro i hi
      simp [row, hi]
    · exact hfault

/-! ## Reports -/

/-- the opening lines of a report, and the first `n` rows of its dump -/
def reportLines (s : ShadowMap) (memory : Memory) (v : Violation) (before n : Nat) : List ReportLine :=
  s.reportHead v ++ (List.range n).map fun j => .row (s.rowAt memory v.shadowAddr before j)

theorem texts_reportLines (s : ShadowMap) (memory : Memory) (v : Violation) (before n : Nat) :
    (s.reportLines memory v before n).map ReportLine.text =
      (s.reportHead v).map ReportLine.text ++ (List.range n).map fun j => (s.rowAt memory v.shadowAddr before j).text := by
  rw [reportLines, List.map_append, List.map_map]
  rfl

end ShadowMap

variable {A : Type}

/-- Reports are logged as errors. -/
theorem records_report (lines : List ReportLine) :
    (lines.map Event.report).map Event.record = (lines.map ReportLine.text).map (Record.mk "kasan" .error) := by
  rw [List.map_map, List.map_map]
  rfl

/-- the machine once the lines of a report have been logged -/
def Machine.reported (m : Machine A) (lines : List ReportLine) : Machine A :=
  { m with log := m.log ++ (lines.map Event.report).toArray }

namespace Machine

variable (m : Machine A)

@[simp] theorem reported_nil : m.reported [] = m := by
  simp [reported]

end Machine

theorem ShadowMap.run_report_eq {ε : Type} (s : ShadowMap) (v : Violation) (before after : UInt64) (m : Machine A) :
    (s.report v before after : Action A ε Unit).run m =
      (if rowLimit ≤ before.toNat ∨ rowLimit ≤ after.toNat then .trapped .mulOverflow else .done (),
        m.reported (s.reportLines m.memory v before.toNat (numberedRows before after))) := by
  rw [run_report, rows_dump]
  simp [Machine.reported, reportLines, Function.comp_def]

/-! ## Checks -/

namespace Context

/-- A check that finds no violation leaves the machine alone. One that finds a violation logs the report of it as far as its
rows can be numbered, and fails with the violation if that is all of them. -/
theorem run_check_eq (c : Context) (x : Access) (m : Machine A) :
    (c.check x).run m =
      match c.violation? m.memory x with
      | none => (.done (), m)
      | some v =>
        (if c.config.RowsNumbered then .failed v else .trapped .mulOverflow,
          m.reported (c.shadow.reportLines m.memory v c.config.rowsBefore.toNat
            (ShadowMap.numberedRows c.config.rowsBefore c.config.rowsAfter))) := by
  rw [run_check_report]
  cases c.violation? m.memory x with
  | none => rfl
  | some v =>
    simp only [report, ShadowMap.run_report_eq]

/-- the report of a violation, with all the rows that were asked for -/
def fullReport (c : Context) (memory : Memory) (v : Violation) : List ReportLine :=
  c.shadow.reportLines memory v c.config.rowsBefore.toNat (c.config.rowsBefore.toNat + 1 + c.config.rowsAfter.toNat)

/-- what the check of an access has to report -/
def reportOf (c : Context) (memory : Memory) (x : Access) : List ReportLine :=
  ((c.violation? memory x).map (c.fullReport memory)).getD []

/-- the answer that a check has to give -/
def answerOf (c : Context) (memory : Memory) (x : Access) : Outcome Violation Unit :=
  match c.violation? memory x with
  | none => .done ()
  | some v => .failed v

/-- A check gives its answer, has logged the complete report of the violation, if there is one, and has changed nothing else. -/
def EndsNormally (c : Context) (m : Machine A) (x : Access) : Prop :=
  (c.check x).run m = (c.answerOf m.memory x, m.reported (c.reportOf m.memory x))

theorem run_check_within {c : Context} {m : Machine A} {x : Access}
    (h : c.violation? m.memory x = none ∨ c.config.RowsNumbered) : c.EndsNormally m x := by
  unfold EndsNormally answerOf reportOf
  rw [run_check_eq]
  cases hv : c.violation? m.memory x with
  | none => simp
  | some v =>
    have hrows : c.config.RowsNumbered := h.resolve_left (by simp [hv])
    simp only [if_pos hrows, ShadowMap.numberedRows_of_lt hrows.1 hrows.2]
    rfl

/-- The shadow map holds the byte that a violation is about. -/
theorem load?_of_violation? {c : Context} {memory : Memory} {x : Access} {v : Violation}
    (h : c.violation? memory x = some v) : c.shadow.load? memory v.shadowAddr = some v.shadowValue := by
  obtain ⟨last, -, a, ha, rfl⟩ := violation?_eq_some_iff.mp h
  exact ShadowMap.load?_toShadow_eq_some_iff.mpr ⟨ha.tracked a ha.addr_le le_rfl, rfl⟩

/-- **A report shows the shadow bytes around the fault.** If fewer than 2^60 rows are asked for on either side, a check that
does not fail leaves the machine alone, and one that fails with a violation has logged its report. Behind four opening lines
come as many rows as were asked for, and the faulting one between them. The addresses of the rows go up in steps of sixteen,
wrapping around, and the faulting row holds the shadow address of the violation. Every row shows sixteen bytes in fixed columns
as two digits, or as dashes where the map has no byte. In the faulting row the violation's shadow byte stands in brackets, and
there are no other brackets. -/
theorem reports_show_shadow (c : Context) (hbefore : c.config.rowsBefore.toNat < 2 ^ 60)
    (hafter : c.config.rowsAfter.toNat < 2 ^ 60) (x : Access) (m : Machine A) :
    (c.check x).run m = (.done (), m) ∨
    ∃ v events rows, (c.check x).run m = (.failed v, { m with log := m.log ++ events }) ∧
      events.toList.map Event.record =
        ((c.shadow.reportHead v).map ReportLine.text ++ rows).map (Record.mk "kasan" .error) ∧
      rows.length = c.config.rowsBefore.toNat + 1 + c.config.rowsAfter.toNat ∧
      c.shadow.load? m.memory v.shadowAddr = some v.shadowValue ∧
      ∀ j (hj : j < rows.length), ∃ start heading cells,
        (start.toNat : ℤ) =
          ((v.shadowAddr.toNat / 16 * 16 : ℕ) + 16 * ((j : ℤ) - c.config.rowsBefore.toNat)) % 2 ^ 64 ∧
        rows[j].toList = heading ++ ':' :: cells ∧
        c.shadow.Shows m.memory start (if j = c.config.rowsBefore.toNat then some (v.shadowAddr.toNat % 16) else none)
          heading cells ∧
        (j = c.config.rowsBefore.toNat → start + (v.shadowAddr.toNat % 16).toUInt64 = v.shadowAddr) := by
  have hnormal : c.EndsNormally m x := run_check_within (Or.inr ⟨hbefore, hafter⟩)
  unfold EndsNormally answerOf reportOf at hnormal
  cases hv : c.violation? m.memory x with
  | none =>
    rw [hv] at hnormal
    exact Or.inl (hnormal.trans (by simp))
  | some v =>
    right
    rw [hv] at hnormal
    generalize hnum : c.config.rowsBefore.toNat = before at *
    refine ⟨v, ((c.fullReport m.memory v).map Event.report).toArray,
      (List.range (before + 1 + c.config.rowsAfter.toNat)).map fun j => (c.shadow.rowAt m.memory v.shadowAddr before j).text,
      hnormal, ?_, ?_, load?_of_violation? hv, ?_⟩
    · rw [List.toList_toArray, records_report, fullReport, ShadowMap.texts_reportLines, hnum]
    · simp
    intro j hj
    have hfault (i : Nat) (hi : ShadowMap.faultCell v.shadowAddr before j = some i) : i < 16 := by
      unfold ShadowMap.faultCell at hi
      split_ifs at hi
      cases hi
      omega
    obtain ⟨heading, cells, htext, hshows⟩ :=
      c.shadow.shows_row m.memory (ShadowMap.rowStart v.shadowAddr before j) hfault
    refine ⟨ShadowMap.rowStart v.shadowAddr before j, heading, cells, ShadowMap.toNat_rowStart _ _ _, ?_, hshows, ?_⟩
    · rw [List.getElem_map, List.getElem_range]
      exact htext
    · rintro rfl
      exact ShadowMap.rowStart_add_fault _ _

/-- a context whose map ends at the last address, and reports of three rows -/
def lastContext : Context where
  shadow := { space := .detached, base := 0xffffffffffffff80, len := 0x80, translation := ⟨0xffffffffffffff80⟩ }
  config := { rowsBefore := 1, rowsAfter := 1 }
  boundaries := .filled { shadowStart := 0x1000, shadowEnd := 0x1000, lowEnd := 0x1000, highStart := 0x1000,
                          highEnd := 0x10000 }

/-- a machine whose last shadow byte of all marks a granule as freed, behind one of four bytes -/
def lastMarked : Machine Unit where
  memory := (({} : Memory).write .detached 0xffffffffffffffff 0xfd).write .detached 0xfffffffffffffffe 4
  allocator := ()

/-- The last granule that a map describes is freed: its shadow byte is the last one of its row, and the row behind that one
starts at address zero, where the map has no bytes. -/
theorem lastMarked_report_shows_shadow :
    lastContext.config.rowsBefore.toNat < 2 ^ 60 ∧ lastContext.config.rowsAfter.toNat < 2 ^ 60 ∧
    ∃ events,
      (lastContext.check (.load 0x3fc 4 0)).run lastMarked =
        (.failed { access := .load 0x3fc 4 0, shadowAddr := 0xffffffffffffffff, shadowValue := 0xfd,
                   kind := .heapUseAfterFree }, { lastMarked with log := lastMarked.log ++ events }) ∧
      (events.toList.map Event.record).drop 4 =
        ["0xFFFFFFFFFFFFFFE0: 00 00 00 00 00 00 00 00 00 00 00 00 00 00 00 00",
          "0xFFFFFFFFFFFFFFF0: 00 00 00 00 00 00 00 00 00 00 00 00 00 00 04[FD]",
          "0x0: -- -- -- -- -- -- -- -- -- -- -- -- -- -- -- --"].map (Record.mk "kasan" .error) := by
  refine ⟨by decide, by decide, ?_⟩
  rcases reports_show_shadow lastContext (by decide) (by decide) (.load 0x3fc 4 0) lastMarked with
    hdone | ⟨v, events, rows, hrun, hrecords, -⟩
  · exact absurd (congrArg Prod.fst hdone) (by decide +kernel)
  · have hfailed : ((lastContext.check (.load 0x3fc 4 0)).run lastMarked).1 =
        .failed { access := .load 0x3fc 4 0, shadowAddr := 0xffffffffffffffff, shadowValue := 0xfd,
                  kind := .heapUseAfterFree } := by
      decide +kernel
    have hevents : events = ((lastContext.check (.load 0x3fc 4 0)).run lastMarked).2.log := by
      rw [hrun]
      exact (Array.empty_append ..).symm
    rw [hrun] at hfailed
    cases hfailed
    refine ⟨events, hrun, ?_⟩
    rw [hevents]
    decide +kernel

end Context

end AddressSanitizer
