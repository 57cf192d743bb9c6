/-
Reports. A report opens with four lines on the access and the violation; then comes a dump of the shadow bytes around
the faulting one: some rows before its row, its row, and some rows after it. Row addresses wrap around.

The distance of a row from the faulting one is a multiple of sixteen; a row whose distance is no machine word ends the
dump with a trap. Rows are counted towards the faulting row first and then away from it, so too many rows before it
leave no row at all.
-/
import AddressSanitizer.Shadow.Check

namespace AddressSanitizer

/-- the rows of a dump, and the trap that cut it short, if one did -/
structure ShadowDump where
  rows : List ShadowRow
  trap? : Option Trap := none
  deriving DecidableEq, Repr

namespace ShadowMap

/-- the sixteen shadow bytes from `start` on -/
def row (s : ShadowMap) (memory : Memory) (start : Address) (fault : Option Nat) : ShadowRow where
  start
  cells := (List.range 16).map fun i => s.load? memory (start + i.toUInt64)
  fault

/-- the `n` rows before the one at `start` -/
def rowsBefore (s : ShadowMap) (memory : Memory) (start : Address) (n : Nat) : List ShadowRow :=
  (List.range n).reverse.map fun i => s.row memory (start - (i + 1).toUInt64 * 16) none

/-- the `n` rows after the one at `start` -/
def rowsAfter (s : ShadowMap) (memory : Memory) (start : Address) (n : Nat) : List ShadowRow :=
  (List.range n).map fun i => s.row memory (start + (i + 1).toUInt64 * 16) none

/-- rows this far away and farther have no distance in bytes -/
def rowLimit : Nat := 1 <<< 60

/-- the rows around the shadow address of a fault -/
def dump (s : ShadowMap) (memory : Memory) (shadow : Address) (before after : UInt64) : ShadowDump :=
  let start := shadow - shadow % 16
  if rowLimit ≤ before.toNat then ⟨[], some .mulOverflow⟩
  else
    let upTo := s.rowsBefore memory start before.toNat ++ [s.row memory start (some (shadow % 16).toNat)]
    if rowLimit ≤ after.toNat then ⟨upTo ++ s.rowsAfter memory start (rowLimit - 1), some .mulOverflow⟩
    else ⟨upTo ++ s.rowsAfter memory start after.toNat, none⟩

/-- the lines that a report opens with -/
def reportHead (s : ShadowMap) (v : Violation) : List ReportLine :=
  [.separator, .access v.access, .violation v, .heading (s.toReal v.shadowAddr) v.shadowAddr]

variable {A ε : Type}

/-- Logs a report of the violation, line by line. -/
def report (s : ShadowMap) (v : Violation) (before after : UInt64) : Action A ε Unit := do
  (s.reportHead v).forM fun line => Action.emit (.report line)
  let dump := s.dump (← Action.memory) v.shadowAddr before after
  dump.rows.forM fun row => Action.emit (.report (.row row))
  match dump.trap? with
  | some t => Action.trap t
  | none => pure ()

end ShadowMap

end AddressSanitizer
