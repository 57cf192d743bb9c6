/-
The lines of a report: a separator, the access, the violation in one line, a heading with the address whose shadow byte
is at fault, and the rows of shadow bytes.
-/
import AddressSanitizer.Access
import AddressSanitizer.Report.Row

namespace AddressSanitizer

inductive ReportLine where
  | separator
  | access (access : Access)
  | violation (violation : Violation)
  /-- the first byte of the faulting granule, and its shadow address -/
  | heading (real shadow : Address)
  | row (row : ShadowRow)
  deriving DecidableEq, Repr

namespace ReportLine

def text : ReportLine → String
  | separator => "==================================================="
  | access x =>
    s!"Invalid memory access: address {Hex.upper x.addr}, size {Hex.upper x.size}, " ++
      s!"is_write {x.isWrite.toNat}, ip {Hex.upper x.pc}"
  | violation v => v.text
  | heading real shadow => s!"Shadow bytes around the buggy address {Hex.upper real} (shadow {Hex.upper shadow}):"
  | row r => r.text

end ReportLine

end AddressSanitizer
