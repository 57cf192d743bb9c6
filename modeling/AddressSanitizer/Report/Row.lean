/-
The rows of a report. A row shows sixteen shadow bytes behind the address of the first one, each as two upper-case
digits, or as `--` where the shadow map has no byte. In the row of the faulting byte that byte stands in brackets:

    0x50003F80: FA FA FA FA FA FA FA FA 00[02]FB FB FB FB FB FB
-/
import AddressSanitizer.Address
import AddressSanitizer.Text.Hex

namespace AddressSanitizer

/-- sixteen shadow bytes from `start` on, and which of them is the faulting one, if it is among them -/
structure ShadowRow where
  start : Address
  cells : List (Option UInt8)
  fault : Option Nat := none
  deriving DecidableEq, Repr

namespace ShadowRow

/-- the two characters of a cell -/
def cellText : Option UInt8 → List Char
  | some b => Hex.byte Hex.upperDigit b
  | none => ['-', '-']

/-- The cells from the `i`-th on. The closing bracket takes the place of the blank in front of the next cell. -/
def cellsText (fault : Option Nat) (i : Nat) : List (Option UInt8) → List Char
  | [] => []
  | c :: cs =>
    (if fault = some i then '[' :: cellText c ++ [']']
      else if fault.map (· + 1) = some i then cellText c
      else ' ' :: cellText c) ++ cellsText fault (i + 1) cs

def text (r : ShadowRow) : String :=
  Hex.upper r.start ++ ":" ++ String.ofList (cellsText r.fault 0 r.cells)

end ShadowRow

end AddressSanitizer
