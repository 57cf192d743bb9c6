/-
Hexadecimal numbers in log lines and reports: `0x` and the digits without leading zeros, in lower or in upper case
(the mark itself is always lower case), and bytes as exactly two digits.
-/
namespace AddressSanitizer.Hex

/-- the digit of a value below sixteen, in upper case -/
def upperDigit (n : Nat) : Char :=
  if n < 10 then Char.ofNat ('0'.toNat + n) else Char.ofNat ('A'.toNat + (n - 10))

/-- the digit of a value below sixteen, in lower case -/
def lowerDigit (n : Nat) : Char :=
  if n < 10 then Char.ofNat ('0'.toNat + n) else Char.ofNat ('a'.toNat + (n - 10))

/-- the `width` low digits of `n`, the most significant one first -/
def padded (digit : Nat → Char) : (width : Nat) → (n : Nat) → List Char
  | 0, _ => []
  | width + 1, n => padded digit width (n / 16) ++ [digit (n % 16)]

/-- the digits of a word without leading zeros; zero has one digit -/
def digits (digit : Nat → Char) (n : UInt64) : List Char :=
  match (padded digit 16 n.toNat).dropWhile (· = '0') with
  | [] => ['0']
  | cs => cs

/-- a word as `0x2a` -/
def lower (n : UInt64) : String := "0x" ++ String.ofList (digits lowerDigit n)

/-- a word as `0x2A` -/
def upper (n : UInt64) : String := "0x" ++ String.ofList (digits upperDigit n)

/-- the two digits of a byte -/
def byte (digit : Nat → Char) (b : UInt8) : List Char := padded digit 2 b.toNat

/-- bytes as two lower-case digits each, in order -/
def bytes (bs : List UInt8) : String :=
  String.ofList (bs.flatMap (byte lowerDigit))

theorem length_padded (digit : Nat → Char) (width n : Nat) : (padded digit width n).length = width := by
  induction width generalizing n with
  | zero => rfl
  | succ width ih => simp [padded, ih]

end AddressSanitizer.Hex
