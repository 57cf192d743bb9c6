/-
The short form of an error: the error's name and, in parentheses, its arguments in decimal, `InvalidShadowRange(5, 4)`;
an error that wraps another one has it as its argument, `AllocatorError(OutOfMemory(96))`.
-/
namespace AddressSanitizer.ErrorText

/-- a name and the texts of its arguments -/
def apply (name : String) : List String → String
  | [] => name
  | args => name ++ "(" ++ ", ".intercalate args ++ ")"

/-- a name and numbers -/
def ofWords (name : String) (args : List UInt64) : String :=
  apply name (args.map fun n => toString n.toNat)

end AddressSanitizer.ErrorText
