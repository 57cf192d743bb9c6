/-
Why a write to the shadow map is refused.
-/
import AddressSanitizer.Text.ErrorText
import AddressSanitizer.Text.Hex

namespace AddressSanitizer

inductive ShadowError where
  /-- the range of real memory runs past the end of the address space -/
  | addressRangeOverflow (start len : UInt64)
  /-- the first shadow byte lies below the shadow memory -/
  | invalidAddress (shadow : UInt64)
  /-- the shadow bytes run past the end of the shadow memory -/
  | invalidRange (shadow len : UInt64)
  /-- the layout asks for more shadow bytes than there are -/
  | regionTooLarge (region available : UInt64)
  deriving DecidableEq, Repr

namespace ShadowError

def name : ShadowError → String
  | addressRangeOverflow .. => "AddressRangeOverflow"
  | invalidAddress .. => "InvalidShadowAddress"
  | invalidRange .. => "InvalidShadowRange"
  | regionTooLarge .. => "ShadowRegionMismatch"

def arguments : ShadowError → List UInt64
  | addressRangeOverflow start len => [start, len]
  | invalidAddress shadow => [shadow]
  | invalidRange shadow len => [shadow, len]
  | regionTooLarge region available => [region, available]

def short (e : ShadowError) : String := ErrorText.ofWords e.name e.arguments

def message : ShadowError → String
  | addressRangeOverflow start len => s!"Address overflow: {Hex.lower start}, len: {Hex.lower len}"
  | invalidAddress shadow => s!"Invalid shadow address: {Hex.lower shadow}"
  | invalidRange shadow len => s!"Invalid shadow range: {Hex.lower shadow}, len: {Hex.lower len}"
  | regionTooLarge region available =>
    s!"Shadow region of {Hex.lower region} bytes exceeds the shadow memory of {Hex.lower available} bytes"

end ShadowError

end AddressSanitizer
