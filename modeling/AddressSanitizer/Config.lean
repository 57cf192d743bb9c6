/-
The settings of a context: the sizes of the redzones around heap blocks, and how many rows of shadow bytes a report
shows on either side of the faulting one.
-/
import AddressSanitizer.Address
import AddressSanitizer.Text.ErrorText

namespace AddressSanitizer

/-- redzone sizes in bytes, and rows per report -/
structure Config where
  headRedzone : UInt64 := 64
  tailRedzone : UInt64 := 32
  rowsBefore : UInt64 := 3
  rowsAfter : UInt64 := 3
  deriving DecidableEq, Repr

/-- why a configuration is refused -/
inductive ConfigError where
  | invalidHeadRedzone (size : UInt64)
  | invalidTailRedzone (size : UInt64)
  deriving DecidableEq, Repr

namespace ConfigError

def name : ConfigError → String
  | invalidHeadRedzone _ => "InvalidHeadRedZoneSize"
  | invalidTailRedzone _ => "InvalidTailRedZoneSize"

def message : ConfigError → String
  | invalidHeadRedzone size => s!"Invalid head red_zone_size: {size.toNat}"
  | invalidTailRedzone size => s!"Invalid tail red_zone_size: {size.toNat}"

end ConfigError

/-- Both redzones are whole granules, and the head redzone has room for the word that records the block's size. -/
def Config.validate (c : Config) : Except ConfigError Unit :=
  if ¬Aligned c.headRedzone ∨ c.headRedzone < 8 then .error (.invalidHeadRedzone c.headRedzone)
  else if ¬Aligned c.tailRedzone then .error (.invalidTailRedzone c.tailRedzone)
  else .ok ()

end AddressSanitizer
