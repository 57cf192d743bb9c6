/-
Validation against the shadow map. The shadow bytes of an access are looked at one by one, from the first granule on,
up to the first that forbids it; the scan ends early at a shadow address the map does not hold. A partial granule at
the very end of the access is fine as long as the access stays within its accessible bytes.
-/
import AddressSanitizer.Shadow.Map

namespace AddressSanitizer.ShadowMap

/-- the first non-zero byte among the next `n` shadow bytes, all those before it being backed -/
def firstNonzero (s : ShadowMap) (memory : Memory) : (n : Nat) → (shadow : Address) → Option (Address × UInt8)
  | 0, _ => none
  | n + 1, shadow =>
    match s.load? memory shadow with
    | none => none
    | some v => if v = 0 then s.firstNonzero memory n (shadow + 1) else some (shadow, v)

/-- the shadow byte that forbids an access from `addr` to `last`, both included, with its shadow address -/
def findPoisoned (s : ShadowMap) (memory : Memory) (addr last : Address) : Option (Address × UInt8) :=
  let first := s.toShadow addr
  match s.firstNonzero memory (s.toShadow last - first + 1).toNat first with
  | none => none
  | some (found, v) =>
    if found = s.toShadow last ∧ IsPartial v ∧ granuleOffset last < v.toUInt64 then none else some (found, v)

/-- the violation that an access commits, if it commits one -/
def violation? (s : ShadowMap) (memory : Memory) (access : Access) : Option Violation := do
  let last ← access.last?
  let (shadowAddr, shadowValue) ← s.findPoisoned memory access.addr last
  let kind := ViolationKind.ofShadow shadowValue (s.load? memory (shadowAddr + 1))
  return { access, shadowAddr, shadowValue, kind }

end AddressSanitizer.ShadowMap
