/-
The shadow map: a range of shadow bytes in some memory, with the translation that says which granule each of them
describes. A write is done in full or refused: a shadow byte that the range does not hold is never written.

`poison` and `unpoison` log what they are about to do, insist on whole granules, and then write the map.
-/
import AddressSanitizer.Machine
import AddressSanitizer.Shadow.Translation

namespace AddressSanitizer

/-- the `len` shadow bytes from `base` on; a map in a space of its own merely claims these addresses -/
structure ShadowMap where
  space : Space
  base : Address
  len : UInt64
  translation : Translation
  deriving DecidableEq, Repr

namespace ShadowMap

/-- the shadow address of the granule of `a` -/
def toShadow (s : ShadowMap) (a : Address) : Address := s.translation.toShadow a

/-- the first byte of the granule that a shadow address describes -/
def toReal (s : ShadowMap) (shadow : Address) : Address := s.translation.toReal shadow

/-- the map holds a byte for this shadow address -/
def Backs (s : ShadowMap) (shadow : Address) : Prop := s.base ≤ shadow ∧ shadow - s.base < s.len

instance (s : ShadowMap) (shadow : Address) : Decidable (s.Backs shadow) := inferInstanceAs (Decidable (_ ∧ _))

/-- the shadow byte at a shadow address, if the map holds it -/
def load? (s : ShadowMap) (memory : Memory) (shadow : Address) : Option UInt8 :=
  if s.Backs shadow then some (memory.read s.space shadow) else none

/-- writes `len` shadow bytes from the shadow address `shadow` on, all of them or none -/
def write (s : ShadowMap) (shadow : Address) (len : UInt64) (v : UInt8) (memory : Memory) :
    Except ShadowError Memory :=
  if len = 0 then .ok memory
  else match checkedSub shadow s.base with
    | none => .error (.invalidAddress shadow)
    | some first =>
      if first.toNat + len.toNat ≤ s.len.toNat then .ok (memory.fill s.space shadow len.toNat v)
      else .error (.invalidRange shadow len)

/-- writes one shadow byte -/
def store (s : ShadowMap) (shadow : Address) (v : UInt8) (memory : Memory) : Except ShadowError Memory :=
  s.write shadow 1 v memory

/-- writes every shadow byte of the map -/
def clear (s : ShadowMap) (v : UInt8) (memory : Memory) : Memory :=
  memory.fill s.space s.base s.len.toNat v

/-- writes the shadow bytes of all granules that the `len` real bytes from `start` on touch -/
def writeGranules (s : ShadowMap) (start len : UInt64) (v : UInt8) (memory : Memory) : Except ShadowError Memory :=
  if len = 0 then .ok memory
  else match checkedAdd start (len - 1) with
    | none => .error (.addressRangeOverflow start len)
    | some last => s.write (s.toShadow start) (s.toShadow last + 1 - s.toShadow start) v memory

variable {A : Type}

/-- Marks the granules of a range with a tag. The range must consist of whole granules. -/
def poison (s : ShadowMap) (start len : UInt64) (tag : Tag) : Action A ShadowError Unit := do
  Action.emit (.poison start len tag)
  Action.assert (Aligned start ∧ Aligned len) .unalignedPoison
  Action.updateMemory (s.writeGranules start len tag.byte)

/-- Makes a range accessible. It must start with a granule; if it ends inside one, the shadow byte of that granule
records how many of its bytes belong to the range. -/
def unpoison (s : ShadowMap) (start len : UInt64) : Action A ShadowError Unit := do
  Action.emit (.unpoison start len)
  Action.assert (Aligned start) .unalignedUnpoison
  Action.updateMemory (s.writeGranules start (alignDown len) Tag.valid.byte)
  if granuleOffset len ≠ 0 then
    let boundary ← Action.require (checkedAdd start len) (.addressRangeOverflow start len)
    Action.updateMemory (s.store (s.toShadow boundary) (granuleOffset len).toUInt8)

/-- writes a tag into `len` shadow bytes, as instrumented code does for its stack frames -/
def setTag (s : ShadowMap) (shadow : Address) (len : UInt64) (tag : Tag) : Action A ShadowError Unit :=
  Action.updateMemory (s.write shadow len tag.byte)

/-! ## The map as runs of equal bytes -/

/-- neighbouring shadow bytes of one value, other than zero -/
structure Run where
  first : Nat
  len : Nat
  value : UInt8
  deriving DecidableEq, Repr

/-- puts a shadow byte in front of the runs of the bytes behind it -/
def Run.cons (i : Nat) (v : UInt8) (runs : List Run) : List Run :=
  if v = 0 then runs
  else match runs with
    | [] => [⟨i, 1, v⟩]
    | r :: rs => if r.first = i + 1 ∧ r.value = v then ⟨i, r.len + 1, v⟩ :: rs else ⟨i, 1, v⟩ :: r :: rs

/-- the longest runs of equal shadow bytes, by their distance from the base -/
def runs (s : ShadowMap) (memory : Memory) : List Run :=
  collect s.len.toNat []
where
  /-- extends the runs of the bytes from the `n`-th on by those before it -/
  collect : (n : Nat) → List Run → List Run
    | 0, found => found
    | n + 1, found => collect n (Run.cons n (memory.read s.space (s.base + n.toUInt64)) found)

end ShadowMap

end AddressSanitizer
