/-
Descriptors of global variables. As a compiler lays it out in memory a descriptor is eight words, the first four being
the variable's address, its size, its padded size and the address of its name; the other four play no part here.

A descriptor in memory is only as stable as the memory: what it describes can change between two looks at it. One that
is given by its values always describes the same global.
-/
import AddressSanitizer.Global
import AddressSanitizer.Memory

namespace AddressSanitizer.Global

/-- bytes per descriptor -/
def descriptorSize : UInt64 := 64

/-- the global that the descriptor at `a` describes -/
def read (memory : Memory) (a : Address) : Global where
  start := memory.readWord a
  size := memory.readWord (a + 8)
  padded := memory.readWord (a + 16)
  nameAt := memory.readWord (a + 24)

/-- writes the descriptor of a global -/
def write (g : Global) (memory : Memory) (a : Address) : Memory :=
  memory.writeWords a [g.start, g.size, g.padded, g.nameAt, 0, 0, 0, 0]

/-- writes the descriptors of globals, one after the other from `a` on -/
def writeArray (memory : Memory) (a : Address) : List Global → Memory
  | [] => memory
  | g :: gs => writeArray (g.write memory a) (a + descriptorSize) gs

/-- the bytes of the global's name, if it has one; they end at the first zero byte -/
def name? (g : Global) (memory : Memory) : Option (List UInt8) :=
  if g.nameAt = 0 then none else some (memory.readText g.nameAt 0x10000000000000000)

/-- where the description of a global comes from -/
inductive Descriptor where
  /-- values at hand, which no write to memory can change -/
  | given (g : Global)
  /-- the descriptor at an address -/
  | stored (a : Address)
  deriving DecidableEq, Repr

namespace Descriptor

/-- the global that is described while the memory is this one -/
def global (d : Descriptor) (memory : Memory) : Global :=
  match d with
  | given g => g
  | stored a => read memory a

/-- `n` descriptors in memory, one after the other from `a` on -/
def array (a : Address) : (n : Nat) → List Descriptor
  | 0 => []
  | n + 1 => stored a :: array (a + descriptorSize) n

@[simp] theorem global_given (g : Global) (memory : Memory) : (given g).global memory = g := rfl

@[simp] theorem global_stored (a : Address) (memory : Memory) : (stored a).global memory = read memory a := rfl

end Descriptor

end AddressSanitizer.Global
