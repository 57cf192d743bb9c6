/-
Redzones behind global variables. Registering a global makes the variable accessible and poisons the padding that the
compiler has put behind it.

A descriptor may lie in the shadow bytes that registration writes, its own or those of a global registered before it.
So each descriptor is looked at when its turn has come, and its sizes once more when the variable has been made
accessible; the padding is placed by what they are then.
-/
import AddressSanitizer.Global.Descriptor
import AddressSanitizer.Shadow.Map

namespace AddressSanitizer.ShadowMap

variable {A : Type}

/-- Makes a global accessible and poisons what pads it. -/
def registerGlobal (s : ShadowMap) (d : Global.Descriptor) : Action A ShadowError Unit := do
  let g := d.global (← Action.memory)
  Action.emit (.registerGlobal g.start g.size g.padded)
  s.unpoison g.start g.size
  let now := d.global (← Action.memory)
  let aligned ← Action.require (alignUp now.size) (.addressRangeOverflow g.start now.size)
  let redzone ← Action.require (checkedAdd g.start aligned) (.addressRangeOverflow g.start aligned)
  s.poison redzone (saturatingSub now.padded aligned) .globalRedzone

/-- registers globals in order, up to the first that cannot be registered -/
def registerGlobals (s : ShadowMap) : List Global.Descriptor → Action A ShadowError Unit
  | [] => pure ()
  | d :: ds => do
    s.registerGlobal d
    s.registerGlobals ds

end AddressSanitizer.ShadowMap
