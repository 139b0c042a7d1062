/-!
# The call stack

Sixteen slots for return addresses and the number of slots in use. A push onto a full stack is
dropped and a pop from an empty one yields nothing.
-/

namespace Chip8
set_option autoImplicit false

def stackSize : Nat := 16

structure CallStack where
  slots : Vector UInt16 stackSize
  depth : Nat
  deriving DecidableEq

namespace CallStack

def empty : CallStack := ⟨Vector.replicate stackSize 0, 0⟩

def push? (s : CallStack) (address : UInt16) : Option CallStack :=
  if h : s.depth < stackSize then some ⟨s.slots.set s.depth address h, s.depth + 1⟩ else none

/-- The last address pushed, and the stack without it. The slot keeps its content. -/
def pop? (s : CallStack) : Option (UInt16 × CallStack) :=
  if s.depth = 0 then none
  else s.slots[s.depth - 1]?.map fun address => (address, { s with depth := s.depth - 1 })

end CallStack
end Chip8
