/-!
# Countdown timers

The delay and the sound timer are eight-bit registers that count down to zero and stay there. Only a
tick counts down; its caller keeps the pace of sixty ticks a second.
-/

namespace Chip8
set_option autoImplicit false

structure Timer where
  value : UInt8
  deriving DecidableEq, Repr

namespace Timer

def zero : Timer := ⟨0⟩

def isActive (t : Timer) : Bool := 0 < t.value

def tick (t : Timer) : Timer := if t.value = 0 then t else ⟨t.value - 1⟩

/-- One tick, with the answer whether the timer still runs. -/
def countDown (t : Timer) : Timer × Bool := (t.tick, t.tick.isActive)

end Timer
end Chip8
