import Chip8.CallStack
import Chip8.Machine.Event
import Chip8.Memory
import Chip8.Registers
import Chip8.Screen
import Chip8.Timer

/-!
# The machine

Registers, memory, screen, timers and call stack, and what one step and one timer tick do to them.

A step either executes one instruction or, while the machine waits for a key, only looks for one. Its
outcome lists the keys that it asked about and the events that it reports, both in order. Random
bytes come from a stream that is fixed from outside; the machine keeps how many it has drawn.
-/

namespace Chip8
set_option autoImplicit false

/-- Whether each key of the pad is held. -/
abbrev Keys := UInt8 → Bool

/-- The random bytes, by the number of bytes drawn before. -/
abbrev RandomBytes := Nat → UInt8

structure Machine where
  v : Registers
  i : UInt16
  pc : UInt16
  stack : CallStack
  memory : Memory
  screen : Screen
  delay : Timer
  sound : Timer
  /-- The register that waits for a key. Nothing is executed meanwhile. -/
  keyWait : Option UInt8
  /-- Random bytes drawn so far. -/
  draws : Nat
  deriving DecidableEq

namespace Machine

structure Outcome where
  machine : Machine
  polled : List UInt8 := []
  events : List Event := []

def start (memory : Memory) (draws : Nat) : Machine where
  v := .zero
  i := 0
  pc := UInt16.ofNat programStart
  stack := .empty
  memory := memory
  screen := .blank
  delay := .zero
  sound := .zero
  keyWait := none
  draws := draws

/-- A fresh machine around `memory` that draws on where this one stopped. -/
def reset (m : Machine) (memory : Memory) : Machine := start memory m.draws

/-- The address of the instruction after the one at `address`. -/
def next (address : UInt16) : UInt16 := (address + 2) % 0x1000

def skipIf (m : Machine) (condition : Bool) : Machine :=
  if condition then { m with pc := next m.pc } else m

def setV (m : Machine) (x value : UInt8) : Machine := { m with v := m.v.set x value }

/-- Sets VF and then Vx, so that the value wins where both are one register. -/
def setFlagged (m : Machine) (flag : Bool) (x value : UInt8) : Machine :=
  { m with v := (m.v.setFlag flag).set x value }

def decimalDigits (value : UInt8) : List UInt8 := [value / 100, value / 10 % 10, value % 10]

/-- Executes an instruction; `pc` has already moved on. -/
def execute (m : Machine) (keys : Keys) (random : RandomBytes) : Instruction → Outcome
  | .clear => ⟨{ m with screen := m.screen.clear }, [], []⟩
  | .ret =>
    match m.stack.pop? with
    | some (address, stack) => ⟨{ m with pc := address, stack := stack }, [], []⟩
    | none => ⟨m, [], [.returnIgnored m.pc]⟩
  | .jump address => ⟨{ m with pc := address }, [], []⟩
  | .call address =>
    match m.stack.push? m.pc with
    | some stack => ⟨{ m with pc := address, stack := stack }, [], []⟩
    | none => ⟨{ m with pc := address }, [], [.returnDropped m.pc]⟩
  | .skipEqByte x kk => ⟨m.skipIf (m.v.get x == kk), [], []⟩
  | .skipNeByte x kk => ⟨m.skipIf (m.v.get x != kk), [], []⟩
  | .skipEq x y => ⟨m.skipIf (m.v.get x == m.v.get y), [], []⟩
  | .skipNe x y => ⟨m.skipIf (m.v.get x != m.v.get y), [], []⟩
  | .loadByte x kk => ⟨m.setV x kk, [], []⟩
  | .addByte x kk => ⟨m.setV x (m.v.get x + kk), [], []⟩
  | .move x y => ⟨m.setV x (m.v.get y), [], []⟩
  | .or x y => ⟨m.setV x (m.v.get x ||| m.v.get y), [], []⟩
  | .and x y => ⟨m.setV x (m.v.get x &&& m.v.get y), [], []⟩
  | .xor x y => ⟨m.setV x (m.v.get x ^^^ m.v.get y), [], []⟩
  | .add x y =>
    let a := m.v.get x
    let b := m.v.get y
    ⟨m.setFlagged (0xFF < a.toNat + b.toNat) x (a + b), [], []⟩
  | .sub x y =>
    let a := m.v.get x
    let b := m.v.get y
    ⟨m.setFlagged (b < a) x (a - b), [], []⟩
  | .subFrom x y =>
    let a := m.v.get x
    let b := m.v.get y
    ⟨m.setFlagged (a < b) x (b - a), [], []⟩
  | .shiftRight x _ =>
    let a := m.v.get x
    ⟨m.setFlagged (a % 2 == 1) x (a / 2), [], []⟩
  | .shiftLeft x _ =>
    let a := m.v.get x
    ⟨m.setFlagged (0x80 ≤ a) x (a * 2), [], []⟩
  | .loadIndex address => ⟨{ m with i := address }, [], []⟩
  | .jumpOffset address => ⟨{ m with pc := (address + (m.v.get 0).toUInt16) % 0x1000 }, [], []⟩
  | .random x kk =>
    ⟨{ m with v := m.v.set x (random m.draws &&& kk), draws := m.draws + 1 }, [], []⟩
  | .draw x y n =>
    let (screen, collided) :=
      m.screen.draw (m.v.get x) (m.v.get y) (m.memory.slice m.i n.toNat)
    ⟨{ m with screen := screen, v := m.v.setFlag collided }, [], []⟩
  | .skipKeyDown x =>
    let key := m.v.get x % 0x10
    ⟨m.skipIf (keys key), [key], []⟩
  | .skipKeyUp x =>
    let key := m.v.get x % 0x10
    ⟨m.skipIf (!keys key), [key], []⟩
  | .readDelay x => ⟨m.setV x m.delay.value, [], []⟩
  | .awaitKey x => ⟨{ m with keyWait := some x }, [], [.waiting x]⟩
  | .setDelay x => ⟨{ m with delay := ⟨m.v.get x⟩ }, [], []⟩
  | .setSound x => ⟨{ m with sound := ⟨m.v.get x⟩ }, [], []⟩
  | .addIndex x => ⟨{ m with i := m.i + (m.v.get x).toUInt16 }, [], []⟩
  | .loadGlyph x => ⟨{ m with i := Memory.glyph (m.v.get x) }, [], []⟩
  | .storeDecimal x =>
    ⟨{ m with memory := m.memory.store m.i (decimalDigits (m.v.get x)) }, [], []⟩
  | .storeRegisters x => ⟨{ m with memory := m.memory.store m.i (m.v.upTo x) }, [], []⟩
  | .loadRegisters x =>
    ⟨{ m with v := m.v.setFrom 0 (m.memory.slice m.i (x.toNat + 1)) }, [], []⟩
  | .unknown word => ⟨m, [], [.unknownIgnored word]⟩

/-- The keys of the pad in the order in which a waiting machine asks about them. -/
def padKeys : List UInt8 := (List.range 16).map UInt8.ofNat

/-- Asks for keys up to the first that is held, which ends the wait for register `x`. -/
def poll (m : Machine) (keys : Keys) (x : UInt8) : Outcome :=
  match padKeys.find? keys with
  | some key =>
    { machine := { m with v := m.v.set x key, keyWait := none }
      polled := padKeys.takeWhile (fun k => !keys k) ++ [key]
      events := [.resumed key x] }
  | none => { machine := m, polled := padKeys }

def step (m : Machine) (keys : Keys) (random : RandomBytes) : Outcome :=
  match m.keyWait with
  | some x => m.poll keys x
  | none =>
    let address := m.pc
    let word := m.memory.word address
    let o := { m with pc := next address }.execute keys random (.decode word)
    { o with events := .fetched address word :: o.events }

/-- Counts both timers down by one, which is due sixty times a second. -/
def tick (m : Machine) : Machine := { m with delay := m.delay.tick, sound := m.sound.tick }

def countDown (m : Machine) : Machine × Bool :=
  let (delay, _) := m.delay.countDown
  let (sound, sounding) := m.sound.countDown
  ({ m with delay := delay, sound := sound }, sounding)

def toneActive (m : Machine) : Bool := m.sound.isActive

def clearDirty (m : Machine) : Machine := { m with screen := m.screen.clearDirty }

end Machine
end Chip8
