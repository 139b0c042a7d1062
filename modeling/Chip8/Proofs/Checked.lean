import Chip8.Machine

/-!
# Checked execution

A second interpreter, in which every operation that a word of bounded width or an array of bounded
length can fail at is checked. Sums, products and differences have the width of their words, a byte is
shifted by less than its width, an index is compared with the length, and a group digit above 15 is a
fault of its own. Operations that wrap or saturate on purpose have no check. Registers, memory, stack
and screen are indexed as masks and offsets give it, not through indices that carry a proof.
-/

namespace Chip8
set_option autoImplicit false

inductive Fault where
  | sumOverflow
  | productOverflow
  | differenceOverflow
  | shiftOverflow
  | outOfBounds (index length : Nat)
  | unreachable
  deriving DecidableEq, Repr

abbrev Checked := Except Fault

namespace Checked

section Words
variable {α : Type} {n : Nat}

def index (xs : Vector α n) (k : Nat) : Checked α :=
  if h : k < n then .ok xs[k] else .error (.outOfBounds k n)

def assign (xs : Vector α n) (k : Nat) (value : α) : Checked (Vector α n) :=
  if h : k < n then .ok (xs.set k value h) else .error (.outOfBounds k n)

def add (bits a b : Nat) : Checked Nat :=
  if a + b < 1 <<< bits then .ok (a + b) else .error .sumOverflow

def mul (bits a b : Nat) : Checked Nat :=
  if a * b < 1 <<< bits then .ok (a * b) else .error .productOverflow

def sub (a b : Nat) : Checked Nat :=
  if b ≤ a then .ok (a - b) else .error .differenceOverflow

def shiftRight (value : UInt8) (amount : Nat) : Checked UInt8 :=
  if amount < 8 then .ok (value >>> UInt8.ofNat amount) else .error .shiftOverflow

end Words

def register (v : Registers) (r : UInt8) : Checked UInt8 := index v.cells (r &&& 0xF).toNat

def setRegister (v : Registers) (r value : UInt8) : Checked Registers := do
  let cells ← assign v.cells (r &&& 0xF).toNat value
  return ⟨cells⟩

/-- The flag byte first and the result second. -/
def setFlagged (v : Registers) (flag x value : UInt8) : Checked Registers := do
  let v ← setRegister v 0xF flag
  setRegister v x value

def byte (m : Memory) (address : UInt16) : Checked UInt8 :=
  index m.cells ((address &&& 0x0FFF).toNat % memorySize)

def setByte (m : Memory) (address : UInt16) (value : UInt8) : Checked Memory := do
  let cells ← assign m.cells ((address &&& 0x0FFF).toNat % memorySize) value
  return ⟨cells⟩

def word (m : Memory) (address : UInt16) : Checked UInt16 := do
  let high ← byte m address
  let low ← byte m (address + 1)
  return high.toUInt16 <<< 8 ||| low.toUInt16

def glyph (digit : UInt8) : Checked UInt16 := do
  let offset ← mul 16 (digit &&& 0xF).toUInt16.toNat 5
  let address ← add 16 fontStart offset
  return UInt16.ofNat address

def storeDecimal (m : Memory) (i : UInt16) (value : UInt8) : Checked Memory := do
  let m ← setByte m i (value / 100)
  let m ← setByte m (i + 1) (value / 10 % 10)
  setByte m (i + 2) (value % 10)

def storeRegisters (v : Registers) (i : UInt16) (last : UInt8) (m : Memory) : Checked Memory :=
  (List.range (last.toNat + 1)).foldlM (fun m r => do
    let value ← register v (UInt8.ofNat r)
    setByte m (i + UInt16.ofNat r) value) m

def loadRegisters (m : Memory) (i : UInt16) (last : UInt8) (v : Registers) : Checked Registers :=
  (List.range (last.toNat + 1)).foldlM (fun v r => do
    let value ← byte m (i + UInt16.ofNat r)
    setRegister v (UInt8.ofNat r) value) v

def push (s : CallStack) (address : UInt16) : Checked (Option CallStack) := do
  if stackSize ≤ s.depth then return none
  let slots ← assign s.slots s.depth address
  let depth ← add 16 s.depth 1
  return some ⟨slots, depth⟩

def pop (s : CallStack) : Checked (Option (UInt16 × CallStack)) := do
  if s.depth = 0 then return none
  let depth ← sub s.depth 1
  let address ← index s.slots depth
  return some (address, { s with depth := depth })

/-- One pixel of a row, which is written whether its bit is set or not. -/
def drawPixel (x y : Nat) (row : UInt8) (drawing : Vector UInt8 screenSize × Bool) (bit : Nat) :
    Checked (Vector UInt8 screenSize × Bool) := do
  let column ← add 64 x bit
  let amount ← sub 7 bit
  let shifted ← shiftRight row amount
  let lit := shifted &&& 1
  let offset ← mul 64 y screenWidth
  let k ← add 64 offset (column % screenWidth)
  let old ← index drawing.1 k
  let cells ← assign drawing.1 k (old ^^^ lit)
  return (cells, drawing.2 || lit == 1 && old == 1)

def drawRow (x y : Nat) (drawing : Vector UInt8 screenSize × Bool) (row : UInt8 × Nat) :
    Checked (Vector UInt8 screenSize × Bool) := do
  let line ← add 64 y row.2
  (List.range 8).foldlM (drawPixel x (line % screenHeight) row.1) drawing

def draw (s : Screen) (x y : UInt8) (rows : List UInt8) : Checked (Screen × Bool) := do
  let (cells, collided) ← rows.zipIdx.foldlM (drawRow x.toNat y.toNat) (s.cells, false)
  return (⟨cells, true⟩, collided)

def slice (m : Memory) (i : UInt16) (count : Nat) : Checked (List UInt8) :=
  (List.range count).mapM fun k => byte m (i + UInt16.ofNat k)

def decode (word : UInt16) : Checked Instruction :=
  if (word >>> 12).toNat ≤ 0xF then .ok (.decode word) else .error .unreachable

def skipIf (m : Machine) (condition : Bool) : Machine :=
  if condition then { m with pc := (m.pc + 2) &&& 0x0FFF } else m

def setV (m : Machine) (x value : UInt8) : Checked Machine := do
  let v ← setRegister m.v x value
  return { m with v := v }

def execute (m : Machine) (keys : Keys) (random : RandomBytes) : Instruction → Checked Machine.Outcome
  | .clear => return ⟨{ m with screen := m.screen.clear }, [], []⟩
  | .ret => do
    match ← pop m.stack with
    | some (address, stack) => return ⟨{ m with pc := address, stack := stack }, [], []⟩
    | none => return ⟨m, [], [.returnIgnored m.pc]⟩
  | .jump address => return ⟨{ m with pc := address }, [], []⟩
  | .call address => do
    match ← push m.stack m.pc with
    | some stack => return ⟨{ m with pc := address, stack := stack }, [], []⟩
    | none => return ⟨{ m with pc := address }, [], [.returnDropped m.pc]⟩
  | .skipEqByte x kk => do
    let a ← register m.v x
    return ⟨skipIf m (a == kk), [], []⟩
  | .skipNeByte x kk => do
    let a ← register m.v x
    return ⟨skipIf m (a != kk), [], []⟩
  | .skipEq x y => do
    let a ← register m.v x
    let b ← register m.v y
    return ⟨skipIf m (a == b), [], []⟩
  | .skipNe x y => do
    let a ← register m.v x
    let b ← register m.v y
    return ⟨skipIf m (a != b), [], []⟩
  | .loadByte x kk => return ⟨← setV m x kk, [], []⟩
  | .addByte x kk => do
    let a ← register m.v x
    return ⟨← setV m x (a + kk), [], []⟩
  | .move x y => do
    let b ← register m.v y
    return ⟨← setV m x b, [], []⟩
  | .or x y => do
    let a ← register m.v x
    let b ← register m.v y
    return ⟨← setV m x (a ||| b), [], []⟩
  | .and x y => do
    let a ← register m.v x
    let b ← register m.v y
    return ⟨← setV m x (a &&& b), [], []⟩
  | .xor x y => do
    let a ← register m.v x
    let b ← register m.v y
    return ⟨← setV m x (a ^^^ b), [], []⟩
  | .add x y => do
    let a ← register m.v x
    let b ← register m.v y
    let v ← setFlagged m.v (decide (a + b < a)).toUInt8 x (a + b)
    return ⟨{ m with v := v }, [], []⟩
  | .sub x y => do
    let a ← register m.v x
    let b ← register m.v y
    let v ← setFlagged m.v (decide (b < a)).toUInt8 x (a - b)
    return ⟨{ m with v := v }, [], []⟩
  | .subFrom x y => do
    let a ← register m.v x
    let b ← register m.v y
    let v ← setFlagged m.v (decide (a < b)).toUInt8 x (b - a)
    return ⟨{ m with v := v }, [], []⟩
  | .shiftRight x _ => do
    let a ← register m.v x
    let v ← setFlagged m.v (a &&& 1) x (a >>> 1)
    return ⟨{ m with v := v }, [], []⟩
  | .shiftLeft x _ => do
    let a ← register m.v x
    let v ← setFlagged m.v (a >>> 7) x (a <<< 1)
    return ⟨{ m with v := v }, [], []⟩
  | .loadIndex address => return ⟨{ m with i := address }, [], []⟩
  | .jumpOffset address => do
    let a ← register m.v 0
    return ⟨{ m with pc := (address + a.toUInt16) &&& 0x0FFF }, [], []⟩
  | .random x kk => do
    let v ← setRegister m.v x (random m.draws &&& kk)
    return ⟨{ m with v := v, draws := m.draws + 1 }, [], []⟩
  | .draw x y n => do
    let a ← register m.v x
    let b ← register m.v y
    let rows ← slice m.memory m.i n.toNat
    let (screen, collided) ← draw m.screen a b rows
    let v ← setRegister m.v 0xF collided.toUInt8
    return ⟨{ m with screen := screen, v := v }, [], []⟩
  | .skipKeyDown x => do
    let key := (← register m.v x) &&& 0xF
    return ⟨skipIf m (keys key), [key], []⟩
  | .skipKeyUp x => do
    let key := (← register m.v x) &&& 0xF
    return ⟨skipIf m (!keys key), [key], []⟩
  | .readDelay x => return ⟨← setV m x m.delay.value, [], []⟩
  | .awaitKey x => return ⟨{ m with keyWait := some x }, [], [.waiting x]⟩
  | .setDelay x => do
    let a ← register m.v x
    return ⟨{ m with delay := ⟨a⟩ }, [], []⟩
  | .setSound x => do
    let a ← register m.v x
    return ⟨{ m with sound := ⟨a⟩ }, [], []⟩
  | .addIndex x => do
    let a ← register m.v x
    return ⟨{ m with i := m.i + a.toUInt16 }, [], []⟩
  | .loadGlyph x => do
    let a ← register m.v x
    return ⟨{ m with i := ← glyph a }, [], []⟩
  | .storeDecimal x => do
    let a ← register m.v x
    return ⟨{ m with memory := ← storeDecimal m.memory m.i a }, [], []⟩
  | .storeRegisters x =>
    return ⟨{ m with memory := ← storeRegisters m.v m.i x m.memory }, [], []⟩
  | .loadRegisters x =>
    return ⟨{ m with v := ← loadRegisters m.memory m.i x m.v }, [], []⟩
  | .unknown word => return ⟨m, [], [.unknownIgnored word]⟩

def step (m : Machine) (keys : Keys) (random : RandomBytes) : Checked Machine.Outcome :=
  match m.keyWait with
  | some x =>
    match Machine.padKeys.find? keys with
    | some key => do
      let v ← setRegister m.v x key
      return {
        machine := { m with v := v, keyWait := none }
        polled := Machine.padKeys.takeWhile (fun k => !keys k) ++ [key]
        events := [.resumed key x] }
    | none => return { machine := m, polled := Machine.padKeys }
  | none => do
    let address := m.pc
    let word ← word m.memory address
    let instruction ← decode word
    let o ← execute { m with pc := (address + 2) &&& 0x0FFF } keys random instruction
    return { o with events := .fetched address word :: o.events }

/-- A timer counts down by a saturating difference, which has no check. -/
def tick (m : Machine) : Checked Machine :=
  return { m with
    delay := ⟨UInt8.ofNat (m.delay.value.toNat - 1)⟩
    sound := ⟨UInt8.ofNat (m.sound.value.toNat - 1)⟩ }

end Checked
end Chip8
