import Chip8.Proofs.Footprint

/-!
# Results and flags in exact integers

The five instructions that leave a result in Vx and a flag in VF, read as arithmetic without bounds: sums and
doubles are split into a byte and a carry, halves leave a remainder, and differences are taken modulo 256 beside
the outcome of a strict comparison. Both operands are those from before, whichever registers are named. Where Vx
is VF the result stands there and the flag is lost.
-/

namespace Chip8
set_option autoImplicit false

inductive Flagged where
  | add
  | sub
  | shiftRight
  | subFrom
  | shiftLeft
  deriving DecidableEq, Repr

namespace Flagged

def instruction (x y : UInt8) : Flagged → Instruction
  | add => .add x y
  | sub => .sub x y
  | shiftRight => .shiftRight x y
  | subFrom => .subFrom x y
  | shiftLeft => .shiftLeft x y

/-- What the operands `a` of Vx and `b` of Vy come to. -/
def Exact (a b result flag : Nat) : Flagged → Prop
  | add => result + 256 * flag = a + b
  | sub => (result : Int) = ((a : Int) - b) % 256 ∧ (flag = 1 ↔ a > b)
  | shiftRight => 2 * result + flag = a
  | subFrom => (result : Int) = ((b : Int) - a) % 256 ∧ (flag = 1 ↔ b > a)
  | shiftLeft => result + 256 * flag = 2 * a

section Exact
variable (a b : UInt8)

/-- A number of nine bits is its low byte and a carry. -/
theorem carry_exact {n : Nat} (h : n < 512) {p : Prop} [Decidable p] (hp : p ↔ 255 < n) :
    n % 256 + 256 * (decide p).toNat = n := by
  by_cases hcarry : p
  · have hlarge := hp.mp hcarry
    rw [decide_eq_true hcarry, Bool.toNat_true]
    omega
  · have hsmall : ¬ 255 < n := fun hlarge => hcarry (hp.mpr hlarge)
    rw [decide_eq_false hcarry, Bool.toNat_false]
    omega

theorem add_exact :
    add.Exact a.toNat b.toNat (a + b).toNat (decide (0xFF < a.toNat + b.toNat)).toNat := by
  have ha := a.toNat_lt
  have hb := b.toNat_lt
  rw [Exact, UInt8.toNat_add]
  exact carry_exact (by omega) Iff.rfl

theorem sub_exact : sub.Exact a.toNat b.toNat (a - b).toNat (decide (b < a)).toNat := by
  have ha := a.toNat_lt
  have hb := b.toNat_lt
  constructor
  · rw [UInt8.toNat_sub]
    omega
  · rw [Bool.toNat_eq_one, decide_eq_true_eq]
    exact UInt8.lt_iff_toNat_lt

theorem subFrom_exact : subFrom.Exact a.toNat b.toNat (b - a).toNat (decide (a < b)).toNat :=
  sub_exact b a

theorem shiftRight_exact : shiftRight.Exact a.toNat b.toNat (a / 2).toNat (a % 2 == 1).toNat := by
  have hhalf : (a / 2).toNat = a.toNat / 2 := UInt8.toNat_div a 2
  have hodd : a % 2 = 1 ↔ a.toNat % 2 = 1 := by
    rw [← UInt8.toNat_inj, UInt8.toNat_mod]
    rfl
  rw [Exact, hhalf]
  by_cases hbit : a % 2 = 1
  · have hone := hodd.mp hbit
    rw [hbit, BEq.rfl, Bool.toNat_true]
    omega
  · have hzero : ¬ a.toNat % 2 = 1 := fun hone => hbit (hodd.mpr hone)
    rw [beq_false_of_ne hbit, Bool.toNat_false]
    omega

theorem shiftLeft_exact : shiftLeft.Exact a.toNat b.toNat (a * 2).toNat (decide (0x80 ≤ a)).toNat := by
  have ha := a.toNat_lt
  have hdouble : (a * 2).toNat = a.toNat * 2 % 256 := UInt8.toNat_mul a 2
  have hhigh : 0x80 ≤ a ↔ 128 ≤ a.toNat := UInt8.le_iff_toNat_le
  rw [Exact, hdouble, Nat.mul_comm 2]
  exact carry_exact (by omega) (hhigh.trans (by omega))

end Exact

theorem instruction_writes (op : Flagged) (x y : UInt8) (index : UInt16) :
    (op.instruction x y).writes index = [.v x, .v 0xF] := by
  cases op <;> rfl

end Flagged

namespace Machine
variable (m : Machine) (keys : Keys) (random : RandomBytes) (x : UInt8)

theorem setFlagged_get (flag : Bool) (value : UInt8) : (m.setFlagged flag x value).v.get x = value :=
  Registers.get_set ..

theorem setFlagged_flag {x : UInt8} (h : Registers.slot x ≠ Registers.slot 0xF) (flag : Bool)
    (value : UInt8) : (m.setFlagged flag x value).v.get 0xF = flag.toUInt8 := by
  have hkept : (m.setFlagged flag x value).v.get 0xF = (m.v.setFlag flag).get 0xF :=
    Registers.set_get h.symm value
  rw [hkept]
  exact Registers.get_set ..

theorem obey_flagged (op : Flagged) (y : UInt8) :
    ∃ flag value, m.obey keys random (op.instruction x y) =
        { m with pc := next m.pc }.setFlagged flag x value ∧
      op.Exact (m.v.get x).toNat (m.v.get y).toNat value.toNat flag.toNat := by
  cases op with
  | add => exact ⟨_, _, rfl, Flagged.add_exact ..⟩
  | sub => exact ⟨_, _, rfl, Flagged.sub_exact ..⟩
  | shiftRight => exact ⟨_, _, rfl, Flagged.shiftRight_exact ..⟩
  | subFrom => exact ⟨_, _, rfl, Flagged.subFrom_exact ..⟩
  | shiftLeft => exact ⟨_, _, rfl, Flagged.shiftLeft_exact ..⟩

end Machine

/-- Sums, differences and shifts leave in Vx and in VF what the operands come to in exact integers, where Vx and
Vy may be the same register and either may be VF. If Vx is VF it holds the result, and the flag is not kept. The
program counter moves on, and nothing else changes. This is what a step leads to that fetches the instruction. -/
theorem results_exact (m : Machine) (keys : Keys) (random : RandomBytes) (op : Flagged) {x : UInt8}
    (hx : x.toNat < 16) (y : UInt8) :
    let m' := m.obey keys random (op.instruction x y)
    (∃ flag ≤ 1,
      op.Exact (m.v.get x).toNat (m.v.get y).toNat (m'.v.get x).toNat flag ∧
      (x ≠ 0xF → (m'.v.get 0xF).toNat = flag)) ∧
    m'.pc = Machine.next m.pc ∧
    (∀ part : Part, part ≠ .pc → part ≠ .v x → part ≠ .v 0xF → part.Same m m') ∧
    (m.upcoming = some (op.instruction x y) → (m.step keys random).machine = m') := by
  intro m'
  obtain ⟨flag, value, hm', hexact⟩ := m.obey_flagged keys random x op y
  change m' = _ at hm'
  refine ⟨⟨flag.toNat, flag.toNat_le, ?_, ?_⟩, ?_, ?_, Machine.step_obeys keys random⟩
  · rwa [hm', Machine.setFlagged_get]
  · intro hne
    have hslot := fun h => hne (Registers.slot_inj hx (by decide) h)
    rw [hm', Machine.setFlagged_flag _ hslot]
    cases flag <;> rfl
  · rw [hm']
    rfl
  · intro part hpc hv hflag
    apply Machine.obey_same keys random hpc
    rw [op.instruction_writes]
    simp [hv, hflag]

/-- Holds 200 in V3 and 100 in VF, and is to add them. -/
def brimful : Machine :=
  { Machine.start (Memory.blank.store 0x200 [0x83, 0xF4]) 0 with
    v := (Registers.zero.set 3 200).set 0xF 100 }

/-- The sum of V3 and VF does not fit a byte. Left in V3 it goes with a carry that replaces the operand in VF,
and left in VF it replaces the carry. -/
theorem results_exact_of_brimful :
    let low := brimful.obey (fun _ => false) (fun _ => 0) (Flagged.add.instruction 3 0xF)
    let high := brimful.obey (fun _ => false) (fun _ => 0) (Flagged.add.instruction 0xF 3)
    (low.v.get 3).toNat + 256 * (low.v.get 0xF).toNat = 200 + 100 ∧
      (∃ flag ≤ 1, (high.v.get 0xF).toNat + 256 * flag = 100 + 200) ∧
      high.v.get 3 = 200 ∧ low.pc = 0x202 ∧
      (brimful.step (fun _ => false) (fun _ => 0)).machine = low := by
  intro low high
  obtain ⟨⟨flag, _, hsum, hflag⟩, hpc, _, hstep⟩ :=
    results_exact brimful (fun _ => false) (fun _ => 0) .add (x := 3) (by decide) 0xF
  obtain ⟨⟨lost, hle, hsum', _⟩, _, hsame, _⟩ :=
    results_exact brimful (fun _ => false) (fun _ => 0) .add (x := 0xF) (by decide) 3
  have hcarry := hflag (by decide)
  have hthree := hsame (.v 3) (by decide) (by decide) (by decide)
  refine ⟨?_, ⟨lost, hle, hsum'⟩, hthree, hpc, hstep (by decide +kernel)⟩
  rw [hcarry]
  exact hsum

end Chip8
