import Chip8.Machine

/-!
# Effects of a step

What a step can do to the program counter, the call stack, the screen and the wait for a key, whatever
instruction it meets: each part is left alone or changed in one of a few ways, and the way tells which
instruction it was. Changes to a machine that have nothing to do with fetching, calling and waiting can be
made before or after a step, as far as its instruction allows. Nothing here says when an instruction is
reached.
-/

namespace Chip8.Machine
set_option autoImplicit false

variable (m : Machine) (keys : Keys) (random : RandomBytes)

section SkipIf
variable (condition : Bool)

theorem skipIf_pc : (m.skipIf condition).pc = m.pc ∨ (m.skipIf condition).pc = next m.pc := by
  unfold skipIf
  split
  · exact Or.inr rfl
  · exact Or.inl rfl

@[simp] theorem skipIf_stack : (m.skipIf condition).stack = m.stack := by
  unfold skipIf
  split <;> rfl

@[simp] theorem skipIf_screen : (m.skipIf condition).screen = m.screen := by
  unfold skipIf
  split <;> rfl

@[simp] theorem skipIf_keyWait : (m.skipIf condition).keyWait = m.keyWait := by
  unfold skipIf
  split <;> rfl

end SkipIf

section Execute
variable (i : Instruction)

/-- Only a return, a jump, a call and an offset jump go anywhere but to the next or the next but one
instruction. -/
theorem execute_pc :
    (m.execute keys random i).machine.pc = m.pc ∨
    (m.execute keys random i).machine.pc = next m.pc ∨
    (∃ s, m.stack.pop? = some ((m.execute keys random i).machine.pc, s)) ∨
    i = .jump (m.execute keys random i).machine.pc ∨
    i = .call (m.execute keys random i).machine.pc ∨
    (∃ a, i = .jumpOffset a ∧
      (m.execute keys random i).machine.pc = (a + (m.v.get 0).toUInt16) % 0x1000) := by
  have skips (condition : Bool) {rest : Prop} :
      (m.skipIf condition).pc = m.pc ∨ (m.skipIf condition).pc = next m.pc ∨ rest := by
    rcases m.skipIf_pc condition with h | h
    · exact Or.inl h
    · exact Or.inr (Or.inl h)
  cases i with
  | skipEqByte | skipNeByte | skipEq | skipNe | skipKeyDown | skipKeyUp => exact skips _
  | jump a => exact Or.inr (Or.inr (Or.inr (Or.inl rfl)))
  | jumpOffset a => exact Or.inr (Or.inr (Or.inr (Or.inr (Or.inr ⟨a, rfl, rfl⟩))))
  | call a =>
    refine Or.inr (Or.inr (Or.inr (Or.inr (Or.inl ?_))))
    simp only [execute]
    split <;> rfl
  | ret =>
    simp only [execute]
    split
    · rename_i address stack hpop
      exact Or.inr (Or.inr (Or.inl ⟨stack, hpop⟩))
    · exact Or.inl rfl
  | _ => exact Or.inl rfl

/-- Only a call pushes, the address after it, and only a return pops, into the program counter. -/
theorem execute_stack :
    (m.execute keys random i).machine.stack = m.stack ∨
    (i = .ret ∧ m.stack.pop? =
      some ((m.execute keys random i).machine.pc, (m.execute keys random i).machine.stack)) ∨
    (∃ a, i = .call a ∧
      m.stack.push? m.pc = some (m.execute keys random i).machine.stack) := by
  cases i with
  | skipEqByte | skipNeByte | skipEq | skipNe | skipKeyDown | skipKeyUp =>
    exact Or.inl (m.skipIf_stack _)
  | call a =>
    simp only [execute]
    split
    · rename_i stack hpush
      exact Or.inr (Or.inr ⟨a, rfl, hpush⟩)
    · exact Or.inl rfl
  | ret =>
    simp only [execute]
    split
    · rename_i address stack hpop
      exact Or.inr (Or.inl ⟨trivial, hpop⟩)
    · exact Or.inl rfl
  | _ => exact Or.inl rfl

theorem execute_screen :
    (m.execute keys random i).machine.screen = m.screen ∨
    (i = .clear ∧ (m.execute keys random i).machine.screen = m.screen.clear) ∨
    (∃ x y n, i = .draw x y n ∧ (m.execute keys random i).machine.screen =
      (m.screen.draw (m.v.get x) (m.v.get y) (m.memory.slice m.i n.toNat)).1) := by
  cases i with
  | skipEqByte | skipNeByte | skipEq | skipNe | skipKeyDown | skipKeyUp =>
    exact Or.inl (m.skipIf_screen _)
  | clear => exact Or.inr (Or.inl ⟨rfl, rfl⟩)
  | draw x y n => exact Or.inr (Or.inr ⟨x, y, n, rfl, rfl⟩)
  | call a =>
    simp only [execute]
    split <;> exact Or.inl rfl
  | ret =>
    simp only [execute]
    split <;> exact Or.inl rfl
  | _ => exact Or.inl rfl

theorem execute_keyWait :
    (m.execute keys random i).machine.keyWait = m.keyWait ∨
    (∃ x, i = .awaitKey x ∧ (m.execute keys random i).machine.keyWait = some x) := by
  cases i with
  | skipEqByte | skipNeByte | skipEq | skipNe | skipKeyDown | skipKeyUp =>
    exact Or.inl (m.skipIf_keyWait _)
  | awaitKey x => exact Or.inr ⟨x, rfl, rfl⟩
  | call a =>
    simp only [execute]
    split <;> exact Or.inl rfl
  | ret =>
    simp only [execute]
    split <;> exact Or.inl rfl
  | _ => exact Or.inl rfl

end Execute

theorem poll_machine (x : UInt8) :
    (m.poll keys x).machine = m ∨
    ∃ key, (m.poll keys x).machine = { m with v := m.v.set x key, keyWait := none } := by
  unfold poll
  split
  · exact Or.inr ⟨_, rfl⟩
  · exact Or.inl rfl

variable {m}

theorem step_waiting {x : UInt8} (h : m.keyWait = some x) :
    m.step keys random = m.poll keys x := by
  simp only [step, h]

theorem step_fetching (h : m.keyWait = none) :
    m.step keys random =
      let o := { m with pc := next m.pc }.execute keys random (.decode (m.memory.word m.pc))
      { o with events := .fetched m.pc (m.memory.word m.pc) :: o.events } := by
  simp only [step, h]

theorem step_running (h : m.keyWait = none) :
    (m.step keys random).machine = ({ m with pc := next m.pc }.execute keys random
      (.decode (m.memory.word m.pc))).machine := by
  simp only [step, h]

/-- The instruction that the next step executes. A waiting machine executes none. -/
def upcoming (m : Machine) : Option Instruction :=
  match m.keyWait with
  | some _ => none
  | none => some (.decode (m.memory.word m.pc))

theorem upcoming_eq_some {i : Instruction} :
    m.upcoming = some i ↔ m.keyWait = none ∧ .decode (m.memory.word m.pc) = i := by
  unfold upcoming
  cases m.keyWait with
  | some x => simp
  | none => simp

theorem step_upcoming {i : Instruction} (h : m.upcoming = some i) :
    m.step keys random =
      let o := { m with pc := next m.pc }.execute keys random i
      { o with events := .fetched m.pc (m.memory.word m.pc) :: o.events } := by
  obtain ⟨hwait, rfl⟩ := upcoming_eq_some.mp h
  exact step_fetching keys random hwait

/-- The machine that has executed an instruction as its next one, whatever word it would have fetched. -/
def obey (m : Machine) (keys : Keys) (random : RandomBytes) (i : Instruction) : Machine :=
  ({ m with pc := next m.pc }.execute keys random i).machine

theorem step_obeys {i : Instruction} (h : m.upcoming = some i) :
    (m.step keys random).machine = m.obey keys random i := by
  rw [step_upcoming keys random h, obey]

theorem step_step_obeys (keys' : Keys) (random' : RandomBytes) {i j : Instruction}
    (h : m.upcoming = some i) (h' : (m.obey keys random i).upcoming = some j) :
    ((m.step keys random).machine.step keys' random').machine =
      (m.obey keys random i).obey keys' random' j := by
  rw [step_obeys keys random h, step_obeys keys' random' h']

/-- Only a running machine touches its call stack: a return pops the program counter from it, and a
call pushes the address of the next instruction. -/
theorem step_stack :
    (m.step keys random).machine.stack = m.stack ∨
    (m.keyWait = none ∧ .decode (m.memory.word m.pc) = Instruction.ret ∧ m.stack.pop? =
      some ((m.step keys random).machine.pc, (m.step keys random).machine.stack)) ∨
    (m.keyWait = none ∧ ∃ a, .decode (m.memory.word m.pc) = Instruction.call a ∧
      m.stack.push? (next m.pc) = some (m.step keys random).machine.stack) := by
  cases hw : m.keyWait with
  | some x =>
    rw [step_waiting keys random hw]
    rcases m.poll_machine keys x with hp | ⟨key, hp⟩
    · exact Or.inl (by rw [hp])
    · exact Or.inl (by rw [hp])
  | none =>
    rw [step_running keys random hw]
    rcases execute_stack { m with pc := next m.pc } keys random (.decode (m.memory.word m.pc))
      with hs | ⟨hi, hs⟩ | ⟨a, hi, hs⟩
    · exact Or.inl hs
    · exact Or.inr (Or.inl ⟨rfl, hi, hs⟩)
    · exact Or.inr (Or.inr ⟨rfl, a, hi, hs⟩)

theorem step_call {a : UInt16} {stack : CallStack} (h : m.keyWait = none)
    (hi : .decode (m.memory.word m.pc) = Instruction.call a)
    (hs : m.stack.push? (next m.pc) = some stack) : (m.step keys random).machine.stack = stack := by
  simp only [step_running keys random h, hi, execute, hs]

def Outcome.map (f : Machine → Machine) (o : Outcome) : Outcome := { o with machine := f o.machine }

/-- A change to a machine that is not noticed where words are fetched, subroutines are called and keys
are looked for. -/
structure Aside (f : Machine → Machine) : Prop where
  keyWait_eq : ∀ m, (f m).keyWait = m.keyWait
  memory_eq : ∀ m, (f m).memory = m.memory
  stack_eq : ∀ m, (f m).stack = m.stack
  goto : ∀ m address, f { m with pc := address } = { f m with pc := address }
  unwind : ∀ m address stack, f { m with pc := address, stack := stack } =
    { f m with pc := address, stack := stack }
  resume : ∀ m x key, f { m with v := m.v.set x key, keyWait := none } =
    { f m with v := (f m).v.set x key, keyWait := none }

namespace Aside
variable {f : Machine → Machine} (h : Aside f)
include h

theorem pc_eq (m : Machine) : (f m).pc = m.pc := by
  have hgoto := congrArg Machine.pc (h.goto m m.pc)
  exact hgoto

theorem skipIf (m : Machine) (condition : Bool) :
    (f m).skipIf condition = f (m.skipIf condition) := by
  cases condition with
  | false => rfl
  | true =>
    simp only [Machine.skipIf, h.pc_eq, if_true]
    exact (h.goto m (next m.pc)).symm

theorem ret (m : Machine) (keys : Keys) (random random' : RandomBytes) :
    (f m).execute keys random .ret = (m.execute keys random' .ret).map f := by
  simp only [execute, h.stack_eq, h.pc_eq]
  cases m.stack.pop? with
  | none => rfl
  | some top => exact congrArg (Outcome.mk · [] []) (h.unwind m top.1 top.2).symm

theorem call (m : Machine) (keys : Keys) (random random' : RandomBytes) (address : UInt16) :
    (f m).execute keys random (.call address) = (m.execute keys random' (.call address)).map f := by
  have hpush : (f m).stack.push? (f m).pc = m.stack.push? m.pc := by rw [h.stack_eq, h.pc_eq]
  simp only [execute, hpush]
  cases m.stack.push? m.pc with
  | none =>
    have hgoto := h.goto m address
    simp only [Outcome.map, hgoto, h.pc_eq]
  | some stack => exact congrArg (Outcome.mk · [] []) (h.unwind m address stack).symm

theorem poll (m : Machine) (keys : Keys) (x : UInt8) :
    (f m).poll keys x = (m.poll keys x).map f := by
  unfold Machine.poll
  cases padKeys.find? keys with
  | none => rfl
  | some key => simp only [Outcome.map, h.resume]

/-- Such a change goes through a step if it goes through the instruction that the step executes. -/
theorem step {m : Machine} {keys : Keys} {random random' : RandomBytes}
    (hexecute : ∀ m' i, m.upcoming = some i →
      (f m').execute keys random i = (m'.execute keys random' i).map f) :
    (f m).step keys random = (m.step keys random').map f := by
  cases hw : m.keyWait with
  | some x =>
    have hw' : (f m).keyWait = some x := (h.keyWait_eq m).trans hw
    rw [step_waiting keys random hw', step_waiting keys random' hw]
    exact h.poll m keys x
  | none =>
    have hw' : (f m).keyWait = none := (h.keyWait_eq m).trans hw
    have hword : (f m).memory.word m.pc = m.memory.word m.pc := by rw [h.memory_eq]
    have hexecuted := hexecute { m with pc := next m.pc } _ (upcoming_eq_some.mpr ⟨hw, rfl⟩)
    rw [h.goto] at hexecuted
    rw [step_fetching keys random hw', step_fetching keys random' hw, h.pc_eq, hword]
    simp only [hexecuted]
    rfl

end Aside

end Chip8.Machine
