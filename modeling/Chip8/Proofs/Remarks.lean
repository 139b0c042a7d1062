import Chip8.Proofs.Polling
import Chip8.Proofs.Restart
import Chip8.Proofs.Subroutine

/-!
# Remarks

What a single operation reports. A step that executes an instruction tells the word that it fetched, and then makes
at most one remark about the instruction: that a call or a return went wrong, that a key is awaited, or that the
word is not known. A waiting step tells nothing but the key that ends the wait, and what is not a step tells
nothing, but for resets, of which nothing is said here.
-/

namespace Chip8
set_option autoImplicit false

namespace Instruction
variable {i : Instruction} {pc : UInt16} {depth : Nat} {ev : Event}

/-- The remark about an instruction that is executed when the program counter has moved on to `pc` and `depth`
addresses are on the stack. -/
def remark (pc : UInt16) (depth : Nat) : Instruction → Option Event
  | ret => if depth = 0 then some (.returnIgnored pc) else none
  | call _ => if depth = 16 then some (.returnDropped pc) else none
  | awaitKey x => some (.waiting x)
  | unknown word => some (.unknownIgnored word)
  | _ => none

theorem remark_cases (h : i.remark pc depth = some ev) :
    ev = .returnIgnored pc ∨ ev = .returnDropped pc ∨ (∃ word, ev = .unknownIgnored word) ∨
      ∃ x, i = .awaitKey x ∧ ev = .waiting x := by
  cases i with
  | ret =>
    obtain ⟨_, hev⟩ := Option.ite_none_right_eq_some.mp h
    exact Or.inl (Option.some.inj hev).symm
  | call a =>
    obtain ⟨_, hev⟩ := Option.ite_none_right_eq_some.mp h
    exact Or.inr (Or.inl (Option.some.inj hev).symm)
  | unknown word =>
    obtain rfl := Option.some.inj h
    exact Or.inr (Or.inr (Or.inl ⟨word, rfl⟩))
  | awaitKey x =>
    obtain rfl := Option.some.inj h
    exact Or.inr (Or.inr (Or.inr ⟨x, rfl, rfl⟩))
  | _ => cases h

theorem remark_level (h : i.remark pc depth = some ev) : ev.level = .debug := by
  rcases remark_cases h with rfl | rfl | ⟨word, rfl⟩ | ⟨x, _, rfl⟩ <;> rfl

end Instruction

theorem Event.line_of_level {ev : Event} {level : Level} (h : ev.level = level) :
    ev.record.line = level.label ++ " " ++ ev.message := by
  rw [← h]
  rfl

namespace CallStack
variable {s : CallStack}

theorem push?_eq_none (h : s.depth = 16) (address : UInt16) : s.push? address = none := by
  have hfull : ¬ s.depth < stackSize := by
    rw [h]
    exact Nat.lt_irrefl 16
  simp only [push?, hfull, dite_false]

theorem pop?_eq_none (h : s.depth = 0) : s.pop? = none := by
  simp only [pop?, h, if_true]

theorem pop?_of_pos (h : s.depth ≤ stackSize) (hpos : s.depth ≠ 0) :
    ∃ address, s.pop? = some (address, { s with depth := s.depth - 1 }) := by
  have hlt : s.depth - 1 < stackSize := by omega
  refine ⟨s.slots[s.depth - 1], ?_⟩
  simp [pop?, hpos, hlt]

end CallStack

namespace Machine
variable {m : Machine} (keys : Keys) (random : RandomBytes)

theorem execute_events (h : m.stack.depth ≤ stackSize) (i : Instruction) :
    (m.execute keys random i).events = (i.remark m.pc m.stack.depth).toList := by
  cases i with
  | ret =>
    by_cases hempty : m.stack.depth = 0
    · simp [execute, Instruction.remark, CallStack.pop?_eq_none hempty, hempty]
    · obtain ⟨address, hpop⟩ := CallStack.pop?_of_pos h hempty
      simp [execute, Instruction.remark, hpop, hempty]
  | call a =>
    by_cases hfull : m.stack.depth = 16
    · simp [execute, Instruction.remark, CallStack.push?_eq_none hfull, hfull]
    · have hroom : m.stack.depth < stackSize := Nat.lt_of_le_of_ne h hfull
      simp [execute, Instruction.remark, CallStack.push?_eq_of_lt hroom, hfull]
  | _ => rfl

theorem step_events {i : Instruction} (h : m.upcoming = some i) (hdepth : m.stack.depth ≤ stackSize) :
    (m.step keys random).events = .fetched m.pc (m.memory.word m.pc) ::
      (i.remark (next m.pc) m.stack.depth).toList := by
  rw [step_upcoming keys random h]
  simp only [execute_events (m := { m with pc := next m.pc }) keys random hdepth]

end Machine

namespace Emulator.Moment

def events (random : RandomBytes) (x : Moment) : List Event := (x.emulator.reports random x.op).2

def lines (v : Verbosity) (random : RandomBytes) (x : Moment) : List String :=
  Record.lines v ((x.events random).map Event.record)

/-- What is reported at a moment, unless it is a reset, and printed if everything is. -/
structure Tells (random : RandomBytes) (x : Moment) : Prop where
  running : ∀ keys i, x.op = .step keys → x.emulator.machine.upcoming = some i →
    let m := x.emulator.machine
    let word := m.memory.word m.pc
    let remark := (i.remark (Machine.next m.pc) m.stack.depth).toList
    x.events random = .fetched m.pc word :: remark ∧
      x.lines (.upTo .trace) random =
        ("TRACE " ++
          s!"{Hexadecimal.padded 3 m.pc.toNat}: {Hexadecimal.padded 4 word.toNat} {i.mnemonic}") ::
        remark.map fun ev => "DEBUG " ++ ev.message
  waiting : ∀ keys register, x.op = .step keys → x.emulator.machine.keyWait = some register →
    (keys.Idle ∧ x.events random = [] ∧ x.lines (.upTo .trace) random = []) ∨
      ∃ key, keys.Lowest key ∧ x.events random = [.resumed key register] ∧
        x.lines (.upTo .trace) random = ["DEBUG " ++ (Event.resumed key register).message]
  other : x.op = .tick ∨ x.op = .clearDirty →
    x.events random = [] ∧ x.lines (.upTo .trace) random = []

theorem lines_trace (random : RandomBytes) (x : Moment) :
    x.lines (.upTo .trace) random = (x.events random).map fun ev => ev.record.line := by
  have hall : ∀ r ∈ (x.events random).map Event.record,
      (Verbosity.upTo .trace).allows r.level = true := by
    intro r _
    cases r.level <;> rfl
  rw [lines, Record.lines, List.filter_eq_self.mpr hall, List.map_map]
  rfl

theorem tells {e : Emulator} (h : e.machine.stack.depth ≤ stackSize) (random : RandomBytes)
    (op : Operation) : Tells random ⟨e, op⟩ where
  running := by
    rintro keys i rfl hi
    have hevents := Machine.step_events keys random hi h
    refine ⟨hevents, ?_⟩
    obtain ⟨_, rfl⟩ := Machine.upcoming_eq_some.mp hi
    have hremark : ∀ ev ∈ (Instruction.remark (Machine.next e.machine.pc) e.machine.stack.depth
        (.decode (e.machine.memory.word e.machine.pc))).toList,
        ev.record.line = "DEBUG " ++ ev.message := by
      intro ev hev
      exact Event.line_of_level (Instruction.remark_level (Option.mem_toList.mp hev))
    rw [lines_trace]
    refine (congrArg _ hevents).trans ?_
    rw [List.map_cons, List.map_congr_left hremark]
    rfl
  waiting := by
    rintro keys register rfl hw
    have hevents : Moment.events random ⟨e, .step keys⟩ = (e.machine.poll keys register).events :=
      congrArg Machine.Outcome.events (Machine.step_waiting keys random hw)
    rw [lines_trace, hevents]
    rcases Machine.idle_or_lowest keys with hidle | ⟨key, hkey⟩
    · rw [Machine.poll_idle _ _ hidle]
      exact Or.inl ⟨hidle, rfl, rfl⟩
    · rw [Machine.poll_lowest _ _ hkey]
      exact Or.inr ⟨key, hkey, rfl, rfl⟩
  other := by
    rintro (rfl | rfl)
    · exact ⟨rfl, rfl⟩
    · exact ⟨rfl, rfl⟩

end Emulator.Moment
end Chip8
