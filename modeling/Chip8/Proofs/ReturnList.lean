import Chip8.Proofs.Effects
import Chip8.Proofs.Subroutine

/-!
# Return addresses as a list

A second machine, in which a list of at most sixteen return addresses stands for the slots of the call
stack and their number. It calls and returns by adding to the front of the list and taking from there,
and does everything else as the first machine does with an empty call stack. The two go together through
every session: they are in the same state but for the stack, of which the slots in use hold the list,
and they ask and report the same. So what is left in the other slots is never seen.
-/

namespace Chip8
set_option autoImplicit false

/-- The last address pushed stands first. -/
structure ReturnList where
  addresses : List UInt16
  length_le : addresses.length ≤ stackSize

namespace ReturnList

def empty : ReturnList := ⟨[], Nat.zero_le _⟩

def push? (l : ReturnList) (address : UInt16) : Option ReturnList :=
  if h : l.addresses.length < stackSize then some ⟨address :: l.addresses, h⟩ else none

def pop? : ReturnList → Option (UInt16 × ReturnList)
  | ⟨[], _⟩ => none
  | ⟨address :: addresses, h⟩ => some (address, ⟨addresses, Nat.le_of_succ_le h⟩)

end ReturnList

/-- All of a machine but its call stack. -/
structure Core where
  v : Registers
  i : UInt16
  pc : UInt16
  memory : Memory
  screen : Screen
  delay : Timer
  sound : Timer
  keyWait : Option UInt8
  draws : Nat
  deriving DecidableEq

def Machine.core (m : Machine) : Core where
  v := m.v
  i := m.i
  pc := m.pc
  memory := m.memory
  screen := m.screen
  delay := m.delay
  sound := m.sound
  keyWait := m.keyWait
  draws := m.draws

def Core.machine (c : Core) (stack : CallStack) : Machine where
  v := c.v
  i := c.i
  pc := c.pc
  stack := stack
  memory := c.memory
  screen := c.screen
  delay := c.delay
  sound := c.sound
  keyWait := c.keyWait
  draws := c.draws

structure ListMachine where
  core : Core
  returns : ReturnList

namespace ListMachine

structure Outcome where
  machine : ListMachine
  polled : List UInt8 := []
  events : List Event := []

def start (memory : Memory) (draws : Nat) : ListMachine :=
  ⟨(Machine.start memory draws).core, .empty⟩

def goto (a : ListMachine) (address : UInt16) : ListMachine :=
  { a with core := { a.core with pc := address } }

/-- What a machine does with an empty call stack. -/
def apart (a : ListMachine) (f : Machine → Machine.Outcome) : Outcome :=
  let o := f (a.core.machine .empty)
  ⟨⟨o.machine.core, a.returns⟩, o.polled, o.events⟩

def execute (a : ListMachine) (keys : Keys) (random : RandomBytes) : Instruction → Outcome
  | .ret =>
    match a.returns.pop? with
    | some (address, returns) => { machine := { a with returns := returns }.goto address }
    | none => { machine := a, events := [.returnIgnored a.core.pc] }
  | .call address =>
    match a.returns.push? a.core.pc with
    | some returns => { machine := { a with returns := returns }.goto address }
    | none => { machine := a.goto address, events := [.returnDropped a.core.pc] }
  | i => a.apart fun m => m.execute keys random i

def step (a : ListMachine) (keys : Keys) (random : RandomBytes) : Outcome :=
  match a.core.keyWait with
  | some x => a.apart fun m => m.poll keys x
  | none =>
    let address := a.core.pc
    let word := a.core.memory.word address
    let o := (a.goto (Machine.next address)).execute keys random (.decode word)
    { o with events := .fetched address word :: o.events }

def perform (random : RandomBytes) (a : ListMachine) : Machine.Operation → Outcome
  | .step keys => a.step keys random
  | .reset memory => { machine := start memory a.core.draws }
  | op => a.apart fun m => m.perform random op

def after (random : RandomBytes) (a : ListMachine) (ops : List Machine.Operation) : ListMachine :=
  ops.foldl (fun a op => (a.perform random op).machine) a

end ListMachine

/-- The addresses in the slots in use, the last one pushed first. -/
def CallStack.addresses (s : CallStack) : List UInt16 := (s.slots.toList.take s.depth).reverse

structure CallStack.Holds (s : CallStack) (l : ReturnList) : Prop where
  depth_eq : s.depth = l.addresses.length
  addresses_eq : s.addresses = l.addresses

structure Machine.Refines (m : Machine) (a : ListMachine) : Prop where
  core_eq : m.core = a.core
  stack : m.stack.Holds a.returns

structure Machine.Outcome.Refines (o : Machine.Outcome) (o' : ListMachine.Outcome) : Prop where
  machine : o.machine.Refines o'.machine
  polled_eq : o.polled = o'.polled
  events_eq : o.events = o'.events

namespace CallStack
variable {s t : CallStack} {l : ReturnList}

theorem empty_holds : empty.Holds .empty := ⟨rfl, rfl⟩

theorem Holds.depth_le (h : s.Holds l) : s.depth ≤ stackSize := by
  rw [h.depth_eq]
  exact l.length_le

theorem Holds.push? (h : s.Holds l) (address : UInt16) :
    Option.Rel Holds (s.push? address) (l.push? address) := by
  by_cases hroom : s.depth < stackSize
  · have hroom' : l.addresses.length < stackSize := h.depth_eq ▸ hroom
    simp only [CallStack.push?, hroom, ReturnList.push?, hroom', dite_true]
    refine .some ⟨congrArg Nat.succ h.depth_eq, ?_⟩
    simp only [CallStack.addresses, Vector.toList_set, List.take_add_one, List.take_set_of_le (Nat.le_refl _)]
    rw [← h.addresses_eq]
    simp [CallStack.addresses, hroom]
  · have hfull : ¬ l.addresses.length < stackSize := h.depth_eq ▸ hroom
    simp only [CallStack.push?, hroom, ReturnList.push?, hfull, dite_false]
    exact .none

theorem Holds.pop? (h : s.Holds l) :
    Option.Rel (fun x y => x.1 = y.1 ∧ x.2.Holds y.2) s.pop? l.pop? := by
  have hle := h.depth_le
  have hdepth := h.depth_eq
  have haddresses := h.addresses_eq
  rcases l with ⟨_ | ⟨address, addresses⟩, hlength⟩
  · simp only [List.length_nil] at hdepth
    simp only [CallStack.pop?, hdepth, if_true]
    exact .none
  · simp only [List.length_cons] at hdepth
    have htop : addresses.length < stackSize := by omega
    simp only [CallStack.addresses, hdepth] at haddresses
    rw [List.take_succ_eq_append_getElem (by simpa using htop), List.reverse_append] at haddresses
    obtain ⟨hfirst, hrest⟩ := List.cons.inj haddresses
    have hpop : s.pop? = some (address, { s with depth := addresses.length }) := by
      simp [CallStack.pop?, hdepth, htop, ← hfirst]
    rw [hpop]
    exact .some ⟨rfl, rfl, hrest⟩

theorem addresses_length (h : s.depth ≤ stackSize) : s.addresses.length = s.depth := by
  simp [addresses, h]

theorem UnwoundTo.addresses_eq (h : t.UnwoundTo s) : t.addresses = s.addresses := by
  have htake : t.slots.toList.take t.depth = s.slots.toList.take s.depth := by
    rw [h.depth_eq]
    apply List.ext_getElem?
    intro k
    rw [List.getElem?_take, List.getElem?_take]
    split
    · rename_i hk
      simpa using h.below_eq k hk
    · rfl
  exact congrArg List.reverse htake

theorem Holds.unwoundTo (h : s.Holds l) (h' : t.Holds l) : t.UnwoundTo s where
  depth_eq := h'.depth_eq.trans h.depth_eq.symm
  below_eq := by
    intro k hk
    have hdepth : t.depth = s.depth := h'.depth_eq.trans h.depth_eq.symm
    have htake : t.slots.toList.take s.depth = s.slots.toList.take s.depth := by
      rw [← hdepth, ← List.reverse_inj]
      simpa only [CallStack.addresses, hdepth] using h'.addresses_eq.trans h.addresses_eq.symm
    have hslot := congrArg (fun slots => slots[k]?) htake
    simpa [List.getElem?_take_of_lt hk] using hslot

end CallStack

namespace Machine

/-- What `f` does has nothing to do with the call stack. -/
def Unstacked (f : Machine → Outcome) : Prop :=
  ∀ (c : Core) (s : CallStack), f (c.machine s) =
    { f (c.machine .empty) with machine := (f (c.machine .empty)).machine.core.machine s }

variable (keys : Keys) (random : RandomBytes)

theorem skipIf_machine (c : Core) (s : CallStack) (condition : Bool) :
    (c.machine s).skipIf condition = ((c.machine .empty).skipIf condition).core.machine s := by
  cases condition with
  | false => rfl
  | true => rfl

theorem execute_unstacked {i : Instruction} (hret : i ≠ .ret) (hcall : ∀ a, i ≠ .call a) :
    Unstacked fun m => m.execute keys random i := by
  intro c s
  cases i with
  | ret => exact absurd rfl hret
  | call a => exact absurd rfl (hcall a)
  | skipEqByte | skipNeByte | skipEq | skipNe | skipKeyDown | skipKeyUp =>
    simp only [execute, skipIf_machine c s]
    rfl
  | _ => rfl

theorem poll_unstacked (x : UInt8) : Unstacked fun m => m.poll keys x := by
  intro c s
  simp only [poll]
  cases padKeys.find? keys with
  | none => rfl
  | some key => rfl

theorem perform_unstacked {op : Operation} (hstep : ∀ keys, op ≠ .step keys)
    (hreset : ∀ memory, op ≠ .reset memory) : Unstacked fun m => m.perform random op := by
  intro c s
  cases op with
  | step keys => exact absurd rfl (hstep keys)
  | reset memory => exact absurd rfl (hreset memory)
  | setPixel x y on =>
    simp only [perform, Core.machine]
    cases c.screen.setPixel x y on with
    | error cause => rfl
    | ok screen => rfl
  | _ => rfl

variable {m : Machine} {a : ListMachine}

theorem Refines.goto (h : m.Refines a) (address : UInt16) :
    { m with pc := address }.Refines (a.goto address) := by
  refine ⟨?_, h.stack⟩
  rw [ListMachine.goto, ← h.core_eq]
  rfl

theorem Refines.restack (h : m.Refines a) {s : CallStack} {l : ReturnList} (hs : s.Holds l) :
    { m with stack := s }.Refines { a with returns := l } :=
  ⟨h.core_eq, hs⟩

theorem Refines.apart (h : m.Refines a) {f : Machine → Outcome} (hf : Unstacked f) :
    (f m).Refines (a.apart f) := by
  have hm : f (m.core.machine m.stack) = _ := hf m.core m.stack
  rw [h.core_eq] at hm
  have hcore : m = a.core.machine m.stack := by
    rw [← h.core_eq]
    rfl
  rw [hcore, hm]
  exact ⟨⟨rfl, h.stack⟩, rfl, rfl⟩

theorem Refines.execute (h : m.Refines a) (i : Instruction) :
    (m.execute keys random i).Refines (a.execute keys random i) := by
  have hpc : m.pc = a.core.pc := congrArg Core.pc h.core_eq
  cases i with
  | ret =>
    have hpop := h.stack.pop?
    simp only [Machine.execute, ListMachine.execute, hpc]
    generalize m.stack.pop? = top, a.returns.pop? = top' at hpop ⊢
    cases hpop with
    | none => exact ⟨h, rfl, rfl⟩
    | @some x y htop =>
      obtain ⟨address, s⟩ := x
      obtain ⟨haddress, hs⟩ := htop
      simp only at haddress
      subst haddress
      exact ⟨(h.restack hs).goto _, rfl, rfl⟩
  | call address =>
    have hpush := h.stack.push? m.pc
    simp only [Machine.execute, ListMachine.execute, hpc] at hpush ⊢
    generalize m.stack.push? a.core.pc = pushed, a.returns.push? a.core.pc = pushed' at hpush ⊢
    cases hpush with
    | none => exact ⟨h.goto _, rfl, rfl⟩
    | some hs => exact ⟨(h.restack hs).goto _, rfl, rfl⟩
  | _ => exact h.apart (execute_unstacked keys random (by simp) (by simp))

theorem Refines.step (h : m.Refines a) : (m.step keys random).Refines (a.step keys random) := by
  have hpc : m.pc = a.core.pc := congrArg Core.pc h.core_eq
  have hwait : m.keyWait = a.core.keyWait := congrArg Core.keyWait h.core_eq
  have hword : m.memory.word m.pc = a.core.memory.word a.core.pc :=
    congrArg (fun c => c.memory.word c.pc) h.core_eq
  cases hw : m.keyWait with
  | some x =>
    rw [step_waiting keys random hw]
    rw [hwait] at hw
    simp only [ListMachine.step, hw]
    exact h.apart (poll_unstacked keys x)
  | none =>
    rw [step_fetching keys random hw, hword, hpc]
    rw [hwait] at hw
    simp only [ListMachine.step, hw]
    have hexecuted := (h.goto (next a.core.pc)).execute keys random
      (.decode (a.core.memory.word a.core.pc))
    exact ⟨hexecuted.machine, hexecuted.polled_eq, congrArg (List.cons _) hexecuted.events_eq⟩

theorem Refines.perform (h : m.Refines a) (op : Operation) :
    (m.perform random op).Refines (a.perform random op) := by
  cases op with
  | step keys => exact h.step keys random
  | reset memory =>
    have hdraws : m.draws = a.core.draws := congrArg Core.draws h.core_eq
    simp only [Machine.perform, ListMachine.perform, Machine.reset, hdraws]
    exact ⟨⟨rfl, CallStack.empty_holds⟩, rfl, rfl⟩
  | _ => exact h.apart (perform_unstacked random (by simp) (by simp))

theorem Refines.after (h : m.Refines a) (ops : List Operation) :
    (m.after random ops).Refines (a.after random ops) := by
  induction ops generalizing m a with
  | nil => exact h
  | cons op ops ih => exact ih (h.perform random op).machine

theorem start_refines (memory : Memory) (draws : Nat) :
    (start memory draws).Refines (.start memory draws) :=
  ⟨rfl, CallStack.empty_holds⟩

/-- The slots that are not in use do not matter. -/
theorem exists_refines (hdepth : m.stack.depth ≤ stackSize) : ∃ a, ∀ m' : Machine,
    m'.core = m.core → m'.stack.UnwoundTo m.stack → m'.Refines a := by
  have hlength := CallStack.addresses_length hdepth
  refine ⟨⟨m.core, ⟨m.stack.addresses, by omega⟩⟩, ?_⟩
  intro m' hcore hstack
  exact ⟨hcore, hstack.depth_eq.trans hlength.symm, hstack.addresses_eq⟩

end Machine

/-- In every session a machine goes together with the one that keeps its return addresses in a list. So
two machines that differ only in slots beyond the depth of their stacks are in every session the same but
for such slots, with the same answers and reports. -/
theorem session_refines_list {rom : Rom} {draws : Nat} {e : Emulator} {events : List Event}
    (h : Emulator.start rom draws = .ok (e, events)) (random : RandomBytes) :
    (∃ memory, Memory.blank.load rom = .ok memory ∧ ∀ ops, ∃ e', e.after random ops = .ok e' ∧
      ∃ a, a = (ListMachine.start memory draws).after random
          (ops.map (Emulator.Operation.onMachine memory)) ∧
        e'.machine.Refines a ∧ ∀ keys, (e'.machine.step keys random).Refines (a.step keys random)) ∧
    (∀ memory ops op, (((Machine.start memory draws).after random ops).perform random op).Refines
      (((ListMachine.start memory draws).after random ops).perform random op)) ∧
    (∀ m m' : Machine, m.stack.depth ≤ stackSize → m'.core = m.core →
      m'.stack.UnwoundTo m.stack → ∀ ops,
      (m'.after random ops).core = (m.after random ops).core ∧
      (m'.after random ops).stack.UnwoundTo (m.after random ops).stack ∧
      ∀ op, ((m'.after random ops).perform random op).polled =
          ((m.after random ops).perform random op).polled ∧
        ((m'.after random ops).perform random op).events =
          ((m.after random ops).perform random op).events) := by
  refine ⟨?_, ?_, ?_⟩
  · obtain ⟨memory, hload, rfl, _⟩ := Emulator.start_eq_ok h
    refine ⟨memory, hload, ?_⟩
    intro ops
    obtain ⟨e', he', _, hmachine⟩ :=
      Emulator.after_eq_ok (e := ⟨.start memory draws, rom, true⟩) hload random ops
    have hrefines := (Machine.start_refines memory draws).after random
      (ops.map (Emulator.Operation.onMachine memory))
    rw [← hmachine] at hrefines
    exact ⟨e', he', _, rfl, hrefines, fun keys => hrefines.step keys random⟩
  · intro memory ops op
    exact ((Machine.start_refines memory draws).after random ops).perform random op
  · intro m m' hdepth hcore hstack ops
    obtain ⟨a, ha⟩ := Machine.exists_refines hdepth
    have hm := (ha m rfl ⟨rfl, fun _ _ => rfl⟩).after random ops
    have hm' := (ha m' hcore hstack).after random ops
    refine ⟨hm'.core_eq.trans hm.core_eq.symm, hm.stack.unwoundTo hm'.stack, ?_⟩
    intro op
    have hop := hm.perform random op
    have hop' := hm'.perform random op
    exact ⟨hop'.polled_eq.trans hop.polled_eq.symm, hop'.events_eq.trans hop.events_eq.symm⟩

/-- The ROM calls its own return, returns once more and then calls its last instruction from there for
ever. -/
def descending : Rom := #[0x22, 0x02, 0x00, 0xEE, 0x22, 0x04]

/-- One return is matched, the next finds nothing, and of seventeen calls the last is dropped. -/
def descent : List Emulator.Operation := .replicate 20 (.step fun _ => false)

/-- No address is in use, but every slot has one. -/
def littered : CallStack := ⟨.replicate stackSize 0xABC, 0⟩

theorem session_refines_list_of_descending :
    ∃ e events, Emulator.start descending 0 = .ok (e, events) ∧
      ((e.after (fun _ => 0) descent).toOption.map fun e =>
        (e.machine.pc, e.machine.stack)) = some (0x204, ⟨.replicate stackSize 0x206, 16⟩) ∧
      (∃ memory, Memory.blank.load descending = .ok memory ∧ ∃ e',
        e.after (fun _ => 0) descent = .ok e' ∧
        ∃ a, a = (ListMachine.start memory 0).after (fun _ => 0)
            (descent.map (Emulator.Operation.onMachine memory)) ∧
          e'.machine.Refines a ∧
          ∀ keys, (e'.machine.step keys fun _ => 0).Refines (a.step keys fun _ => 0)) ∧
      ∀ memory ops,
        (({ Machine.start memory 0 with stack := littered } : Machine).after (fun _ => 0) ops).core =
        ((Machine.start memory 0).after (fun _ => 0) ops).core := by
  obtain ⟨hlist, _, hslots⟩ := @session_refines_list descending 0 _ _ rfl fun _ => 0
  obtain ⟨memory, hload, hsession⟩ := hlist
  refine ⟨_, _, rfl, by decide +kernel, ⟨memory, hload, hsession _⟩, ?_⟩
  intro memory ops
  have hstack : littered.UnwoundTo (Machine.start memory 0).stack := by
    refine ⟨rfl, ?_⟩
    intro k hk
    exact absurd hk (Nat.not_lt_zero k)
  exact (hslots (.start memory 0) { Machine.start memory 0 with stack := littered } (Nat.zero_le _)
    rfl hstack ops).1

end Chip8
