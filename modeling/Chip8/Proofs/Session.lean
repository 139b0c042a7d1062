import Chip8.Emulator
import Mathlib.Data.List.Forall2

/-!
# Sessions

What can be done to a machine or to an emulator from outside, and where a list of such operations
leads. A bare machine hands out its screen, so that it can also be drawn on, and is started again
around any memory. An emulator is only stepped, ticked, marked as shown and started again from its
own ROM: a session of an emulator is a session of its machine, whatever is done in which order.
-/

namespace Chip8
set_option autoImplicit false

namespace Machine

inductive Operation where
  | step (keys : Keys)
  | tick
  | clearDirty
  | reset (memory : Memory)
  | clearScreen
  | drawSprite (x y : UInt8) (rows : List UInt8)
  /-- Coordinates that name no cell leave everything as it was. -/
  | setPixel (x y : UInt64) (on : Bool)

def perform (random : RandomBytes) (m : Machine) : Operation → Outcome
  | .step keys => m.step keys random
  | .tick => { machine := m.tick }
  | .clearDirty => { machine := m.clearDirty }
  | .reset memory => { machine := m.reset memory }
  | .clearScreen => { machine := { m with screen := m.screen.clear } }
  | .drawSprite x y rows => { machine := { m with screen := (m.screen.draw x y rows).1 } }
  | .setPixel x y on =>
    match m.screen.setPixel x y on with
    | .ok screen => { machine := { m with screen := screen } }
    | .error _ => { machine := m }

def after (random : RandomBytes) (m : Machine) (ops : List Operation) : Machine :=
  ops.foldl (fun m op => (m.perform random op).machine) m

/-- Where a session leads, with all that was asked and reported on the way. -/
def performAll (random : RandomBytes) (m : Machine) : List Operation → Outcome
  | [] => { machine := m }
  | op :: ops =>
    let o := m.perform random op
    let rest := o.machine.performAll random ops
    ⟨rest.machine, o.polled ++ rest.polled, o.events ++ rest.events⟩

def outcomes (random : RandomBytes) (m : Machine) : List Operation → List Outcome
  | [] => []
  | op :: ops =>
    let o := m.perform random op
    o :: o.machine.outcomes random ops

/-- Related machines, with the same keys asked about and the same reports. -/
structure Outcome.Alike (R : Machine → Machine → Prop) (o o' : Outcome) : Prop where
  machine : R o.machine o'.machine
  polled_eq : o'.polled = o.polled
  events_eq : o'.events = o.events

section After
variable (random : RandomBytes) (m : Machine) (op : Operation) (ops more : List Operation)

@[simp] theorem after_cons :
    m.after random (op :: ops) = (m.perform random op).machine.after random ops := rfl

@[simp] theorem after_append :
    m.after random (ops ++ more) = (m.after random ops).after random more :=
  List.foldl_append

end After

/-- What every operation keeps, a session keeps. -/
theorem after_keeps {P : Machine → Prop} {random : RandomBytes}
    (keep : ∀ m op, P m → P (m.perform random op).machine)
    {m : Machine} (h : P m) (ops : List Operation) : P (m.after random ops) := by
  induction ops generalizing m with
  | nil => exact h
  | cons op ops ih => exact ih (keep m op h)

/-- Two sessions go side by side if their operations, made on related machines, have like outcomes. -/
theorem outcomes_alike {R : Machine → Machine → Prop} {S : Operation → Operation → Prop}
    {random : RandomBytes}
    (like : ∀ m m' op op', R m m' → S op op' →
      (m.perform random op).Alike R (m'.perform random op'))
    {m m' : Machine} (h : R m m') {ops ops' : List Operation} (hops : List.Forall₂ S ops ops') :
    List.Forall₂ (Outcome.Alike R) (m.outcomes random ops) (m'.outcomes random ops') := by
  induction hops generalizing m m' with
  | nil => exact .nil
  | cons hop _ ih =>
    have hout := like _ _ _ _ h hop
    exact .cons hout (ih hout.machine)

end Machine

namespace Emulator

inductive Operation where
  | step (keys : Keys)
  | tick
  | clearDirty
  | reset

def Operation.isStep : Operation → Bool
  | .step _ => true
  | _ => false

def Operation.isTick : Operation → Bool
  | .tick => true
  | _ => false

def Operation.isReset : Operation → Bool
  | .reset => true
  | _ => false

/-- One operation. Starting again fails if the ROM does not fit. -/
def perform (random : RandomBytes) (e : Emulator) : Operation → Except RomError Emulator
  | .step keys => .ok (e.step keys random).1
  | .tick => .ok e.tick
  | .clearDirty => .ok e.clearDirty
  | .reset => e.reset.map Prod.fst

def after (random : RandomBytes) (e : Emulator) : List Operation → Except RomError Emulator
  | [] => .ok e
  | op :: ops =>
    match e.perform random op with
    | .ok e => e.after random ops
    | .error cause => .error cause

/-- The same operation on the machine, where the ROM loads into `memory`. -/
def Operation.onMachine (memory : Memory) : Operation → Machine.Operation
  | .step keys => .step keys
  | .tick => .tick
  | .clearDirty => .clearDirty
  | .reset => .reset memory

theorem start_eq_ok {rom : Rom} {draws : Nat} {e : Emulator} {events : List Event}
    (h : start rom draws = .ok (e, events)) :
    ∃ memory, Memory.blank.load rom = .ok memory ∧
      e = ⟨.start memory draws, rom, true⟩ ∧ events = [.romLoaded rom.size] := by
  unfold start at h
  cases hm : Memory.blank.load rom with
  | error cause => simp [hm, bind, Except.bind] at h
  | ok memory =>
    simp only [hm, bind, Except.bind, pure, Except.pure, Except.ok.injEq, Prod.mk.injEq] at h
    exact ⟨memory, rfl, h.1.symm, h.2.symm⟩

theorem start_of_load {rom : Rom} {memory : Memory} (h : Memory.blank.load rom = .ok memory)
    (draws : Nat) :
    start rom draws = .ok (⟨.start memory draws, rom, true⟩, [.romLoaded rom.size]) := by
  simp [start, h, bind, Except.bind, pure, Except.pure]

theorem reset_eq_ok {e : Emulator} {memory : Memory} (h : Memory.blank.load e.rom = .ok memory) :
    e.reset = .ok (⟨e.machine.reset memory, e.rom, true⟩,
      [.romLoaded e.rom.size, .machineReset]) := by
  simp [reset, h, bind, Except.bind, pure, Except.pure]

theorem perform_eq_ok {e : Emulator} {memory : Memory} (h : Memory.blank.load e.rom = .ok memory)
    (random : RandomBytes) (op : Operation) :
    ∃ e', e.perform random op = .ok e' ∧ e'.rom = e.rom ∧
      e'.machine = (e.machine.perform random (op.onMachine memory)).machine := by
  cases op with
  | step keys => exact ⟨_, rfl, rfl, rfl⟩
  | tick => exact ⟨_, rfl, rfl, rfl⟩
  | clearDirty => exact ⟨_, rfl, rfl, rfl⟩
  | reset =>
    refine ⟨⟨e.machine.reset memory, e.rom, true⟩, ?_, rfl, rfl⟩
    simp [perform, reset_eq_ok h, Except.map]

/-- A session of an emulator never fails once its ROM loaded, and is a session of its machine. -/
theorem after_eq_ok {e : Emulator} {memory : Memory} (h : Memory.blank.load e.rom = .ok memory)
    (random : RandomBytes) (ops : List Operation) :
    ∃ e', e.after random ops = .ok e' ∧ e'.rom = e.rom ∧
      e'.machine = e.machine.after random (ops.map (Operation.onMachine memory)) := by
  induction ops generalizing e with
  | nil => exact ⟨e, rfl, rfl, rfl⟩
  | cons op ops ih =>
    obtain ⟨e₁, h₁, hrom, hmachine⟩ := perform_eq_ok h random op
    obtain ⟨e₂, h₂, hrom₂, hmachine₂⟩ := ih (hrom.symm ▸ h)
    refine ⟨e₂, ?_, hrom₂.trans hrom, ?_⟩
    · simpa only [after, h₁] using h₂
    · rw [hmachine₂, hmachine]
      rfl

/-- An operation of a session and the emulator that it was made on. -/
structure Moment where
  emulator : Emulator
  op : Operation

/-- The moments of a session, in order, up to the operation that fails if one does. -/
def moments (random : RandomBytes) (e : Emulator) : List Operation → List Moment
  | [] => []
  | op :: ops =>
    ⟨e, op⟩ ::
      match e.perform random op with
      | .ok e => e.moments random ops
      | .error _ => []

theorem perform_machine {random : RandomBytes} {e e' : Emulator} {op : Operation}
    (h : e.perform random op = .ok e') :
    ∃ memory, e'.machine = (e.machine.perform random (op.onMachine memory)).machine := by
  cases hload : Memory.blank.load e.rom with
  | ok memory =>
    obtain ⟨e₁, h₁, _, hmachine⟩ := perform_eq_ok hload random op
    obtain rfl := Except.ok.inj (h₁.symm.trans h)
    exact ⟨memory, hmachine⟩
  | error cause =>
    cases op with
    | reset => simp [perform, reset, hload, bind, Except.bind, Except.map] at h
    | _ =>
      obtain rfl := Except.ok.inj h
      exact ⟨.blank, rfl⟩

/-- What holds of a start and is kept by every operation holds, after any session of a ROM that loads,
of its moments and of the emulator that it leads to. -/
theorem moments_keep {P : List Moment → Emulator → Prop} (random : RandomBytes)
    (keep : ∀ xs e op e', P xs e → e.perform random op = .ok e' → P (xs ++ [⟨e, op⟩]) e')
    {e : Emulator} {memory : Memory} (hload : Memory.blank.load e.rom = .ok memory) (h : P [] e)
    (ops : List Operation) : ∃ e', e.after random ops = .ok e' ∧ P (e.moments random ops) e' := by
  suffices ∀ xs, P xs e → ∃ e', e.after random ops = .ok e' ∧ P (xs ++ e.moments random ops) e' from
    this [] h
  clear h
  induction ops generalizing e with
  | nil =>
    intro xs h
    refine ⟨e, rfl, ?_⟩
    rwa [moments, List.append_nil]
  | cons op ops ih =>
    intro xs h
    obtain ⟨e₁, h₁, hrom, _⟩ := perform_eq_ok hload random op
    obtain ⟨e', he', hP⟩ := ih (e := e₁) (hrom.symm ▸ hload) _ (keep xs e op e₁ h h₁)
    refine ⟨e', ?_, ?_⟩
    · simpa only [after, h₁] using he'
    · rwa [moments, h₁, List.append_cons]

end Emulator
end Chip8
