import Chip8.Proofs.Effects
import Chip8.Proofs.Session

/-!
# Starting again

A reset leads to the machine that the same ROM was started as, whatever was executed meanwhile; only
the random bytes are drawn on from where they were. What was drawn before touches nothing else: a
machine that starts in the middle of a stream of bytes does what a fresh one does on the rest of that
stream, with the same answers and reports. Nothing is said about ROMs that do not load.
-/

namespace Chip8
set_option autoImplicit false

def RandomBytes.drop (random : RandomBytes) (n : Nat) : RandomBytes := fun k => random (n + k)

namespace Machine

def advanced (m : Machine) (n : Nat) : Machine := { m with draws := n + m.draws }

def Outcome.advanced (o : Outcome) (n : Nat) : Outcome := { o with machine := o.machine.advanced n }

section Advanced
variable (m : Machine) (n : Nat) (keys : Keys) (random : RandomBytes)

theorem advanced_aside : Aside fun m => m.advanced n where
  keyWait_eq := fun _ => rfl
  memory_eq := fun _ => rfl
  stack_eq := fun _ => rfl
  goto := fun _ _ => rfl
  unwind := fun _ _ _ => rfl
  resume := fun _ _ _ => rfl

/-- Only the instruction that draws a byte looks at the stream, and it looks at the same byte. -/
theorem execute_advanced (i : Instruction) :
    (m.advanced n).execute keys random i = (m.execute keys (random.drop n) i).advanced n := by
  cases i with
  | skipEqByte | skipNeByte | skipEq | skipNe | skipKeyDown | skipKeyUp =>
    simp only [execute, (advanced_aside n).skipIf]
    rfl
  | ret => exact (advanced_aside n).ret m keys random _
  | call a => exact (advanced_aside n).call m keys random _ a
  | _ => rfl

theorem step_advanced :
    (m.advanced n).step keys random = (m.step keys (random.drop n)).advanced n :=
  (advanced_aside n).step fun m' i _ => m'.execute_advanced n keys random i

end Advanced

end Machine

namespace Emulator

def advanced (e : Emulator) (n : Nat) : Emulator := { e with machine := e.machine.advanced n }

/-- The keys that an operation asks about and the events that it reports. -/
def reports (random : RandomBytes) (e : Emulator) : Operation → List UInt8 × List Event
  | .step keys => (e.step keys random).2
  | .tick | .clearDirty => ([], [])
  | .reset =>
    match e.reset with
    | .ok (_, events) => ([], events)
    | .error _ => ([], [])

variable (e : Emulator) (n : Nat) (random : RandomBytes)

theorem reset_advanced :
    (e.advanced n).reset = e.reset.map fun (e, events) => (e.advanced n, events) := by
  unfold reset
  simp only [advanced]
  cases Memory.blank.load e.rom with
  | error cause => rfl
  | ok memory => rfl

theorem step_advanced (keys : Keys) : (e.advanced n).step keys random =
    ((e.step keys (random.drop n)).1.advanced n, (e.step keys (random.drop n)).2) := by
  simp only [step, advanced, Machine.step_advanced]
  rfl

theorem perform_advanced (op : Operation) : (e.advanced n).perform random op =
    (e.perform (random.drop n) op).map fun e => e.advanced n := by
  cases op with
  | step keys =>
    simp only [perform, step_advanced]
    rfl
  | tick => rfl
  | clearDirty => rfl
  | reset =>
    simp only [perform, reset_advanced]
    cases e.reset with
    | error cause => rfl
    | ok out => rfl

theorem after_advanced (ops : List Operation) : (e.advanced n).after random ops =
    (e.after (random.drop n) ops).map fun e => e.advanced n := by
  induction ops generalizing e with
  | nil => rfl
  | cons op ops ih =>
    rw [after, after, perform_advanced]
    cases e.perform (random.drop n) op with
    | error cause => rfl
    | ok e' => exact ih e'

theorem reports_advanced (op : Operation) :
    (e.advanced n).reports random op = e.reports (random.drop n) op := by
  cases op with
  | step keys => simp only [reports, step_advanced]
  | tick => rfl
  | clearDirty => rfl
  | reset =>
    simp only [reports, reset_advanced]
    cases e.reset with
    | error cause => rfl
    | ok out => rfl

end Emulator

/-- After any session of a ROM that loads, a reset succeeds and leads to what starting the ROM gives, with
as many bytes drawn as the session has drawn; and whatever is done from there on has the answers,
reports and states that it has on a first start with a stream that begins at that byte. -/
theorem reset_eq_start {rom : Rom} {draws : Nat} {e : Emulator} {events : List Event}
    (h : Emulator.start rom draws = .ok (e, events)) (random : RandomBytes)
    (ops : List Emulator.Operation) :
    ∃ used again first,
      e.after random ops = .ok used ∧
      used.reset = .ok (again, [.romLoaded rom.size, .machineReset]) ∧
      Emulator.start rom used.machine.draws = .ok (again, [.romLoaded rom.size]) ∧
      Emulator.start rom 0 = .ok (first, [.romLoaded rom.size]) ∧
      ∀ more, ∃ fresh, first.after (random.drop used.machine.draws) more = .ok fresh ∧
        again.after random more = .ok (fresh.advanced used.machine.draws) ∧
        ∀ op, (fresh.advanced used.machine.draws).reports random op =
          fresh.reports (random.drop used.machine.draws) op := by
  obtain ⟨memory, hload, rfl, _⟩ := Emulator.start_eq_ok h
  obtain ⟨used, hused, hrom, _⟩ :=
    Emulator.after_eq_ok (e := ⟨.start memory draws, rom, true⟩) hload random ops
  have hstart : ∀ drawn, Emulator.start rom drawn =
      .ok (⟨.start memory drawn, rom, true⟩, [.romLoaded rom.size]) := by
    intro drawn
    simp [Emulator.start, hload, bind, Except.bind, pure, Except.pure]
  have hreset : used.reset = .ok (⟨.start memory used.machine.draws, rom, true⟩,
      [.romLoaded rom.size, .machineReset]) := by
    have hfits : Memory.blank.load used.rom = .ok memory := by rwa [hrom]
    rw [Emulator.reset_eq_ok hfits, hrom]
    rfl
  refine ⟨used, _, _, hused, hreset, hstart _, hstart 0, ?_⟩
  intro more
  obtain ⟨fresh, hfresh, _⟩ := Emulator.after_eq_ok (e := ⟨.start memory 0, rom, true⟩) hload
    (random.drop used.machine.draws) more
  have hagain := Emulator.after_advanced ⟨.start memory 0, rom, true⟩ used.machine.draws random more
  rw [hfresh] at hagain
  exact ⟨fresh, hfresh, hagain, fun op => fresh.reports_advanced used.machine.draws random op⟩

/-- The ROM draws a byte, writes it over its first instruction and zeros over the font, calls a
subroutine and waits for a key there. -/
def overwriting : Rom :=
  #[0xC0, 0xFF, 0xA2, 0x00, 0xF0, 0x55, 0x60, 0x00, 0xA0, 0x50, 0xFE, 0x55, 0x22, 0x0E, 0xF1, 0x0A]

def overwritingSession : List Emulator.Operation :=
  .replicate 8 (.step fun _ => false) ++ [.tick, .clearDirty]

def countingBytes : RandomBytes := fun k => UInt8.ofNat (k + 77)

theorem reset_eq_start_of_overwriting :
    ∃ e events, Emulator.start overwriting 0 = .ok (e, events) ∧
      (e.after countingBytes overwritingSession).toOption.map (fun used =>
        (used.machine.draws, used.machine.stack.depth, used.machine.keyWait,
          used.machine.memory.read 0x200, used.machine.memory.read 0x50)) =
        some (1, 1, some 1, 77, 0) ∧
      ∃ used again first,
        e.after countingBytes overwritingSession = .ok used ∧
        used.reset = .ok (again, [.romLoaded 16, .machineReset]) ∧
        Emulator.start overwriting used.machine.draws = .ok (again, [.romLoaded 16]) ∧
        Emulator.start overwriting 0 = .ok (first, [.romLoaded 16]) ∧
        ∀ more, ∃ fresh,
          first.after (countingBytes.drop used.machine.draws) more = .ok fresh ∧
          again.after countingBytes more = .ok (fresh.advanced used.machine.draws) ∧
          ∀ op, (fresh.advanced used.machine.draws).reports countingBytes op =
            fresh.reports (countingBytes.drop used.machine.draws) op :=
  ⟨_, _, rfl, by decide +kernel, @reset_eq_start overwriting _ _ _ rfl _ _⟩

end Chip8
