import Chip8.Proofs.Restart
import Chip8.Proofs.Timekeeping

/-!
# Untouched since the start

An emulator knows whether it was stepped since it was started or started again. As long as it was not, its
machine is as it was started but for the mark on the screen: a tick finds timers that have run out, and
showing the screen takes away nothing but the mark. A reset would then only put the mark back, and the mark
decides nothing but when the screen is shown. How often the mark is looked at is not said here.
-/

namespace Chip8
set_option autoImplicit false

namespace Machine

def marked (m : Machine) : Machine := { m with screen := { m.screen with dirty := true } }

section Marked
variable (m : Machine) (keys : Keys) (random : RandomBytes)

theorem marked_aside : Aside marked where
  keyWait_eq := fun _ => rfl
  memory_eq := fun _ => rfl
  stack_eq := fun _ => rfl
  goto := fun _ _ => rfl
  unwind := fun _ _ _ => rfl
  resume := fun _ _ _ => rfl

theorem execute_marked (i : Instruction) :
    m.marked.execute keys random i = (m.execute keys random i).map marked := by
  cases i with
  | skipEqByte | skipNeByte | skipEq | skipNe | skipKeyDown | skipKeyUp =>
    simp only [execute, marked_aside.skipIf]
    rfl
  | ret => exact marked_aside.ret m keys random _
  | call a => exact marked_aside.call m keys random _ a
  | _ => rfl

theorem step_marked : m.marked.step keys random = (m.step keys random).map marked :=
  marked_aside.step fun m' i _ => m'.execute_marked keys random i

end Marked

end Machine

namespace Emulator

def marked (e : Emulator) : Emulator := { e with machine := e.machine.marked }

section Marked
variable (e : Emulator) (random : RandomBytes)

theorem step_marked (keys : Keys) : e.marked.step keys random =
    ((e.step keys random).1.marked, (e.step keys random).2) := by
  simp only [step, marked, Machine.step_marked]
  rfl

/-- Steps and ticks keep the mark as it is; showing the screen and starting again do not depend on it. -/
theorem perform_marked (op : Operation) :
    e.marked.perform random op = (e.perform random op).map marked ∨
      e.marked.perform random op = e.perform random op := by
  cases op with
  | step keys =>
    refine Or.inl ?_
    simp only [perform, step_marked]
    rfl
  | tick => exact Or.inl rfl
  | clearDirty => exact Or.inr rfl
  | reset => exact Or.inr rfl

theorem after_marked (ops : List Operation) :
    e.marked.after random ops = (e.after random ops).map marked ∨
      e.marked.after random ops = e.after random ops := by
  induction ops generalizing e with
  | nil => exact Or.inl rfl
  | cons op ops ih =>
    simp only [after]
    rcases e.perform_marked random op with hop | hop
    · rw [hop]
      cases e.perform random op with
      | error cause => exact Or.inr rfl
      | ok e' => exact ih e'
    · rw [hop]
      exact Or.inr rfl

theorem reports_marked (op : Operation) : e.marked.reports random op = e.reports random op := by
  cases op with
  | step keys => simp only [reports, step_marked]
  | _ => rfl

end Marked

/-- As long as no step was made since the last reset, the machine is as the ROM was started. -/
structure AsStarted (rom : Rom) (memory : Memory) (xs : List Moment) (e : Emulator) : Prop where
  rom_eq : e.rom = rom
  untouched_iff : e.untouched = true ↔ ∀ x ∈ Moment.sinceReset xs, x.op.isStep = false
  machine_eq : e.untouched = true → e.machine.marked = .start memory e.machine.draws

theorem AsStarted.perform {rom : Rom} {memory : Memory} (hload : Memory.blank.load rom = .ok memory)
    {xs : List Moment} {e e' : Emulator} {random : RandomBytes} {op : Operation}
    (h : AsStarted rom memory xs e) (hop : e.perform random op = .ok e') :
    AsStarted rom memory (xs ++ [⟨e, op⟩]) e' := by
  cases op with
  | step keys =>
    obtain rfl := Except.ok.inj hop
    refine ⟨h.rom_eq, ?_, fun htouched => absurd htouched Bool.false_ne_true⟩
    rw [Moment.sinceReset_concat rfl]
    simp [step, Operation.isStep]
  | tick =>
    obtain rfl := Except.ok.inj hop
    refine ⟨h.rom_eq, ?_, ?_⟩
    · rw [Moment.sinceReset_concat rfl]
      simpa [tick, Operation.isStep] using h.untouched_iff
    · intro huntouched
      exact congrArg Machine.tick (h.machine_eq huntouched)
  | clearDirty =>
    obtain rfl := Except.ok.inj hop
    refine ⟨h.rom_eq, ?_, h.machine_eq⟩
    rw [Moment.sinceReset_concat rfl]
    simpa [clearDirty, Operation.isStep] using h.untouched_iff
  | reset =>
    have hfits : Memory.blank.load e.rom = .ok memory := by rwa [h.rom_eq]
    rw [Emulator.perform, reset_eq_ok hfits] at hop
    obtain rfl := Except.ok.inj hop
    refine ⟨h.rom_eq, ?_, fun _ => rfl⟩
    rw [Moment.sinceReset_of_reset rfl]
    simp

end Emulator

/-- An emulator is untouched exactly if no step was made since the start or the last reset. Then it is, but for
the mark on its screen, what starting its ROM gives at this place of the stream of random bytes, and this is
also what a reset leads to. Whatever is done afterwards has the same answers and reports with the reset as
without it, and leads to the same emulator but perhaps for the mark. -/
theorem untouched_as_started {rom : Rom} {draws : Nat} {e : Emulator} {events : List Event}
    (h : Emulator.start rom draws = .ok (e, events)) (random : RandomBytes)
    (ops : List Emulator.Operation) :
    ∃ e', e.after random ops = .ok e' ∧
      (e'.untouched = true ↔
        ∀ x ∈ Emulator.Moment.sinceReset (e.moments random ops), x.op.isStep = false) ∧
      (e'.untouched = true → ∃ fresh,
        Emulator.start rom e'.machine.draws = .ok (fresh, [.romLoaded rom.size]) ∧
        fresh = e'.marked ∧
        e'.reset = .ok (fresh, [.romLoaded rom.size, .machineReset]) ∧
        ∀ more, ∃ kept restarted, e'.after random more = .ok kept ∧
          fresh.after random more = .ok restarted ∧
          (restarted = kept ∨ restarted = kept.marked) ∧
          ∀ op, restarted.reports random op = kept.reports random op) := by
  obtain ⟨memory, hload, rfl, _⟩ := Emulator.start_eq_ok h
  have hstart : Emulator.AsStarted rom memory [] ⟨.start memory draws, rom, true⟩ := by
    refine ⟨rfl, ?_, fun _ => rfl⟩
    simp [Emulator.Moment.sinceReset]
  obtain ⟨e', hafter, hrom, huntouched, hmachine⟩ := Emulator.moments_keep random
    (fun xs e op e' hstarted hop => hstarted.perform hload hop) hload hstart ops
  have hfits : Memory.blank.load e'.rom = .ok memory := by rwa [hrom]
  refine ⟨e', hafter, huntouched, ?_⟩
  intro hfresh
  have hmarked : e'.marked = ⟨.start memory e'.machine.draws, rom, true⟩ := by
    rw [Emulator.marked, hmachine hfresh, hrom, hfresh]
  refine ⟨e'.marked, ?_, rfl, ?_, ?_⟩
  · rw [hmarked]
    exact Emulator.start_of_load hload _
  · rw [Emulator.reset_eq_ok hfits, hmarked, hrom]
    rfl
  · intro more
    obtain ⟨kept, hkept, _⟩ := Emulator.after_eq_ok hfits random more
    rcases e'.after_marked random more with hmore | hmore
    · refine ⟨kept, kept.marked, hkept, ?_, Or.inr rfl, fun op => kept.reports_marked random op⟩
      rw [hmore, hkept]
      rfl
    · refine ⟨kept, kept, hkept, ?_, Or.inl rfl, fun _ => rfl⟩
      rw [hmore, hkept]

/-- The ROM draws a byte and a glyph, again and again. -/
def scribbling : Rom := #[0xC0, 0xFF, 0xD0, 0x05, 0x12, 0x00]

/-- Ends with ticks and a shown screen after a reset. -/
def scribblingSession : List Emulator.Operation :=
  let step := .step fun _ => false
  [step, step, step, step, .tick, .reset, .tick, .clearDirty, .tick]

theorem untouched_as_started_of_scribbling :
    ∃ e events e', Emulator.start scribbling 0 = .ok (e, events) ∧
      e.after (fun _ => 9) scribblingSession = .ok e' ∧
      (e'.untouched, e'.machine.draws, e'.machine.screen.dirty) = (true, 2, false) ∧
      ∃ fresh, Emulator.start scribbling e'.machine.draws = .ok (fresh, [.romLoaded 6]) ∧
        fresh = e'.marked ∧ e'.reset = .ok (fresh, [.romLoaded 6, .machineReset]) ∧
        ∀ more, ∃ kept restarted, e'.after (fun _ => 9) more = .ok kept ∧
          fresh.after (fun _ => 9) more = .ok restarted ∧
          (restarted = kept ∨ restarted = kept.marked) ∧
          ∀ op, restarted.reports (fun _ => 9) op = kept.reports (fun _ => 9) op := by
  have hstart : ∃ e events, Emulator.start scribbling 0 = .ok (e, events) := ⟨_, _, rfl⟩
  obtain ⟨e, events, he⟩ := hstart
  obtain ⟨e', hafter, _, hfresh⟩ := untouched_as_started he (fun _ => 9) scribblingSession
  have hfacts : (Emulator.start scribbling 0).toOption.bind (fun started =>
      (started.1.after (fun _ => 9) scribblingSession).toOption.map fun e =>
        (e.untouched, e.machine.draws, e.machine.screen.dirty)) = some (true, 2, false) := by
    decide +kernel
  rw [he] at hfacts
  simp only [Except.toOption, Option.bind_some, hafter, Option.map_some, Option.some.injEq] at hfacts
  exact ⟨e, events, e', he, hafter, hfacts, hfresh (Prod.mk.inj hfacts).1⟩

end Chip8
