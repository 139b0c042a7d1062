import Chip8.Proofs.Footprint
import Chip8.Proofs.Session

/-!
# Keeping time

The delay timer and the sound timer in a session. Each holds the value that it was last set to less the
ticks made since then, as long as that is positive, and zero from then on. A step sets a timer or leaves
it alone: nothing but a tick counts down. As only three instructions have to do with the timers, it does
not matter on which side of any other step a tick is made. How often ticks are due is not said here.
-/

namespace Chip8
set_option autoImplicit false

theorem Timer.tick_toNat (t : Timer) : t.tick.value.toNat = t.value.toNat - 1 := by
  unfold Timer.tick
  split
  · rename_i hzero
    rw [hzero]
    rfl
  · rename_i hrunning
    have hpos : t.value.toNat ≠ 0 := fun h => hrunning (UInt8.toNat_inj.mp h)
    apply UInt8.toNat_sub_of_le
    rw [UInt8.le_iff_toNat_le]
    exact Nat.one_le_iff_ne_zero.mpr hpos

theorem Timer.isActive_iff (t : Timer) : t.isActive = true ↔ t.value ≠ 0 := by
  rw [isActive, decide_eq_true_iff, UInt8.pos_iff_ne_zero]

inductive Countdown where
  | delay
  | sound

namespace Countdown

def timer : Countdown → Machine → Timer
  | delay, m => m.delay
  | sound, m => m.sound

def part : Countdown → Part
  | delay => .delay
  | sound => .sound

/-- The register from which an instruction sets the timer. -/
def source : Countdown → Instruction → Option UInt8
  | delay, .setDelay x => some x
  | sound, .setSound x => some x
  | _, _ => none

/-- The value to which the next step sets the timer. -/
def setting (c : Countdown) (m : Machine) : Option UInt8 :=
  (m.upcoming.bind c.source).map m.v.get

variable (c : Countdown)

theorem part_not_mem_writes {i : Instruction} (h : c.source i = none) (index : UInt16) :
    c.part ∉ i.writes index := by
  cases c with
  | delay =>
    cases i with
    | setDelay x => simp [source] at h
    | _ => simp [Instruction.writes, part, Part.v, Part.byte]
  | sound =>
    cases i with
    | setSound x => simp [source] at h
    | _ => simp [Instruction.writes, part, Part.v, Part.byte]

theorem execute_timer {i : Instruction} {x : UInt8} (h : c.source i = some x) (m : Machine)
    (keys : Keys) (random : RandomBytes) :
    c.timer (m.execute keys random i).machine = ⟨m.v.get x⟩ := by
  unfold source at h
  split at h
  · obtain rfl := Option.some.inj h
    rfl
  · obtain rfl := Option.some.inj h
    rfl
  · simp at h

theorem timer_of_same {m m' : Machine} (h : c.part.Same m m') : c.timer m' = c.timer m := by
  cases c <;> exact h

theorem step_timer (m : Machine) (keys : Keys) (random : RandomBytes) :
    (c.timer (m.step keys random).machine).value = (c.setting m).getD (c.timer m).value := by
  cases hsource : m.upcoming.bind c.source with
  | none =>
    have hsame : c.part.Same m (m.step keys random).machine := by
      apply Machine.step_same_of_upcoming
      · cases c <;> simp [part]
      · cases c <;> simp [part]
      · cases c <;> simp [part, Part.v]
      · intro i hi
        rw [hi] at hsource
        exact c.part_not_mem_writes hsource m.i
    rw [c.timer_of_same hsame]
    simp [setting, hsource]
  | some x =>
    obtain ⟨i, hi, hx⟩ := Option.bind_eq_some_iff.mp hsource
    have hset := c.execute_timer hx { m with pc := Machine.next m.pc } keys random
    rw [Machine.step_upcoming keys random hi]
    simp only [setting, hsource, hset]
    rfl

end Countdown

namespace Emulator

namespace Moment

def setting (c : Countdown) (x : Moment) : Option UInt8 :=
  match x.op with
  | .step _ => c.setting x.emulator.machine
  | _ => none

/-- The moments since the last reset, the latest first. -/
def sinceReset (xs : List Moment) : List Moment := xs.reverse.takeWhile fun x => !x.op.isReset

/-- What a timer was last set to since the last reset, zero if it was not set. -/
def lastSetting (c : Countdown) (xs : List Moment) : UInt8 :=
  ((sinceReset xs).findSome? (setting c)).getD 0

/-- The ticks made since a timer was last set, or since the last reset if it was not set. -/
def ticksSince (c : Countdown) (xs : List Moment) : Nat :=
  ((sinceReset xs).takeWhile fun x => (x.setting c).isNone).countP fun x => x.op.isTick

section Concat
variable {c : Countdown} {xs : List Moment} {x : Moment}

theorem sinceReset_concat (h : x.op.isReset = false) :
    sinceReset (xs ++ [x]) = x :: sinceReset xs := by
  simp [sinceReset, h]

theorem sinceReset_of_reset (h : x.op.isReset = true) : sinceReset (xs ++ [x]) = [] := by
  simp [sinceReset, h]

theorem lastSetting_concat (h : x.op.isReset = false) :
    lastSetting c (xs ++ [x]) = (x.setting c).getD (lastSetting c xs) := by
  rw [lastSetting, sinceReset_concat h, List.findSome?_cons]
  cases x.setting c with
  | none => rfl
  | some value => rfl

theorem ticksSince_of_set {value : UInt8} (h : x.op.isReset = false)
    (hset : x.setting c = some value) : ticksSince c (xs ++ [x]) = 0 := by
  rw [ticksSince, sinceReset_concat h, List.takeWhile_cons]
  simp [hset]

theorem ticksSince_concat (h : x.op.isReset = false) (hset : x.setting c = none) :
    ticksSince c (xs ++ [x]) = ticksSince c xs + if x.op.isTick then 1 else 0 := by
  rw [ticksSince, sinceReset_concat h, List.takeWhile_cons]
  simp [hset, ticksSince, List.countP_cons]

end Concat
end Moment

/-- A timer holds what it was last set to less the ticks since then. -/
def OnTime (c : Countdown) (xs : List Moment) (e : Emulator) : Prop :=
  (c.timer e.machine).value.toNat = (Moment.lastSetting c xs).toNat - Moment.ticksSince c xs

theorem OnTime.perform {c : Countdown} {xs : List Moment} {e e' : Emulator} {random : RandomBytes}
    {op : Operation} (h : OnTime c xs e) (hop : e.perform random op = .ok e') :
    OnTime c (xs ++ [⟨e, op⟩]) e' := by
  unfold OnTime at *
  cases op with
  | reset =>
    obtain ⟨memory, hmachine⟩ := perform_machine hop
    rw [hmachine, Moment.lastSetting, Moment.ticksSince, Moment.sinceReset_of_reset rfl]
    cases c <;> rfl
  | clearDirty =>
    obtain rfl := Except.ok.inj hop
    rw [Moment.lastSetting_concat rfl, Moment.ticksSince_concat rfl rfl]
    cases c <;> exact h
  | tick =>
    obtain rfl := Except.ok.inj hop
    have htick : (c.timer e.tick.machine).value.toNat = (c.timer e.machine).value.toNat - 1 := by
      cases c <;> exact Timer.tick_toNat _
    rw [htick, h, Moment.lastSetting_concat rfl, Moment.ticksSince_concat rfl rfl]
    exact Nat.sub_sub _ _ _
  | step keys =>
    obtain rfl := Except.ok.inj hop
    have hstep := c.step_timer e.machine keys random
    cases hset : c.setting e.machine with
    | none =>
      have hmoment : Moment.setting c ⟨e, .step keys⟩ = none := hset
      rw [hset] at hstep
      rw [Moment.lastSetting_concat rfl, Moment.ticksSince_concat rfl hmoment, hmoment]
      exact (congrArg UInt8.toNat hstep).trans h
    | some value =>
      have hmoment : Moment.setting c ⟨e, .step keys⟩ = some value := hset
      rw [hset] at hstep
      rw [Moment.lastSetting_concat rfl, Moment.ticksSince_of_set rfl hmoment, hmoment]
      exact congrArg UInt8.toNat hstep

end Emulator

/-- In every session each timer holds what it was last set to since the start or the last reset less the
ticks since then. The tone is on while the sound timer is not zero, which is what a tick answers, and no
step counts down: it sets a timer or leaves it alone. -/
theorem timers_on_time {rom : Rom} {draws : Nat} {e : Emulator} {events : List Event}
    (h : Emulator.start rom draws = .ok (e, events)) (random : RandomBytes)
    (ops : List Emulator.Operation) :
    ∃ e', e.after random ops = .ok e' ∧
      (∀ c : Countdown, (c.timer e'.machine).value.toNat =
        (Emulator.Moment.lastSetting c (e.moments random ops)).toNat -
          Emulator.Moment.ticksSince c (e.moments random ops)) ∧
      (e'.toneActive = true ↔ e'.machine.sound.value ≠ 0) ∧
      e'.countDown = (e'.tick, e'.tick.toneActive) ∧
      ∀ (c : Countdown) keys, (c.timer (e'.step keys random).1.machine).value =
        (c.setting e'.machine).getD (c.timer e'.machine).value := by
  obtain ⟨memory, hload, rfl, _⟩ := Emulator.start_eq_ok h
  have hstart : ∀ c, Emulator.OnTime c [] ⟨.start memory draws, rom, true⟩ := by
    intro c
    cases c <;> rfl
  obtain ⟨e', hafter, htime⟩ := Emulator.moments_keep (P := fun xs e => ∀ c, Emulator.OnTime c xs e)
    random (fun xs e op e' htime hop c => (htime c).perform hop) hload hstart ops
  refine ⟨e', hafter, htime, e'.machine.sound.isActive_iff, rfl, ?_⟩
  intro c keys
  exact c.step_timer e'.machine keys random

/-- The ROM sets the delay timer to 5 and the sound timer to 3, and waits for a key. -/
def arming : Rom := #[0x60, 0x05, 0xF0, 0x15, 0x61, 0x03, 0xF1, 0x18, 0xF2, 0x0A]

def armingSession : List Emulator.Operation :=
  let step := .step fun _ => false
  [step, step, .tick, .reset, step, step, .tick, step, step, .tick, step, step, .tick]

theorem timers_on_time_of_arming :
    ∃ e events, Emulator.start arming 0 = .ok (e, events) ∧
      ([Countdown.delay, .sound].map fun c =>
        let xs := e.moments (fun _ => 0) armingSession
        (Emulator.Moment.lastSetting c xs, Emulator.Moment.ticksSince c xs)) = [(5, 3), (3, 2)] ∧
      ((e.after (fun _ => 0) armingSession).toOption.map fun e =>
        (e.machine.delay.value, e.machine.sound.value)) = some (2, 1) ∧
      ∃ e', e.after (fun _ => 0) armingSession = .ok e' ∧
        (∀ c : Countdown, (c.timer e'.machine).value.toNat =
          (Emulator.Moment.lastSetting c (e.moments (fun _ => 0) armingSession)).toNat -
            Emulator.Moment.ticksSince c (e.moments (fun _ => 0) armingSession)) ∧
        (e'.toneActive = true ↔ e'.machine.sound.value ≠ 0) ∧
        e'.countDown = (e'.tick, e'.tick.toneActive) := by
  obtain ⟨e', hafter, htime, htone, hanswer, _⟩ :=
    @timers_on_time arming 0 _ _ rfl (fun _ => 0) armingSession
  exact ⟨_, _, rfl, by decide +kernel, by decide +kernel, e', hafter, htime, htone, hanswer⟩

/-- The instruction neither reads nor sets a timer. -/
def Instruction.Untimed : Instruction → Prop
  | readDelay _ | setDelay _ | setSound _ => False
  | _ => True

namespace Machine
variable {m : Machine} {keys : Keys}

theorem tick_aside : Aside tick where
  keyWait_eq := fun _ => rfl
  memory_eq := fun _ => rfl
  stack_eq := fun _ => rfl
  goto := fun _ _ => rfl
  unwind := fun _ _ _ => rfl
  resume := fun _ _ _ => rfl

theorem execute_tick {i : Instruction} (h : i.Untimed) (m : Machine) (keys : Keys)
    (random : RandomBytes) :
    m.tick.execute keys random i = (m.execute keys random i).map tick := by
  cases i with
  | readDelay | setDelay | setSound => exact absurd h id
  | skipEqByte | skipNeByte | skipEq | skipNe | skipKeyDown | skipKeyUp =>
    simp only [execute, tick_aside.skipIf]
    rfl
  | ret => exact tick_aside.ret m keys random _
  | call a => exact tick_aside.call m keys random _ a
  | _ => rfl

theorem step_tick (h : ∀ i, m.upcoming = some i → i.Untimed) (random : RandomBytes) :
    m.tick.step keys random = (m.step keys random).map tick :=
  tick_aside.step fun m' i hi => execute_tick (h i hi) m' keys random

end Machine

/-- A tick and a step that looks for a key or executes an instruction without regard to the timers can be
made in either order: they lead to the same machine, with the same keys asked about and the same reports. -/
theorem tick_commutes {m : Machine} (h : ∀ i, m.upcoming = some i → i.Untimed) (keys : Keys)
    (random : RandomBytes) :
    m.performAll random [.tick, .step keys] = m.performAll random [.step keys, .tick] := by
  simp only [Machine.performAll, Machine.perform, Machine.step_tick h]
  simp [Machine.Outcome.map]

/-- About to draw a random byte, with one timer about to run out. -/
def expiring : Machine :=
  { Machine.start (Memory.blank.store 0x200 [0xC0, 0xFF]) 7 with delay := ⟨1⟩, sound := ⟨200⟩ }

theorem tick_commutes_of_expiring :
    expiring.upcoming = some (.random 0 0xFF) ∧
      expiring.performAll UInt8.ofNat [.tick, .step fun _ => false] =
        expiring.performAll UInt8.ofNat [.step fun _ => false, .tick] := by
  have hi : expiring.upcoming = some (.random 0 0xFF) := by decide +kernel
  refine ⟨hi, tick_commutes ?_ _ _⟩
  intro i h
  obtain rfl := Option.some.inj (hi.symm.trans h)
  trivial

end Chip8
