import Chip8.Proofs.Picture

/-!
# The tone follows the machine

The tone is switched once in a pass: off by a reset, and otherwise to what the machine says after the
ticks and steps of the pass. A fresh machine is silent and an update of the window leaves the timers
alone, so after every pass the tone is on exactly when the sound timer of the machine runs. That holds
after a pass in which the window refused its pixels too, where the machine has already been stepped.
-/

namespace Chip8
set_option autoImplicit false

variable {σ : Type}

def Sounding (valid : σ → Prop) (tone : σ → Bool) (on : Bool) (r : σ) : Prop :=
  valid r ∧ tone r = on

/-- The desktop with a switch that does nothing. -/
def Desktop.unswitched (d : Desktop (StateM σ)) : Desktop (StateM σ) :=
  { d with setTone := fun _ => pure () }

/-- What the tone was last switched to is part of the state of the desktop: the switch sets it, and
nothing else changes it. -/
structure Desktop.Sounds (d : Desktop (StateM σ)) (valid : σ → Prop) (tone : σ → Bool) : Prop where
  setTone : ∀ on, Triple valid (d.setTone on) fun _ => Sounding valid tone on
  others : ∀ on, d.unswitched.Keeps (Sounding valid tone on)
  updates : ∀ on, d.Updates (Sounding valid tone on) (Sounding valid tone on)

namespace Player
variable {d : Desktop (StateM σ)} {valid : σ → Prop} {tone : σ → Bool} {s : Stage}
variable {p p₁ p₂ q : Player} {r r₁ r₂ : σ}

theorem Ticks.rom_eq {tick : Option Nat} (h : p.Ticks d r tick q r₁) :
    q.emulator.rom = p.emulator.rom := by
  cases h with
  | early => rfl
  | due => rfl

theorem CatchesUp.rom_eq {steps : Option (Nat × Nat)} (h : p.CatchesUp d s r steps q r₁) :
    q.emulator.rom = p.emulator.rom := by
  cases h with
  | early => rfl
  | @due now _ _ _ _ _ _ _ steps _ =>
    have hrom := Emulator.steps_rom p.keypad.isDown s.random s.verbosity (p.owed now) p.emulator #[]
    rw [steps] at hrom
    exact hrom

theorem Shows.emulator_eq {redraw : Option Redraw} (h : p.Shows d r redraw (.ok q) r₁) :
    q.emulator.rom = p.emulator.rom ∧ q.emulator.toneActive = p.emulator.toneActive := by
  cases h with
  | early => exact ⟨rfl, rfl⟩
  | presented => exact ⟨rfl, rfl⟩
  | refreshed => exact ⟨rfl, rfl⟩

theorem Shows.sounding {redraw : Option Redraw} {shown : Except WindowError Player} {on : Bool}
    (h : p.Shows d r redraw shown r₁) (hd : d.Sounds valid tone) (hr : Sounding valid tone on r) :
    Sounding valid tone on r₁ := by
  have hothers := hd.others on
  cases h with
  | early reads _ => exact hothers.clock.of_run hr reads
  | refused reads _ marks _ presents =>
    have hmarked := hothers.clock.of_run (hothers.clock.of_run hr reads) marks
    exact ((hd.updates on).present _).of_run hmarked presents
  | presented reads _ marks _ presents looks =>
    have hmarked := hothers.clock.of_run (hothers.clock.of_run hr reads) marks
    exact hothers.held.of_run (((hd.updates on).present _).of_run hmarked presents) looks
  | refreshed reads _ marks _ looks =>
    have hmarked := hothers.clock.of_run (hothers.clock.of_run hr reads) marks
    exact hothers.held.of_run ((hd.updates on).refresh _ hmarked) looks

/-- A reset of a ROM that loads does not fail, and leaves both the tone and the sound timer off. -/
theorem Resets.sounding {v : Verbosity} {verdict : Verdict} {on : Bool} {memory : Memory}
    (h : p.Resets d v r verdict r₁) (hd : d.Sounds valid tone)
    (hload : Memory.blank.load p.emulator.rom = .ok memory) (hr : Sounding valid tone on r) :
    ∃ q, verdict = .goesOn q ∧ q.emulator.rom = p.emulator.rom ∧
      Sounding valid tone q.emulator.toneActive r₁ := by
  have hreset := Emulator.reset_eq_ok hload
  cases h with
  | refused fails =>
    rw [hreset] at fails
    cases fails
  | done restarts marksStep marksTick marksRedraw =>
    refine ⟨_, rfl, ?_⟩
    have hsilent : Triple (Sounding valid tone on) (d.setTone false) fun _ =>
        Sounding valid tone false := by
      intro r hr
      exact hd.setTone false r hr.1
    have hr₁ := (Resets.done restarts marksStep marksTick marksRedraw).keeps (hd.others on).log hsilent
      (hd.others false).clock hr
    rw [hreset] at restarts
    cases restarts
    exact ⟨rfl, hr₁⟩

theorem stages_sounding {tick : Option Nat} {steps : Option (Nat × Nat)} {on : Bool}
    (hd : d.Sounds valid tone) (hr : Sounding valid tone on r) (ticks : p.Ticks d r tick p₁ r₁)
    (catchesUp : p₁.CatchesUp d s r₁ steps p₂ r₂) :
    Sounding valid tone p₂.emulator.toneActive ((d.setTone p₂.emulator.toneActive).run r₂).2 := by
  have hr₁ := ticks.keeps (hd.others on).clock hr
  have hr₂ := catchesUp.keeps (hd.others on).clock (hd.others on).log hr₁
  exact hd.setTone _ _ hr₂.1

theorem pass_sounding {a : Account} {verdict : Verdict} {memory : Memory} (hd : d.Sounds valid tone)
    (hload : Memory.blank.load p.emulator.rom = .ok memory)
    (hr : Sounding valid tone p.emulator.toneActive r)
    (hrun : (p.pass d s).run r = ((a, verdict), r₁)) :
    (∀ q, verdict = .goesOn q → q.emulator.rom = p.emulator.rom) ∧
      (∀ cause, verdict ≠ .failed (.rom cause)) ∧
      Sounding valid tone ((⟨p, r, a, verdict, r₁⟩ : Passage σ).emulator s).toneActive r₁ := by
  have hothers := hd.others p.emulator.toneActive
  have hasked : Sounding valid tone p.emulator.toneActive (d.asked r).2 := hothers.asked hr
  have hpass := p.pass_passes d s r
  rw [hrun] at hpass
  cases hpass with
  | closed _ =>
    refine ⟨by rintro q ⟨⟩, by rintro cause ⟨⟩, ?_⟩
    rcases p.pass_closed d s r hrun with hopen | hheld
    · rw [hopen]
      exact hothers.isOpen r hr
    · rw [hheld]
      exact hothers.held _ (hothers.isOpen r hr)
  | reset _ _ resets =>
    obtain ⟨q, rfl, hrom, hr'⟩ := resets.sounding hd hload hasked
    refine ⟨?_, by rintro cause ⟨⟩, hr'⟩
    rintro q ⟨⟩
    exact hrom
  | @goesOn p₁ p₂ q _ _ _ _ _ _ _ ticks catchesUp shows =>
    have hr₂ := stages_sounding hd hasked ticks catchesUp
    have hr₃ := shows.sounding hd hr₂
    have hr₄ := q.pause_triple (hd.others p₂.emulator.toneActive) _ hr₃
    obtain ⟨hrom, htone⟩ := shows.emulator_eq
    refine ⟨?_, by rintro cause ⟨⟩, ?_⟩
    · rintro q ⟨⟩
      exact hrom.trans (catchesUp.rom_eq.trans ticks.rom_eq)
    · simp only [Passage.emulator, htone]
      exact hr₄
  | failed _ ticks catchesUp shows =>
    have hr₂ := stages_sounding hd hasked ticks catchesUp
    refine ⟨by rintro q ⟨⟩, by rintro cause ⟨⟩, ?_⟩
    simp only [Passage.emulator, worked_eq ticks catchesUp]
    exact shows.sounding hd hr₂

theorem history_sounding {memory : Memory} (hd : d.Sounds valid tone) (n : Nat)
    (hload : Memory.blank.load p.emulator.rom = .ok memory)
    (hr : Sounding valid tone p.emulator.toneActive r) : ∀ x ∈ p.history d s n r,
      (∀ cause, x.verdict ≠ .failed (.rom cause)) ∧
      Sounding valid tone (x.emulator s).toneActive x.after := by
  induction n generalizing p r with
  | zero =>
    intro x hx
    cases hx
  | succ n ih =>
    intro x hx
    rcases hrun : (p.pass d s).run r with ⟨⟨a, verdict⟩, r₁⟩
    obtain ⟨hrom, hcause, hr₁⟩ := pass_sounding hd hload hr hrun
    rw [history, hrun] at hx
    rcases List.mem_cons.mp hx with rfl | hx
    · exact ⟨hcause, hr₁⟩
    · cases verdict with
      | goesOn q => exact ih ((hrom q rfl).symm ▸ hload) hr₁ x hx
      | closed => cases hx
      | failed error => cases hx

end Player

/-- In every run of the main loop that starts with the tone off, with any number of resets: at the end of
each pass the tone is on exactly when the emulator asks for it. -/
theorem tone_follows_emulator {d : Desktop (StateM σ)} {valid : σ → Prop} {tone : σ → Bool}
    (hd : d.Sounds valid tone) {r : σ} (hr : valid r) (hsilent : tone r = false) {rom : Rom}
    {draws : Nat} {e : Emulator} {events : List Event}
    (hstart : Emulator.start rom draws = .ok (e, events)) (s : Stage) (cyclesPerSecond : UInt32)
    (step tick redraw n : Nat) :
    let start : Player := ⟨e, .released, stepPeriod cyclesPerSecond, step, tick, redraw⟩
    let passes := start.history d s n r
    ((Player.run d s (fun accounts a => accounts ++ [a]) n start []).run r).1.1 =
      passes.map Passage.account ∧
    ∀ x ∈ passes, (∀ cause, x.verdict ≠ .failed (.rom cause)) ∧
      tone x.after = (x.emulator s).toneActive := by
  intro start passes
  refine ⟨Player.accounts_run d s n start r, ?_⟩
  intro x hx
  obtain ⟨memory, hload, rfl, _⟩ := Emulator.start_eq_ok hstart
  have hfirst : Sounding valid tone start.emulator.toneActive r := ⟨hr, hsilent⟩
  obtain ⟨hcause, _, htone⟩ := Player.history_sounding hd n hload hfirst x hx
  exact ⟨hcause, htone⟩

namespace Rehearsal

def tone (r : Rehearsal) : Bool := r.beeper.on

theorem update_tone (s : Script) (event : Nat → Option (List Sample) → WindowEvent)
    (r : Rehearsal) : (update s event r).tone = r.tone := by
  unfold update tone
  by_cases hpull : s.pull = 0
  · simp only [hpull, if_true]
  · simp only [hpull, if_false, Beeper.pull]
    cases r.beeper.stream with
    | none => rfl
    | some stream => rfl

theorem desktop_sounds (s : Script) : (desktop s).Sounds (fun _ => True) tone where
  setTone on r hr := ⟨trivial, rfl⟩
  others on :=
    { print := fun text r hr => hr
      setTone := fun _ r hr => hr
      isOpen := fun r hr => hr
      held := fun r hr => hr
      isPressed := by
        intro key r hr
        obtain ⟨frames, hframes⟩ := askPressed_frames key r
        refine ⟨trivial, ?_⟩
        change (askPressed key r).2.tone = on
        rw [hframes]
        exact hr.2
      clock := fun r hr => hr
      sleep := fun micros r hr => hr }
  updates on :=
    { present := by
        intro pixels r hr
        refine ⟨trivial, ?_⟩
        rw [present_run]
        split
        · exact hr.2
        · exact (update_tone s _ r).trans hr.2
      refresh := fun r hr => ⟨trivial, (update_tone s _ r).trans hr.2⟩ }

/-- The ROM sets the sound timer to one and then stays where it is. -/
def beepRom : Rom := #[0x60, 0x01, 0xF0, 0x18, 0x12, 0x04]

def beepRun (e : Emulator) : List (Passage Rehearsal) :=
  Player.history (desktop restarted) ⟨fun _ => 0, .upTo .info⟩ 5 (start restarted)
    ⟨e, .released, stepPeriod 300, 0, 0, 0⟩

end Rehearsal

/-- The tone goes on, a reset switches it off, it goes on again and is off after the next tick. -/
theorem tone_follows_emulator_of_beeping :
    ∃ e events, Emulator.start Rehearsal.beepRom 0 = .ok (e, events) ∧
      (Rehearsal.desktop Rehearsal.restarted).Sounds (fun _ => True) Rehearsal.tone ∧
      (Rehearsal.start Rehearsal.restarted).tone = false ∧
      (Rehearsal.beepRun e).map (fun x => (x.account.reset, x.after.tone)) =
        [(false, true), (true, false), (false, true), (false, false), (false, false)] ∧
      ∀ x ∈ Rehearsal.beepRun e, (∀ cause, x.verdict ≠ .failed (.rom cause)) ∧
        x.after.tone = (x.emulator ⟨fun _ => 0, .upTo .info⟩).toneActive :=
  ⟨_, _, rfl, Rehearsal.desktop_sounds _, rfl, by decide +kernel,
    (tone_follows_emulator (Rehearsal.desktop_sounds _) trivial rfl (rfl : Emulator.start
      Rehearsal.beepRom 0 = .ok (_, _)) _ 300 0 0 0 5).2⟩

end Chip8
