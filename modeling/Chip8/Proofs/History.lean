import Chip8.Proofs.Passes

/-!
# The history of a run

The passes of a run one after another, each with the player and the state of the desktop before and
after it. What a pass comes to is told branch by branch, with the readings of the clock in the order in
which they are taken and with the guard of every branch. Nothing is assumed of the desktop.
-/

namespace Chip8
set_option autoImplicit false

variable {σ : Type}

/-- The answer to whether F1 was pressed, and the state after it: a pass first asks whether the window
is open and which keys are held. -/
def Desktop.asked (d : Desktop (StateM σ)) (r : σ) : Bool × σ :=
  (d.isPressed .f1).run (d.held.run (d.isOpen.run r).2).2

theorem Desktop.Keeps.asked {d : Desktop (StateM σ)} {P : σ → Prop} (h : d.Keeps P) {r : σ}
    (hr : P r) : P (d.asked r).2 := by
  have hopen := h.isOpen r hr
  have hheld := h.held _ hopen
  exact h.isPressed .f1 _ hheld

/-- The emulator after the tick and the steps that a pass gives account of. -/
def Player.worked (p : Player) (s : Stage) (tick : Option Nat) (steps : Option (Nat × Nat)) :
    Emulator :=
  let e := if tick.isSome then p.emulator.tick else p.emulator
  match steps with
  | some (_, n) => (e.steps p.keypad.isDown s.random s.verbosity n #[]).1
  | none => e

namespace Player

inductive Ticks (p : Player) (d : Desktop (StateM σ)) (r : σ) :
    Option Nat → Player → σ → Prop where
  | early {now : Nat} {r₁ : σ} (reads : d.clock.run r = (now, r₁))
      (early : p.tickDue now = false) : p.Ticks d r none p r₁
  | due {now mark : Nat} {r₁ r₂ : σ} (reads : d.clock.run r = (now, r₁))
      (due : p.tickDue now = true) (marks : d.clock.run r₁ = (mark, r₂)) :
      p.Ticks d r (some now) { p with emulator := p.emulator.tick, lastTick := mark } r₂

inductive CatchesUp (p : Player) (d : Desktop (StateM σ)) (s : Stage) (r : σ) :
    Option (Nat × Nat) → Player → σ → Prop where
  | early {now : Nat} {r₁ : σ} (reads : d.clock.run r = (now, r₁))
      (early : p.stepsDue now = false) : p.CatchesUp d s r none p r₁
  | due {now mark : Nat} {r₁ r₂ : σ} {e : Emulator} {events : Array Event}
      (reads : d.clock.run r = (now, r₁)) (due : p.stepsDue now = true)
      (steps : p.emulator.steps p.keypad.isDown s.random s.verbosity (p.owed now) #[] = (e, events))
      (marks : d.clock.run ((d.log s.verbosity (events.toList.map Event.record)).run r₁).2 =
        (mark, r₂)) :
      p.CatchesUp d s r (some (now, p.owed now)) { p with emulator := e, lastStep := mark } r₂

inductive Shows (p : Player) (d : Desktop (StateM σ)) (r : σ) :
    Option Redraw → Except WindowError Player → σ → Prop where
  | early {now : Nat} {r₁ : σ} (reads : d.clock.run r = (now, r₁))
      (early : p.redrawDue now = false) : p.Shows d r none (.ok p) r₁
  | refused {now mark : Nat} {r₁ r₂ r₃ : σ} {cause : WindowError}
      (reads : d.clock.run r = (now, r₁)) (due : p.redrawDue now = true)
      (marks : d.clock.run r₁ = (mark, r₂)) (dirty : p.emulator.machine.screen.dirty = true)
      (presents : (d.present (paint p.emulator.machine.screen)).run r₂ = (.error cause, r₃)) :
      p.Shows d r (some ⟨now, some (paint p.emulator.machine.screen)⟩) (.error cause) r₃
  | presented {now mark : Nat} {r₁ r₂ r₃ r₄ : σ} {down : KeyboardKey → Bool}
      (reads : d.clock.run r = (now, r₁)) (due : p.redrawDue now = true)
      (marks : d.clock.run r₁ = (mark, r₂)) (dirty : p.emulator.machine.screen.dirty = true)
      (presents : (d.present (paint p.emulator.machine.screen)).run r₂ = (.ok (), r₃))
      (looks : d.held.run r₃ = (down, r₄)) :
      p.Shows d r (some ⟨now, some (paint p.emulator.machine.screen)⟩)
        (.ok { p with
          emulator := p.emulator.clearDirty, keypad := .sample down, lastRedraw := mark }) r₄
  | refreshed {now mark : Nat} {r₁ r₂ r₃ : σ} {down : KeyboardKey → Bool}
      (reads : d.clock.run r = (now, r₁)) (due : p.redrawDue now = true)
      (marks : d.clock.run r₁ = (mark, r₂)) (clean : p.emulator.machine.screen.dirty = false)
      (looks : d.held.run (d.refresh.run r₂).2 = (down, r₃)) :
      p.Shows d r (some ⟨now, none⟩)
        (.ok { p with keypad := .sample down, lastRedraw := mark }) r₃

inductive Resets (p : Player) (d : Desktop (StateM σ)) (v : Verbosity) (r : σ) :
    Verdict → σ → Prop where
  | refused {cause : RomError} (fails : p.emulator.reset = .error cause) :
      p.Resets d v r (.failed (.rom cause)) r
  | done {e : Emulator} {events : List Event} {step tick redraw : Nat} {r₁ r₂ r₃ : σ}
      (restarts : p.emulator.reset = .ok (e, events))
      (marksStep : d.clock.run ((d.setTone false).run
        ((d.log v (events.map Event.record)).run r).2).2 = (step, r₁))
      (marksTick : d.clock.run r₁ = (tick, r₂)) (marksRedraw : d.clock.run r₂ = (redraw, r₃)) :
      p.Resets d v r (.goesOn (p.restarted e step tick redraw)) r₃

/-- All that a pass can come to. -/
inductive Passes (p : Player) (d : Desktop (StateM σ)) (s : Stage) (r : σ) :
    Account → Verdict → σ → Prop where
  | closed {r₁ : σ} (shut : (d.isOpen.run r).1 = false ∨
      (d.held.run (d.isOpen.run r).2).1 .escape = true) : p.Passes d s r {} .closed r₁
  | reset {verdict : Verdict} {r₁ : σ} (pressed : (d.asked r).1 = true)
      (touched : p.emulator.untouched = false)
      (resets : p.Resets d s.verbosity (d.asked r).2 verdict r₁) :
      p.Passes d s r { reset := true } verdict r₁
  | goesOn {p₁ p₂ q : Player} {tick : Option Nat} {steps : Option (Nat × Nat)}
      {redraw : Option Redraw} {r₁ r₂ r₃ : σ}
      (calm : ((d.asked r).1 && !p.emulator.untouched) = false)
      (ticks : p.Ticks d (d.asked r).2 tick p₁ r₁) (catchesUp : p₁.CatchesUp d s r₁ steps p₂ r₂)
      (shows : p₂.Shows d ((d.setTone p₂.emulator.toneActive).run r₂).2 redraw (.ok q) r₃) :
      p.Passes d s r
        { tick := tick, steps := steps, tone := p₂.emulator.toneActive, redraw := redraw }
        (.goesOn q) ((q.pause d).run r₃).2
  | failed {p₁ p₂ : Player} {tick : Option Nat} {steps : Option (Nat × Nat)}
      {redraw : Option Redraw} {cause : WindowError} {r₁ r₂ r₃ : σ}
      (calm : ((d.asked r).1 && !p.emulator.untouched) = false)
      (ticks : p.Ticks d (d.asked r).2 tick p₁ r₁) (catchesUp : p₁.CatchesUp d s r₁ steps p₂ r₂)
      (shows : p₂.Shows d ((d.setTone p₂.emulator.toneActive).run r₂).2 redraw (.error cause) r₃) :
      p.Passes d s r
        { tick := tick, steps := steps, tone := p₂.emulator.toneActive, redraw := redraw }
        (.failed (.window cause)) r₃

variable (p : Player) (d : Desktop (StateM σ)) (s : Stage) (r : σ)

theorem keepTimers_ticks :
    p.Ticks d r ((p.keepTimers d).run r).1.1 ((p.keepTimers d).run r).1.2
      ((p.keepTimers d).run r).2 := by
  unfold keepTimers
  rw [run_bind]
  cases hdue : p.tickDue (d.clock.run r).1 with
  | false => exact .early rfl hdue
  | true => exact .due rfl hdue rfl

theorem catchUp_catchesUp :
    p.CatchesUp d s r ((p.catchUp d s).run r).1.1 ((p.catchUp d s).run r).1.2
      ((p.catchUp d s).run r).2 := by
  unfold catchUp
  rw [run_bind]
  cases hdue : p.stepsDue (d.clock.run r).1 with
  | false => exact .early rfl hdue
  | true => exact .due rfl hdue rfl rfl

theorem updateWindow_shows :
    p.Shows d r ((p.updateWindow d).run r).1.1 ((p.updateWindow d).run r).1.2
      ((p.updateWindow d).run r).2 := by
  unfold updateWindow
  rw [run_bind]
  cases hdue : p.redrawDue (d.clock.run r).1 with
  | false => exact .early rfl hdue
  | true =>
    simp only [if_true]
    rw [run_bind]
    cases hdirty : p.emulator.machine.screen.dirty with
    | false => exact .refreshed rfl hdue rfl hdirty rfl
    | true =>
      simp only [if_true]
      rw [run_bind]
      rcases hpresent : (d.present (paint p.emulator.machine.screen)).run
        (d.clock.run (d.clock.run r).2).2 with ⟨result, r₃⟩
      cases result with
      | error cause => exact .refused rfl hdue rfl hdirty hpresent
      | ok _ => exact .presented rfl hdue rfl hdirty hpresent rfl

theorem reset_resets :
    ((p.reset d s.verbosity).run r).1.1 = { reset := true } ∧
    p.Resets d s.verbosity r ((p.reset d s.verbosity).run r).1.2
      ((p.reset d s.verbosity).run r).2 := by
  unfold reset
  cases hreset : p.emulator.reset with
  | error cause => exact ⟨rfl, .refused hreset⟩
  | ok out => exact ⟨rfl, .done hreset rfl rfl rfl⟩

theorem advance_passes (calm : ((d.asked r).1 && !p.emulator.untouched) = false) :
    p.Passes d s r ((p.advance d s).run (d.asked r).2).1.1 ((p.advance d s).run (d.asked r).2).1.2
      ((p.advance d s).run (d.asked r).2).2 := by
  have hticks := p.keepTimers_ticks d (d.asked r).2
  unfold advance
  rw [run_bind]
  rcases hrun₁ : (p.keepTimers d).run (d.asked r).2 with ⟨⟨tick, p₁⟩, r₁⟩
  rw [hrun₁] at hticks
  have hsteps := p₁.catchUp_catchesUp d s r₁
  dsimp only
  rw [run_bind]
  rcases hrun₂ : (p₁.catchUp d s).run r₁ with ⟨⟨steps, p₂⟩, r₂⟩
  rw [hrun₂] at hsteps
  have hshows := p₂.updateWindow_shows d ((d.setTone p₂.emulator.toneActive).run r₂).2
  dsimp only
  rw [run_bind, run_bind]
  rcases hrun₃ : (p₂.updateWindow d).run ((d.setTone p₂.emulator.toneActive).run r₂).2
    with ⟨⟨redraw, shown⟩, r₃⟩
  rw [hrun₃] at hshows
  cases shown with
  | error cause => exact .failed calm hticks hsteps hshows
  | ok q => exact .goesOn calm hticks hsteps hshows

theorem pass_run (hopen : (d.isOpen.run r).1 = true)
    (hescape : (d.held.run (d.isOpen.run r).2).1 .escape = false) :
    (p.pass d s).run r = (if (d.asked r).1 && !p.emulator.untouched then p.reset d s.verbosity
      else p.advance d s).run (d.asked r).2 := by
  rw [pass_eq, run_bind, hopen]
  simp only [Bool.not_true, Bool.false_eq_true, if_false]
  rw [run_bind, hescape]
  simp only [Bool.false_eq_true, if_false]
  rfl

theorem pass_passes :
    p.Passes d s r ((p.pass d s).run r).1.1 ((p.pass d s).run r).1.2 ((p.pass d s).run r).2 := by
  cases hopen : (d.isOpen.run r).1 with
  | false =>
    rw [pass_eq, run_bind, hopen]
    exact .closed (Or.inl hopen)
  | true =>
    cases hescape : (d.held.run (d.isOpen.run r).2).1 .escape with
    | true =>
      rw [pass_eq, run_bind, hopen]
      simp only [Bool.not_true, Bool.false_eq_true, if_false]
      rw [run_bind, hescape]
      exact .closed (Or.inr hescape)
    | false =>
      rw [p.pass_run d s r hopen hescape]
      cases hreset : (d.asked r).1 && !p.emulator.untouched with
      | false => exact p.advance_passes d s r hreset
      | true =>
        obtain ⟨hpressed, htouched⟩ := Bool.and_eq_true_iff.mp hreset
        obtain ⟨haccount, hresets⟩ := p.reset_resets d s (d.asked r).2
        simp only [if_true, haccount]
        exact .reset hpressed ((Bool.not_eq_true' _).mp htouched) hresets

/-- A pass that finds the window closed has asked whether it is open and at most for the keys held. -/
theorem pass_closed {a : Account} {r₁ : σ} (hrun : (p.pass d s).run r = ((a, .closed), r₁)) :
    r₁ = (d.isOpen.run r).2 ∨ r₁ = (d.held.run (d.isOpen.run r).2).2 := by
  have hshut : (d.isOpen.run r).1 = false ∨
      (d.held.run (d.isOpen.run r).2).1 .escape = true := by
    have hpass := p.pass_passes d s r
    rw [hrun] at hpass
    cases hpass with
    | closed shut => exact shut
    | reset _ _ resets => cases resets
  rw [pass_eq, run_bind] at hrun
  cases hopen : (d.isOpen.run r).1 with
  | false =>
    rw [hopen] at hrun
    cases hrun
    exact Or.inl rfl
  | true =>
    have hescape : (d.held.run (d.isOpen.run r).2).1 .escape = true := by
      rcases hshut with hclosed | hescape
      · rw [hopen] at hclosed
        cases hclosed
      · exact hescape
    rw [hopen] at hrun
    simp only [Bool.not_true, Bool.false_eq_true, if_false] at hrun
    rw [run_bind, hescape] at hrun
    cases hrun
    exact Or.inr rfl

section Keeps
variable {p d s r}
variable {P : σ → Prop} {p₁ p₂ q : Player} {r₁ r₂ : σ}

theorem worked_eq {tick : Option Nat} {steps : Option (Nat × Nat)} (ticks : p.Ticks d r tick p₁ r₁)
    (catchesUp : p₁.CatchesUp d s r₁ steps p₂ r₂) : p.worked s tick steps = p₂.emulator := by
  cases ticks with
  | early =>
    cases catchesUp with
    | early => rfl
    | due _ _ steps _ => exact congrArg Prod.fst steps
  | due =>
    cases catchesUp with
    | early => rfl
    | due _ _ steps _ => exact congrArg Prod.fst steps

theorem Ticks.keeps {tick : Option Nat} (h : p.Ticks d r tick q r₁)
    (hclock : Triple P d.clock fun _ => P) (hr : P r) : P r₁ := by
  cases h with
  | early reads _ => exact hclock.of_run hr reads
  | due reads _ marks => exact hclock.of_run (hclock.of_run hr reads) marks

theorem CatchesUp.keeps {steps : Option (Nat × Nat)} (h : p.CatchesUp d s r steps q r₁)
    (hclock : Triple P d.clock fun _ => P)
    (hlog : ∀ v records, Triple P (d.log v records) fun _ => P) (hr : P r) : P r₁ := by
  cases h with
  | early reads _ => exact hclock.of_run hr reads
  | @due _ _ _ _ _ events reads _ _ marks =>
    have hlogged := hlog s.verbosity (events.toList.map Event.record) _ (hclock.of_run hr reads)
    exact hclock.of_run hlogged marks

/-- A reset first prints what it has to say, and then reads the clock with the tone switched off. -/
theorem Resets.keeps {v : Verbosity} {P' : σ → Prop} (h : p.Resets d v r (.goesOn q) r₁)
    (hlog : ∀ v records, Triple P (d.log v records) fun _ => P)
    (htone : Triple P (d.setTone false) fun _ => P') (hclock : Triple P' d.clock fun _ => P')
    (hr : P r) : P' r₁ := by
  cases h with
  | @done _ events _ _ _ _ _ _ _ marksStep marksTick marksRedraw =>
    have hlogged := hlog v (events.map Event.record) _ hr
    have hstep := hclock.of_run (htone _ hlogged) marksStep
    exact hclock.of_run (hclock.of_run hstep marksTick) marksRedraw

end Keeps

end Player

/-- A pass of a run: the player and the state of the desktop before it, its account and verdict, and the
state of the desktop after it. -/
structure Passage (σ : Type) where
  player : Player
  desktop : σ
  account : Account
  verdict : Verdict
  after : σ

/-- The emulator at the end of a pass, also of one with which the run ends. -/
def Passage.emulator (x : Passage σ) (s : Stage) : Emulator :=
  match x.verdict with
  | .goesOn q => q.emulator
  | .closed => x.player.emulator
  | .failed _ => x.player.worked s x.account.tick x.account.steps

namespace Player

def history (d : Desktop (StateM σ)) (s : Stage) : Nat → σ → Player → List (Passage σ)
  | 0, _, _ => []
  | n + 1, r, p =>
    let out := (p.pass d s).run r
    ⟨p, r, out.1.1, out.1.2, out.2⟩ ::
      match out.1.2 with
      | .goesOn q => history d s n out.2 q
      | _ => []

theorem run_history {α : Type} (d : Desktop (StateM σ)) (s : Stage) (note : α → Account → α)
    (n : Nat) (p : Player) (notes : α) (r : σ) :
    ((run d s note n p notes).run r).1.1 =
      ((p.history d s n r).map Passage.account).foldl note notes := by
  induction n generalizing p notes r with
  | zero => rfl
  | succ n ih =>
    rw [run_succ, history]
    rcases hpass : (p.pass d s).run r with ⟨⟨a, verdict⟩, r₁⟩
    cases verdict with
    | goesOn q => exact ih q (note notes a) r₁
    | closed => rfl
    | failed error => rfl

theorem accounts_run (d : Desktop (StateM σ)) (s : Stage) (n : Nat) (p : Player) (r : σ) :
    ((run d s (fun accounts a => accounts ++ [a]) n p []).run r).1.1 =
      (p.history d s n r).map Passage.account := by
  rw [run_history, List.foldl_append_eq_append, List.nil_append, ← List.flatMap_def,
    List.flatMap_singleton']

end Player

/-- A run from a player and a state of the desktop, pass by pass. -/
inductive History (d : Desktop (StateM σ)) (s : Stage) : Player → σ → List (Passage σ) → Prop where
  | suspended {p : Player} {r : σ} : History d s p r []
  | ended {p : Player} {r r₁ : σ} {a : Account} {verdict : Verdict}
      (pass : p.Passes d s r a verdict r₁) : History d s p r [⟨p, r, a, verdict, r₁⟩]
  | goesOn {p q : Player} {r r₁ : σ} {a : Account} {passes : List (Passage σ)}
      (pass : p.Passes d s r a (.goesOn q) r₁) (rest : History d s q r₁ passes) :
      History d s p r (⟨p, r, a, .goesOn q, r₁⟩ :: passes)

theorem Player.history_history (d : Desktop (StateM σ)) (s : Stage) (n : Nat) (p : Player) (r : σ) :
    History d s p r (p.history d s n r) := by
  induction n generalizing p r with
  | zero => exact .suspended
  | succ n ih =>
    have hpass := p.pass_passes d s r
    rw [history]
    rcases hrun : (p.pass d s).run r with ⟨⟨a, verdict⟩, r₁⟩
    rw [hrun] at hpass
    cases verdict with
    | goesOn q => exact .goesOn hpass (ih q r₁)
    | closed => exact .ended hpass
    | failed error => exact .ended hpass

/-- What holds at the start and is kept by every pass after which the run goes on holds before each of
its passes. It may depend on the passes that were made. -/
theorem History.before {d : Desktop (StateM σ)} {s : Stage} {p : Player} {r : σ}
    {passes : List (Passage σ)} (h : History d s p r passes)
    {I : List (Passage σ) → Player → σ → Prop} {done : List (Passage σ)} (start : I done p r)
    (keeps : ∀ done x q, I done x.player x.desktop → x.verdict = .goesOn q →
      x.player.Passes d s x.desktop x.account (.goesOn q) x.after → I (done ++ [x]) q x.after)
    {earlier later : List (Passage σ)} {x : Passage σ} (hsplit : passes = earlier ++ x :: later) :
    I (done ++ earlier) x.player x.desktop ∧
      x.player.Passes d s x.desktop x.account x.verdict x.after := by
  induction h generalizing done earlier with
  | suspended => simp at hsplit
  | ended pass =>
    cases earlier with
    | nil =>
      cases hsplit
      rw [List.append_nil]
      exact ⟨start, pass⟩
    | cons y earlier =>
      have hnil : [] = earlier ++ x :: later := (List.cons.inj hsplit).2
      simp at hnil
  | @goesOn p q r r₁ a passes pass rest ih =>
    cases earlier with
    | nil =>
      cases hsplit
      rw [List.append_nil]
      exact ⟨start, pass⟩
    | cons y earlier =>
      obtain ⟨rfl, hrest⟩ := List.cons.inj hsplit
      rw [← List.singleton_append, ← List.append_assoc]
      exact ih (keeps done ⟨p, r, a, .goesOn q, r₁⟩ q start rfl pass) hrest

end Chip8
