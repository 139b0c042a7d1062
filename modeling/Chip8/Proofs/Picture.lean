import Chip8.Player.Rehearsal
import Chip8.Proofs.Effects
import Chip8.Proofs.History

/-!
# What the window shows

The pixels that the window was last given are those of the screen, unless the screen is marked as drawn
on. Steps that draw set the mark, ticks leave the screen alone, a reset starts with the mark set, and an
update of the window clears it only after it gave the window new pixels. So after an update the window
shows the screen, also where the update brought no new pixels.
-/

namespace Chip8
set_option autoImplicit false

variable {σ : Type}

/-- The screen `s'` is as `s` was, or is marked as drawn on. -/
def Screen.Onward (s s' : Screen) : Prop := s' = s ∨ s'.dirty = true

theorem Screen.Onward.trans {s s' s'' : Screen} (h : s.Onward s') (h' : s'.Onward s'') :
    s.Onward s'' := by
  rcases h' with rfl | hdirty
  · exact h
  · exact Or.inr hdirty

theorem Machine.step_screen (m : Machine) (keys : Keys) (random : RandomBytes) :
    m.screen.Onward (m.step keys random).machine.screen := by
  cases hwait : m.keyWait with
  | some x =>
    rw [step_waiting keys random hwait]
    rcases m.poll_machine keys x with hpoll | ⟨key, hpoll⟩
    · rw [hpoll]
      exact Or.inl rfl
    · rw [hpoll]
      exact Or.inl rfl
  | none =>
    rw [step_running keys random hwait]
    rcases execute_screen { m with pc := next m.pc } keys random (.decode (m.memory.word m.pc))
      with hkept | ⟨_, hcleared⟩ | ⟨x, y, n, _, hdrawn⟩
    · exact Or.inl hkept
    · rw [hcleared]
      exact Or.inr rfl
    · rw [hdrawn]
      exact Or.inr rfl

namespace Emulator

theorem steps_screen (keys : Keys) (random : RandomBytes) (v : Verbosity) (n : Nat) (e : Emulator)
    (log : Array Event) :
    e.machine.screen.Onward (e.steps keys random v n log).1.machine.screen := by
  induction n generalizing e log with
  | zero => exact Or.inl rfl
  | succ n ih => exact (e.machine.step_screen keys random).trans (ih _ _)

theorem reset_screen {e e' : Emulator} {events : List Event} (h : e.reset = .ok (e', events)) :
    e'.machine.screen = .blank := by
  cases hload : Memory.blank.load e.rom with
  | error cause => simp [reset, hload, bind, Except.bind] at h
  | ok memory =>
    rw [reset_eq_ok hload] at h
    cases h
    rfl

end Emulator

def Showing (valid : σ → Prop) (shown : σ → Option (Array UInt32)) (picture : Option (Array UInt32))
    (r : σ) : Prop :=
  valid r ∧ shown r = picture

/-- What the window was last given is part of the state of the desktop: an update that succeeds with
new pixels sets it, and nothing else changes it. -/
structure Desktop.Displays (d : Desktop (StateM σ)) (valid : σ → Prop)
    (shown : σ → Option (Array UInt32)) : Prop where
  keeps : ∀ picture, d.Keeps (Showing valid shown picture)
  refresh : ∀ picture, Triple (Showing valid shown picture) d.refresh fun _ =>
    Showing valid shown picture
  present : ∀ pixels, Triple valid (d.present pixels) fun result r =>
    valid r ∧ (result = .ok () → shown r = some pixels)

/-- The window was last given the screen, or the screen is marked as drawn on. -/
def Screen.Current (s : Screen) (picture : Option (Array UInt32)) : Prop :=
  s.dirty = false → picture = some (paint s)

theorem Screen.Onward.current {s s' : Screen} (h : s.Onward s') {picture : Option (Array UInt32)}
    (hs : s.Current picture) : s'.Current picture := by
  rcases h with rfl | hdirty
  · exact hs
  · intro hclean
    rw [hdirty] at hclean
    cases hclean

theorem paint_spec (s : Screen) : (paint s).size = screenSize ∧ ∀ k (hk : k < screenSize),
    (paint s)[k]? = some (if s.cells[k] = 1 then litColour else darkColour) := by
  refine ⟨by simp [paint, Screen.colours], ?_⟩
  intro k hk
  have hcell : s.cells.toArray[k]? = some s.cells[k] := by
    simp [hk]
  unfold paint Screen.colours
  rw [Array.map_map, Array.getElem?_map, hcell, Option.map_some, Function.comp_apply]
  by_cases hlit : s.cells[k] = 1
  · simp [hlit]
  · simp [hlit]

namespace Player
variable {d : Desktop (StateM σ)} {s : Stage} {p q : Player} {r r₁ : σ}

theorem Ticks.screen_eq {tick : Option Nat} (h : p.Ticks d r tick q r₁) :
    q.emulator.machine.screen = p.emulator.machine.screen := by
  cases h with
  | early => rfl
  | due => rfl

theorem CatchesUp.screen {steps : Option (Nat × Nat)} (h : p.CatchesUp d s r steps q r₁) :
    p.emulator.machine.screen.Onward q.emulator.machine.screen := by
  cases h with
  | early => exact Or.inl rfl
  | @due now _ _ _ _ _ _ _ steps _ =>
    have hsteps := p.emulator.steps_screen p.keypad.isDown s.random s.verbosity (p.owed now) #[]
    rw [steps] at hsteps
    exact hsteps

theorem Resets.screen_eq {v : Verbosity} (h : p.Resets d v r (.goesOn q) r₁) :
    q.emulator.machine.screen = .blank := by
  cases h with
  | done restarts => exact Emulator.reset_screen restarts

variable {valid : σ → Prop} {shown : σ → Option (Array UInt32)}

/-- An update leaves the mark cleared, and the window then shows the screen. -/
theorem Shows.current {redraw : Option Redraw} (h : p.Shows d r redraw (.ok q) r₁)
    (hd : d.Displays valid shown) (hr : valid r) (hp : p.emulator.machine.screen.Current (shown r)) :
    valid r₁ ∧ q.emulator.machine.screen.Current (shown r₁) ∧
      (redraw.isSome → q.emulator.machine.screen.dirty = false) := by
  have hkeeps := hd.keeps (shown r)
  have hstart : Showing valid shown (shown r) r := ⟨hr, rfl⟩
  cases h with
  | early reads _ =>
    obtain ⟨hr₁, hshown⟩ := hkeeps.clock.of_run hstart reads
    rw [hshown]
    exact ⟨hr₁, hp, fun h => absurd h (by decide)⟩
  | presented reads _ marks _ presents looks =>
    have hmarked := hkeeps.clock.of_run (hkeeps.clock.of_run hstart reads) marks
    obtain ⟨hr₃, hgiven⟩ := (hd.present _).of_run hmarked.1 presents
    obtain ⟨hr₄, hshown⟩ := (hd.keeps _).held.of_run ⟨hr₃, hgiven rfl⟩ looks
    exact ⟨hr₄, fun _ => hshown, fun _ => rfl⟩
  | refreshed reads _ marks clean looks =>
    have hmarked := hkeeps.clock.of_run (hkeeps.clock.of_run hstart reads) marks
    have hrefreshed := hd.refresh _ _ hmarked
    obtain ⟨hr₃, hshown⟩ := hkeeps.held.of_run hrefreshed looks
    rw [hshown]
    exact ⟨hr₃, hp, fun _ => clean⟩

theorem Passes.current {a : Account} (h : p.Passes d s r a (.goesOn q) r₁)
    (hd : d.Displays valid shown) (hr : valid r) (hp : p.emulator.machine.screen.Current (shown r)) :
    valid r₁ ∧ q.emulator.machine.screen.Current (shown r₁) ∧
      (a.redraw.isSome → q.emulator.machine.screen.dirty = false) := by
  have hkeeps := hd.keeps (shown r)
  have hasked : Showing valid shown (shown r) (d.asked r).2 := hkeeps.asked ⟨hr, rfl⟩
  cases h with
  | reset _ _ resets =>
    have hr₁ := resets.keeps hkeeps.log (hkeeps.setTone false) hkeeps.clock hasked
    refine ⟨hr₁.1, ?_, fun h => absurd h (by decide)⟩
    rw [resets.screen_eq]
    intro hclean
    cases hclean
  | goesOn _ ticks catchesUp shows =>
    have hr₁ := ticks.keeps hkeeps.clock hasked
    have hr₂ := catchesUp.keeps hkeeps.clock hkeeps.log hr₁
    obtain ⟨hr₂', htone⟩ := hkeeps.setTone _ _ hr₂
    have hstepped := catchesUp.screen
    rw [ticks.screen_eq] at hstepped
    have hdrawn := hstepped.current hp
    rw [← htone] at hdrawn
    obtain ⟨hr₃, hcurrent, hclean⟩ := shows.current hd hr₂' hdrawn
    obtain ⟨hr₄, hpause⟩ := Player.pause_triple q (hd.keeps _) _ ⟨hr₃, rfl⟩
    rw [hpause]
    exact ⟨hr₄, hcurrent, hclean⟩

theorem Passes.refused {a : Account} {verdict : Verdict} (h : p.Passes d s r a verdict r₁)
    (hredraw : a.redraw.isSome) :
    (∃ cause, verdict = .failed (.window cause)) ∨ ∃ q, verdict = .goesOn q := by
  cases h with
  | closed => cases hredraw
  | reset => cases hredraw
  | goesOn => exact Or.inr ⟨_, rfl⟩
  | failed => exact Or.inl ⟨_, rfl⟩

end Player

theorem History.current {d : Desktop (StateM σ)} {valid : σ → Prop}
    {shown : σ → Option (Array UInt32)} {s : Stage} {p : Player} {r : σ} {passes : List (Passage σ)}
    (h : History d s p r passes) (hd : d.Displays valid shown) (hr : valid r)
    (hp : p.emulator.machine.screen.Current (shown r)) {x : Passage σ} (hx : x ∈ passes) :
    valid x.desktop ∧ x.player.emulator.machine.screen.Current (shown x.desktop) ∧
      x.player.Passes d s x.desktop x.account x.verdict x.after := by
  let I (_ : List (Passage σ)) (p : Player) (r : σ) : Prop :=
    valid r ∧ p.emulator.machine.screen.Current (shown r)
  have hstart : I [] p r := ⟨hr, hp⟩
  have hkeeps : ∀ done x q, I done x.player x.desktop → x.verdict = .goesOn q →
      x.player.Passes d s x.desktop x.account (.goesOn q) x.after → I (done ++ [x]) q x.after := by
    intro done x q hI _ pass
    obtain ⟨hvalid, hcurrent, _⟩ := pass.current hd hI.1 hI.2
    exact ⟨hvalid, hcurrent⟩
  obtain ⟨earlier, later, hsplit⟩ := List.append_of_mem hx
  obtain ⟨⟨hvalid, hcurrent⟩, pass⟩ := h.before hstart hkeeps hsplit
  exact ⟨hvalid, hcurrent, pass⟩

/-- In every run of the main loop, with any number of resets: after each pass with an update of the
window that was not refused, the pixels which the window was last given are those of the screen. -/
theorem window_shows_screen {d : Desktop (StateM σ)} {valid : σ → Prop}
    {shown : σ → Option (Array UInt32)} (hd : d.Displays valid shown) {r : σ} (hr : valid r)
    {rom : Rom} {draws : Nat} {e : Emulator} {events : List Event}
    (hstart : Emulator.start rom draws = .ok (e, events)) (s : Stage) (cyclesPerSecond : UInt32)
    (step tick redraw n : Nat) :
    let start : Player := ⟨e, .released, stepPeriod cyclesPerSecond, step, tick, redraw⟩
    let passes := start.history d s n r
    ((Player.run d s (fun accounts a => accounts ++ [a]) n start []).run r).1.1 =
      passes.map Passage.account ∧
    ∀ x ∈ passes, x.account.redraw.isSome →
      (∃ cause, x.verdict = .failed (.window cause)) ∨
      ∃ q pixels, x.verdict = .goesOn q ∧ shown x.after = some pixels ∧ pixels.size = screenSize ∧
        ∀ k (hk : k < screenSize), pixels[k]? =
          some (if q.emulator.machine.screen.cells[k] = 1 then litColour else darkColour) := by
  intro start passes
  refine ⟨Player.accounts_run d s n start r, ?_⟩
  intro x hx hredraw
  have hhistory : History d s start r passes := Player.history_history d s n start r
  have hfirst : start.emulator.machine.screen.Current (shown r) := by
    obtain ⟨memory, _, rfl, _⟩ := Emulator.start_eq_ok hstart
    intro hclean
    cases hclean
  obtain ⟨hvalid, hcurrent, pass⟩ := hhistory.current hd hr hfirst hx
  rcases pass.refused hredraw with hrefused | ⟨q, hq⟩
  · exact Or.inl hrefused
  · rw [hq] at pass
    obtain ⟨_, hshown, hclean⟩ := pass.current hd hvalid hcurrent
    obtain ⟨hsize, hpixels⟩ := paint_spec q.emulator.machine.screen
    exact Or.inr ⟨q, _, hq, hshown (hclean hredraw), hsize, hpixels⟩

namespace Rehearsal

def lastPicture (r : Rehearsal) : Option (Array UInt32) :=
  r.events.foldl (fun last event => match event with
    | .presented _ _ pixels => some pixels
    | _ => last) none

theorem update_lastPicture_presented (s : Script) (pixels : Array UInt32) (r : Rehearsal) :
    (update s (fun time samples => .presented time samples pixels) r).lastPicture = some pixels :=
  Array.foldl_push

theorem update_lastPicture_refreshed (s : Script) (r : Rehearsal) :
    (update s .refreshed r).lastPicture = r.lastPicture :=
  Array.foldl_push

theorem desktop_displays (s : Script) : (desktop s).Displays (fun _ => True) lastPicture where
  keeps picture :=
    { print := fun text r hr => hr
      setTone := fun on r hr => hr
      isOpen := fun r hr => hr
      held := fun r hr => hr
      isPressed := by
        intro key r hr
        obtain ⟨frames, hframes⟩ := askPressed_frames key r
        refine ⟨trivial, ?_⟩
        change (askPressed key r).2.lastPicture = picture
        rw [hframes]
        exact hr.2
      clock := fun r hr => hr
      sleep := fun micros r hr => hr }
  refresh picture r hr := ⟨trivial, (update_lastPicture_refreshed s r).trans hr.2⟩
  present pixels r hr := by
    rw [present_run]
    refine ⟨trivial, ?_⟩
    split
    · rintro ⟨⟩
    · exact fun _ => update_lastPicture_presented s pixels r

/-- F1 is pressed after the first update. -/
def restarted : Script where
  files := ⟨[], []⟩
  card := none
  frames := [⟨[], [], false, none⟩, ⟨[], [.f1], false, none⟩, ⟨[], [], false, none⟩]
  work := 17000
  draw := 0
  oversleep := 0
  maxPasses := 40
  windowFailure := none
  updateFailure := none
  pull := 0

/-- The ROM draws a digit and then stays where it is. -/
def digitRom : Rom := #[0xA0, 0x50, 0xD0, 0x05, 0x12, 0x04]

def restartedRun (e : Emulator) : List (Passage Rehearsal) :=
  Player.history (desktop restarted) ⟨fun _ => 0, .upTo .info⟩ 5 (start restarted)
    ⟨e, .released, stepPeriod 300, 0, 0, 0⟩

end Rehearsal

/-- New pixels, a reset, new pixels, an update without new pixels, and the window is closed. -/
theorem window_shows_screen_of_restarted :
    ∃ e events, Emulator.start Rehearsal.digitRom 0 = .ok (e, events) ∧
      (Rehearsal.desktop Rehearsal.restarted).Displays (fun _ => True) Rehearsal.lastPicture ∧
      (Rehearsal.restartedRun e).map (fun x =>
        (x.account.reset, x.account.redraw.map fun redraw => redraw.pixels.isSome)) =
        [(false, some true), (true, none), (false, some true), (false, some false),
          (false, none)] ∧
      ∀ x ∈ Rehearsal.restartedRun e, x.account.redraw.isSome →
        (∃ cause, x.verdict = .failed (.window cause)) ∨
        ∃ q pixels, x.verdict = .goesOn q ∧ x.after.lastPicture = some pixels ∧
          pixels.size = screenSize ∧ ∀ k (hk : k < screenSize), pixels[k]? =
            some (if q.emulator.machine.screen.cells[k] = 1 then litColour else darkColour) :=
  ⟨_, _, rfl, Rehearsal.desktop_displays _, by decide +kernel,
    (window_shows_screen (Rehearsal.desktop_displays _) trivial (rfl : Emulator.start
      Rehearsal.digitRom 0 = .ok (_, _)) _ 300 0 0 0 5).2⟩

end Chip8
