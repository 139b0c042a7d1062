import Chip8.Player.Rehearsal
import Chip8.Proofs.History

/-!
# The three paces

The timers, the steps and the window each keep a pace of their own: a period, a moment from which it is
counted, and beats at some readings of the clock. On a desktop whose clock never goes back, a pass
either leaves a pace alone, or makes beats that are worth no more than the time since that moment and
then counts from a later one, or resets, which lets every pace count from anew. No pace is ever ahead of
the clock. Whether a pace falls behind it is not said here.
-/

namespace Chip8
set_option autoImplicit false

variable {σ : Type}

/-- The state is valid and not earlier than `t`. -/
def Reached (valid : σ → Prop) (time : σ → Nat) (t : Nat) (r : σ) : Prop := valid r ∧ t ≤ time r

/-- The clock of the desktop never goes back: `time` is a moment that no operation lowers, and a reading
of the clock lies between the moments before and after it. -/
structure Desktop.Clocked (d : Desktop (StateM σ)) (valid : σ → Prop) (time : σ → Nat) : Prop where
  keeps : ∀ t, d.Keeps (Reached valid time t)
  updates : ∀ t, d.Updates (Reached valid time t) (Reached valid time t)
  reads : ∀ t, Triple (Reached valid time t) d.clock fun now r => t ≤ now ∧ Reached valid time now r

theorem le_elapsed_iff {n since now : Nat} (h : since ≤ now) :
    n ≤ elapsed since now ↔ since + n * 1000 ≤ now := by
  unfold elapsed
  omega

/-- A pace that counts from `since` is looked after between `t` and `t'`: the reading that let beats
through, and the moment from which it counts afterwards. -/
inductive Look (period since t t' : Nat) : Option Nat → Nat → Prop where
  | early : Look period since t t' none since
  | due {now mark : Nat} (first : t ≤ now) (due : period ≤ elapsed since now) (later : now ≤ mark)
      (last : mark ≤ t') : Look period since t t' (some now) mark

theorem Look.widen {period since since' s s' t t' : Nat} {reading : Option Nat}
    (h : Look period since s s' reading since') (hs : t ≤ s) (hs' : s' ≤ t') :
    Look period since t t' reading since' := by
  cases h with
  | early => exact .early
  | due first due later last => exact .due (Nat.le_trans hs first) due later (Nat.le_trans last hs')

section
variable {period since since' now t t' : Nat} (h : Look period since t t' (some now) since')
include h

theorem Look.first_le : t ≤ now := by
  cases h with
  | due first _ _ _ => exact first

theorem Look.due_le : period ≤ elapsed since now := by
  cases h with
  | due _ due _ _ => exact due

theorem Look.reading_le : now ≤ since' := by
  cases h with
  | due _ _ later _ => exact later

end

namespace Desktop.Clocked
variable {d : Desktop (StateM σ)} {valid : σ → Prop} {time : σ → Nat} {r r₁ : σ}

theorem onward {α : Type} {x : StateM σ α} {a : α}
    (hx : ∀ t, Triple (Reached valid time t) x fun _ => Reached valid time t) (hr : valid r)
    (hrun : x.run r = (a, r₁)) : valid r₁ ∧ time r ≤ time r₁ :=
  (hx (time r)).of_run ⟨hr, Nat.le_refl _⟩ hrun

theorem read (h : d.Clocked valid time) (hr : valid r) {now : Nat}
    (hread : d.clock.run r = (now, r₁)) : valid r₁ ∧ time r ≤ now ∧ now ≤ time r₁ := by
  obtain ⟨hfirst, hr₁, hlast⟩ := (h.reads (time r)).of_run ⟨hr, Nat.le_refl _⟩ hread
  exact ⟨hr₁, hfirst, hlast⟩

theorem asked (h : d.Clocked valid time) (hr : valid r) :
    valid (d.asked r).2 ∧ time r ≤ time (d.asked r).2 :=
  (h.keeps (time r)).asked ⟨hr, Nat.le_refl _⟩

theorem look_due (h : d.Clocked valid time) (hr : valid r) {period since now mark : Nat} {r₂ r₃ : σ}
    (reads : d.clock.run r = (now, r₁)) (due : period ≤ elapsed since now)
    (meanwhile : valid r₁ → valid r₂ ∧ time r₁ ≤ time r₂) (marks : d.clock.run r₂ = (mark, r₃)) :
    valid r₃ ∧ time r ≤ time r₃ ∧ Look period since (time r) (time r₃) (some now) mark := by
  obtain ⟨hr₁, hnow, hnow'⟩ := h.read hr reads
  obtain ⟨hr₂, hmeanwhile⟩ := meanwhile hr₁
  obtain ⟨hr₃, hmark, hmark'⟩ := h.read hr₂ marks
  have hlater : now ≤ mark := Nat.le_trans hnow' (Nat.le_trans hmeanwhile hmark)
  exact ⟨hr₃, Nat.le_trans hnow (Nat.le_trans hlater hmark'), .due hnow due hlater hmark'⟩

end Desktop.Clocked

namespace Player
variable {d : Desktop (StateM σ)} {valid : σ → Prop} {time : σ → Nat} {s : Stage}
variable {p q : Player} {r r₁ : σ}

theorem Ticks.look {tick : Option Nat} (h : p.Ticks d r tick q r₁) (hd : d.Clocked valid time)
    (hr : valid r) : valid r₁ ∧ time r ≤ time r₁ ∧
      Look tickPeriod p.lastTick (time r) (time r₁) tick q.lastTick := by
  cases h with
  | early reads _ =>
    obtain ⟨hr₁, hnow, hnow'⟩ := hd.read hr reads
    exact ⟨hr₁, Nat.le_trans hnow hnow', .early⟩
  | due reads due marks =>
    exact hd.look_due hr reads (of_decide_eq_true due) (fun hr₁ => ⟨hr₁, Nat.le_refl _⟩) marks

theorem Ticks.others_eq {tick : Option Nat} (h : p.Ticks d r tick q r₁) :
    q.period = p.period ∧ q.lastStep = p.lastStep ∧ q.lastRedraw = p.lastRedraw := by
  cases h with
  | early => exact ⟨rfl, rfl, rfl⟩
  | due => exact ⟨rfl, rfl, rfl⟩

theorem CatchesUp.look {steps : Option (Nat × Nat)} (h : p.CatchesUp d s r steps q r₁)
    (hd : d.Clocked valid time) (hr : valid r) : valid r₁ ∧ time r ≤ time r₁ ∧
      Look p.period p.lastStep (time r) (time r₁) (steps.map Prod.fst) q.lastStep := by
  cases h with
  | early reads _ =>
    obtain ⟨hr₁, hnow, hnow'⟩ := hd.read hr reads
    exact ⟨hr₁, Nat.le_trans hnow hnow', .early⟩
  | due reads due _ marks =>
    apply hd.look_due hr reads (of_decide_eq_true due) _ marks
    intro hr₁
    exact Desktop.Clocked.onward (fun t => (hd.keeps t).log _ _) hr₁ rfl

theorem CatchesUp.worth {now n : Nat} (h : p.CatchesUp d s r (some (now, n)) q r₁) :
    n * p.period ≤ elapsed p.lastStep now := by
  cases h with
  | due => exact Nat.div_mul_le_self _ _

theorem CatchesUp.others_eq {steps : Option (Nat × Nat)} (h : p.CatchesUp d s r steps q r₁) :
    q.period = p.period ∧ q.lastTick = p.lastTick ∧ q.lastRedraw = p.lastRedraw := by
  cases h with
  | early => exact ⟨rfl, rfl, rfl⟩
  | due => exact ⟨rfl, rfl, rfl⟩

theorem Shows.look {redraw : Option Redraw} {shown : Except WindowError Player}
    (h : p.Shows d r redraw shown r₁) (hd : d.Clocked valid time) (hr : valid r) :
    valid r₁ ∧ time r ≤ time r₁ ∧ ∃ since,
      Look redrawPeriod p.lastRedraw (time r) (time r₁) (redraw.map Redraw.reading) since ∧
      ∀ q, shown = .ok q → q.lastRedraw = since := by
  cases h with
  | early reads _ =>
    obtain ⟨hr₁, hnow, hnow'⟩ := hd.read hr reads
    refine ⟨hr₁, Nat.le_trans hnow hnow', _, .early, ?_⟩
    rintro q ⟨⟩
    rfl
  | refused reads due marks _ presents =>
    obtain ⟨hr₂, hmarked, hlook⟩ :=
      hd.look_due hr reads (of_decide_eq_true due) (fun hr₁ => ⟨hr₁, Nat.le_refl _⟩) marks
    obtain ⟨hr₃, hshown⟩ := Desktop.Clocked.onward (fun t => (hd.updates t).present _) hr₂ presents
    refine ⟨hr₃, Nat.le_trans hmarked hshown, _, hlook.widen (Nat.le_refl _) hshown, ?_⟩
    rintro q ⟨⟩
  | presented reads due marks _ presents looks =>
    obtain ⟨hr₂, hmarked, hlook⟩ :=
      hd.look_due hr reads (of_decide_eq_true due) (fun hr₁ => ⟨hr₁, Nat.le_refl _⟩) marks
    obtain ⟨hr₃, hshown⟩ := Desktop.Clocked.onward (fun t => (hd.updates t).present _) hr₂ presents
    obtain ⟨hr₄, hlooked⟩ := Desktop.Clocked.onward (fun t => (hd.keeps t).held) hr₃ looks
    have hlast := Nat.le_trans hshown hlooked
    refine ⟨hr₄, Nat.le_trans hmarked hlast, _, hlook.widen (Nat.le_refl _) hlast, ?_⟩
    rintro q ⟨⟩
    rfl
  | refreshed reads due marks _ looks =>
    obtain ⟨hr₂, hmarked, hlook⟩ :=
      hd.look_due hr reads (of_decide_eq_true due) (fun hr₁ => ⟨hr₁, Nat.le_refl _⟩) marks
    obtain ⟨hr₃, hshown⟩ := Desktop.Clocked.onward (fun t => (hd.updates t).refresh) hr₂ rfl
    obtain ⟨hr₄, hlooked⟩ := Desktop.Clocked.onward (fun t => (hd.keeps t).held) hr₃ looks
    have hlast := Nat.le_trans hshown hlooked
    refine ⟨hr₄, Nat.le_trans hmarked hlast, _, hlook.widen (Nat.le_refl _) hlast, ?_⟩
    rintro q ⟨⟩
    rfl

theorem Shows.others_eq {redraw : Option Redraw} (h : p.Shows d r redraw (.ok q) r₁) :
    q.period = p.period ∧ q.lastStep = p.lastStep ∧ q.lastTick = p.lastTick := by
  cases h with
  | early => exact ⟨rfl, rfl, rfl⟩
  | presented => exact ⟨rfl, rfl, rfl⟩
  | refreshed => exact ⟨rfl, rfl, rfl⟩

end Player

inductive Pace where
  | ticks
  | steps
  | redraws

namespace Pace

/-- Microseconds between two beats. -/
def period : Pace → Player → Nat
  | ticks, _ => tickPeriod
  | steps, p => p.period
  | redraws, _ => redrawPeriod

def since : Pace → Player → Nat
  | ticks, p => p.lastTick
  | steps, p => p.lastStep
  | redraws, p => p.lastRedraw

/-- The reading of the clock that let beats through. -/
def reading : Pace → Account → Option Nat
  | ticks, a => a.tick
  | steps, a => a.steps.map Prod.fst
  | redraws, a => a.redraw.map Redraw.reading

/-- The beats of a pass. Only steps are made up for. -/
def beats : Pace → Account → Nat
  | ticks, a => a.tick.elim 0 fun _ => 1
  | steps, a => a.steps.elim 0 Prod.snd
  | redraws, a => a.redraw.elim 0 fun _ => 1

/-- What a pass between `t` and `t'` comes to for a pace, which counts from `since` afterwards. -/
inductive Turn (c : Pace) (t t' : Nat) (p : Player) (a : Account) (since : Nat) : Prop where
  | looked (look : Look (c.period p) (c.since p) t t' (c.reading a) since)
      (worth : ∀ now, c.reading a = some now → c.beats a * c.period p ≤ elapsed (c.since p) now)
  | restarted (reset : a.reset = true) (silent : c.reading a = none) (first : t ≤ since)
      (last : since ≤ t')

variable {c : Pace} {a : Account}

theorem beats_eq_zero (h : c.reading a = none) : c.beats a = 0 := by
  cases c with
  | ticks =>
    change a.tick = none at h
    simp only [beats, h, Option.elim_none]
  | steps =>
    have hsteps : a.steps = none := Option.map_eq_none_iff.mp h
    simp only [beats, hsteps, Option.elim_none]
  | redraws =>
    have hredraw : a.redraw = none := Option.map_eq_none_iff.mp h
    simp only [beats, hredraw, Option.elim_none]

theorem Turn.widen {p : Player} {since s s' t t' : Nat} (h : c.Turn s s' p a since) (hs : t ≤ s)
    (hs' : s' ≤ t') : c.Turn t t' p a since := by
  cases h with
  | looked look worth => exact .looked (look.widen hs hs') worth
  | restarted reset silent first last =>
    exact .restarted reset silent (Nat.le_trans hs first) (Nat.le_trans last hs')

/-- No pass takes a pace back, and its beats are worth no more than it moves on. -/
theorem Turn.advances {p : Player} {since t t' : Nat} (h : c.Turn t t' p a since)
    (hsince : c.since p ≤ t) (ht : t ≤ t') :
    c.since p + c.beats a * c.period p * 1000 ≤ since ∧ since ≤ t' := by
  cases h with
  | looked look worth =>
    generalize hreading : c.reading a = reading at look
    cases look with
    | early =>
      rw [beats_eq_zero hreading, Nat.zero_mul, Nat.zero_mul]
      exact ⟨Nat.le_refl _, Nat.le_trans hsince ht⟩
    | @due now mark first due later last =>
      have hworth := worth now hreading
      have hnow := (le_elapsed_iff (Nat.le_trans hsince first)).mp hworth
      exact ⟨Nat.le_trans hnow later, last⟩
  | restarted reset silent first last =>
    rw [beats_eq_zero silent, Nat.zero_mul, Nat.zero_mul]
    exact ⟨Nat.le_trans hsince first, last⟩

theorem Turn.of_reading {p : Player} {since t t' now : Nat} (h : c.Turn t t' p a since)
    (hnow : c.reading a = some now) :
    Look (c.period p) (c.since p) t t' (some now) since ∧
      c.beats a * c.period p ≤ elapsed (c.since p) now := by
  cases h with
  | looked look worth =>
    rw [hnow] at look
    exact ⟨look, worth now hnow⟩
  | restarted reset silent first last =>
    rw [silent] at hnow
    cases hnow

theorem Turn.worth_le {p : Player} {since t t' now : Nat} (h : c.Turn t t' p a since)
    (hsince : c.since p ≤ t) (hnow : c.reading a = some now) :
    c.since p + c.beats a * c.period p * 1000 ≤ now := by
  obtain ⟨look, worth⟩ := h.of_reading hnow
  exact (le_elapsed_iff (Nat.le_trans hsince look.first_le)).mp worth

theorem turn_of_silent {p : Player} {t t' : Nat} (h : c.reading a = none) :
    c.Turn t t' p a (c.since p) := by
  refine .looked (h ▸ .early) ?_
  intro now hnow
  rw [h] at hnow
  cases hnow

end Pace

namespace Player
variable {d : Desktop (StateM σ)} {valid : σ → Prop} {time : σ → Nat} {s : Stage}
variable {p : Player} {r r₁ : σ}

theorem stages_turn (c : Pace) {p₁ p₂ : Player} {r₂ r₃ : σ} {tick : Option Nat}
    {steps : Option (Nat × Nat)} {redraw : Option Redraw}
    {shown : Except WindowError Player} (hd : d.Clocked valid time) (hr : valid r)
    (ticks : p.Ticks d r tick p₁ r₁) (catchesUp : p₁.CatchesUp d s r₁ steps p₂ r₂)
    (shows : p₂.Shows d ((d.setTone p₂.emulator.toneActive).run r₂).2 redraw shown r₃) :
    valid r₃ ∧ time r ≤ time r₃ ∧ ∃ since,
      c.Turn (time r) (time r₃) p
        { tick := tick, steps := steps, tone := p₂.emulator.toneActive, redraw := redraw } since ∧
      ∀ q, shown = .ok q → c.since q = since := by
  obtain ⟨hr₁, htime₁, hticks⟩ := ticks.look hd hr
  obtain ⟨hperiod₁, hstep₁, hredraw₁⟩ := ticks.others_eq
  obtain ⟨hr₂, htime₂, hsteps⟩ := catchesUp.look hd hr₁
  obtain ⟨_, htick₂, hredraw₂⟩ := catchesUp.others_eq
  obtain ⟨hr₂', htone⟩ := Desktop.Clocked.onward (fun t => (hd.keeps t).setTone _) hr₂ rfl
  obtain ⟨hr₃, htime₃, since, hredraws, hsince⟩ := shows.look hd hr₂'
  have hend : time r₂ ≤ time r₃ := Nat.le_trans htone htime₃
  refine ⟨hr₃, Nat.le_trans htime₁ (Nat.le_trans htime₂ hend), ?_⟩
  cases c with
  | ticks =>
    refine ⟨p₁.lastTick, .looked (hticks.widen (Nat.le_refl _) (Nat.le_trans htime₂ hend)) ?_, ?_⟩
    · rintro now ⟨⟩
      exact Nat.le_trans (Nat.le_of_eq (Nat.one_mul _)) hticks.due_le
    · rintro q rfl
      exact shows.others_eq.2.2.trans htick₂
  | steps =>
    rw [hperiod₁, hstep₁] at hsteps
    refine ⟨p₂.lastStep, .looked (hsteps.widen htime₁ hend) ?_, ?_⟩
    · intro now hnow
      obtain ⟨⟨_, n⟩, rfl, rfl⟩ := Option.map_eq_some_iff.mp hnow
      have hworth := catchesUp.worth
      rw [hperiod₁, hstep₁] at hworth
      exact hworth
    · rintro q rfl
      exact shows.others_eq.2.1
  | redraws =>
    rw [hredraw₂, hredraw₁] at hredraws
    have hstart : time r ≤ time ((d.setTone p₂.emulator.toneActive).run r₂).2 :=
      Nat.le_trans htime₁ (Nat.le_trans htime₂ htone)
    refine ⟨since, .looked (hredraws.widen hstart (Nat.le_refl _)) ?_, hsince⟩
    intro now hnow
    obtain ⟨redraw, rfl, rfl⟩ := Option.map_eq_some_iff.mp hnow
    exact Nat.le_trans (Nat.le_of_eq (Nat.one_mul _)) hredraws.due_le

theorem Resets.turn (c : Pace) {verdict : Verdict} {v : Verbosity} (h : p.Resets d v r verdict r₁)
    (hd : d.Clocked valid time) (hr : valid r) :
    valid r₁ ∧ time r ≤ time r₁ ∧ ∃ since,
      c.Turn (time r) (time r₁) p { reset := true } since ∧
      ∀ q, verdict = .goesOn q → c.since q = since := by
  cases h with
  | refused fails =>
    refine ⟨hr, Nat.le_refl _, c.since p, Pace.turn_of_silent (by cases c <;> rfl), ?_⟩
    rintro q ⟨⟩
  | @done e events step tick redraw r₂ r₃ _ restarts marksStep marksTick marksRedraw =>
    obtain ⟨hr₁, hlog⟩ := Desktop.Clocked.onward (fun t => (hd.keeps t).log v _) hr rfl
    obtain ⟨hr₂, htone⟩ := Desktop.Clocked.onward (fun t => (hd.keeps t).setTone false) hr₁ rfl
    obtain ⟨hr₃, hstep, hstep'⟩ := hd.read hr₂ marksStep
    obtain ⟨hr₄, htick, htick'⟩ := hd.read hr₃ marksTick
    obtain ⟨hr₅, hredraw, hredraw'⟩ := hd.read hr₄ marksRedraw
    refine ⟨hr₅, by omega, c.since (p.restarted e step tick redraw), ?_, ?_⟩
    · cases c with
      | ticks =>
        have hfirst : time r ≤ tick := by omega
        have hlast : tick ≤ time r₁ := by omega
        exact .restarted rfl rfl hfirst hlast
      | steps =>
        have hfirst : time r ≤ step := by omega
        have hlast : step ≤ time r₁ := by omega
        exact .restarted rfl rfl hfirst hlast
      | redraws =>
        have hfirst : time r ≤ redraw := by omega
        exact .restarted rfl rfl hfirst hredraw'
    · rintro q ⟨⟩
      rfl

theorem Passes.turn (c : Pace) {a : Account} {verdict : Verdict} (h : p.Passes d s r a verdict r₁)
    (hd : d.Clocked valid time) (hr : valid r) :
    ∃ since, c.Turn (time r) (time r₁) p a since ∧
      ∀ q, verdict = .goesOn q → c.since q = since ∧ valid r₁ ∧ time r ≤ time r₁ := by
  obtain ⟨hr₀, hasked⟩ := hd.asked hr
  cases h with
  | closed =>
    refine ⟨c.since p, Pace.turn_of_silent (by cases c <;> rfl), ?_⟩
    rintro q ⟨⟩
  | reset pressed touched resets =>
    obtain ⟨hr₁, htime, since, hturn, hsince⟩ := resets.turn c hd hr₀
    refine ⟨since, hturn.widen hasked (Nat.le_refl _), fun q hq => ?_⟩
    exact ⟨hsince q hq, hr₁, Nat.le_trans hasked htime⟩
  | goesOn calm ticks catchesUp shows =>
    obtain ⟨hr₃, htime, since, hturn, hsince⟩ := stages_turn c hd hr₀ ticks catchesUp shows
    obtain ⟨hr₄, hpause⟩ := Desktop.Clocked.onward (fun t => Player.pause_triple _ (hd.keeps t)) hr₃ rfl
    refine ⟨since, hturn.widen hasked hpause, ?_⟩
    rintro q ⟨⟩
    exact ⟨hsince _ rfl, hr₄, Nat.le_trans hasked (Nat.le_trans htime hpause)⟩
  | failed calm ticks catchesUp shows =>
    obtain ⟨hr₃, htime, since, hturn, _⟩ := stages_turn c hd hr₀ ticks catchesUp shows
    refine ⟨since, hturn.widen hasked (Nat.le_refl _), ?_⟩
    rintro q ⟨⟩

theorem Resets.period_eq {q : Player} {v : Verbosity} (h : p.Resets d v r (.goesOn q) r₁) :
    q.period = p.period := by
  cases h with
  | done => rfl

theorem Passes.period_eq {q : Player} {a : Account} (h : p.Passes d s r a (.goesOn q) r₁) :
    q.period = p.period := by
  cases h with
  | reset _ _ resets => exact resets.period_eq
  | goesOn _ ticks catchesUp shows =>
    exact shows.others_eq.1.trans (catchesUp.others_eq.1.trans ticks.others_eq.1)

end Player

namespace Rehearsal

/-- Nanoseconds since the start. -/
def clock (r : Rehearsal) : Nat := r.time * 1000

theorem update_clock_le (s : Script) (event : Nat → Option (List Sample) → WindowEvent)
    (r : Rehearsal) : r.clock ≤ (update s event r).clock :=
  Nat.mul_le_mul_right 1000 (Nat.le_add_right r.time s.draw)

theorem desktop_clocked (s : Script) : (desktop s).Clocked (fun _ => True) clock where
  keeps t :=
    { print := fun text r hr => hr
      setTone := fun on r hr => hr
      isOpen := by
        intro r hr
        refine ⟨trivial, Nat.le_trans hr.2 ?_⟩
        exact Nat.mul_le_mul_right 1000 (Nat.le_add_right r.time _)
      held := fun r hr => hr
      isPressed := by
        intro key r hr
        refine ⟨trivial, ?_⟩
        obtain ⟨frames, hframes⟩ := askPressed_frames key r
        change t ≤ (askPressed key r).2.clock
        rw [hframes]
        exact hr.2
      clock := fun r hr => hr
      sleep := by
        intro micros r hr
        refine ⟨trivial, Nat.le_trans hr.2 ?_⟩
        exact Nat.mul_le_mul_right 1000 (Nat.le_add_right_of_le (Nat.le_add_right r.time micros)) }
  updates t :=
    { present := by
        intro pixels r hr
        refine ⟨trivial, Nat.le_trans hr.2 ?_⟩
        rw [present_run]
        split
        · exact Nat.le_refl _
        · exact update_clock_le s _ r
      refresh := fun r hr => ⟨trivial, Nat.le_trans hr.2 (update_clock_le s _ r)⟩ }
  reads t r hr := ⟨hr.2, trivial, Nat.le_refl _⟩

end Rehearsal
end Chip8
