import Chip8.Proofs.Workload

/-!
# Falling behind the clock

The beats of a run without resets make up for the time since its start exactly as long as the time that
was lost on the way, and what is unpaid at the reading, stay below one period together. Steps lose what
is left over of a division, and the time that stepping takes; ticks lose whatever a pass is late by.
What is lost is never made up for.
-/

namespace Chip8
set_option autoImplicit false

variable {σ : Type}

/-- The beats that fit between two moments, against `n` beats that leave `lag` unpaid. -/
theorem elapsed_div_le_iff {origin n period lag now : Nat} (hpos : 0 < period)
    (hnow : now = origin + n * period * 1000 + lag) :
    elapsed origin now / period ≤ n ↔ lag < period * 1000 := by
  have hsub : now - origin = lag + period * 1000 * n := by
    rw [hnow, Nat.add_assoc, Nat.add_sub_cancel_left, Nat.add_comm]
    congr 1
    ac_rfl
  have hpos' : 0 < period * 1000 := Nat.mul_pos hpos (by decide)
  have hfits : elapsed origin now / period = lag / (period * 1000) + n := by
    unfold elapsed
    rw [Nat.div_div_eq_div_mul, Nat.mul_comm 1000, hsub, Nat.add_mul_div_left _ _ hpos']
  rw [hfits, ← Nat.div_eq_zero_iff_lt hpos']
  generalize lag / (period * 1000) = more
  omega

namespace Pace
variable {c : Pace} {valid : σ → Prop} {time : σ → Nat} {origin : Player} {earlier : List (Passage σ)}
variable {x : Passage σ} {now : Nat}

theorem Ledger.keeps_up_iff (h : c.Ledger valid time origin earlier x.player x.desktop)
    (calm : ∀ y ∈ earlier, y.account.reset = false) (hpos : 0 < c.period origin)
    (hpaid : c.since x.player + c.beats x.account * c.period x.player * 1000 ≤ now) :
    elapsed (c.since origin) now / c.period origin ≤
        c.total ((earlier ++ [x]).map Passage.account) ↔
      (earlier.map c.lost).sum + c.unpaid x now < c.period origin * 1000 := by
  apply elapsed_div_le_iff hpos
  have hnow : now = c.since x.player + c.beats x.account * c.period origin * 1000 +
      c.unpaid x now := by
    rw [unpaid, ← h.period_eq, Nat.add_sub_of_le hpaid]
  rw [List.map_append, List.map_singleton, total_append, total_singleton]
  exact worth_add_eq (h.since_eq calm) hnow

end Pace

def Verdict.isClosed : Verdict → Bool
  | closed => true
  | _ => false

namespace Player
variable {d : Desktop (StateM σ)} {s : Stage} {p : Player} {r r₁ : σ}

/-- A pass that goes past the check for a reset ticks at the reading that follows, or does not tick. -/
theorem Passes.tick_reading {a : Account} {verdict : Verdict} (h : p.Passes d s r a verdict r₁)
    (calm : a.reset = false) (goes : verdict.isClosed = false) :
    a.tick = none ∨ a.tick = some (d.clock.run (d.asked r).2).1 := by
  have hticks : ∀ {q r₂} {tick : Option Nat}, p.Ticks d (d.asked r).2 tick q r₂ →
      tick = none ∨ tick = some (d.clock.run (d.asked r).2).1 := by
    intro q r₂ tick ticks
    cases ticks with
    | early => exact Or.inl rfl
    | due reads => exact Or.inr (by rw [reads])
  cases h with
  | closed => cases goes
  | reset => cases calm
  | goesOn _ ticks => exact hticks ticks
  | failed _ ticks => exact hticks ticks

/-- The steps of a pass are counted from the moment before it, at its rate. -/
theorem Passes.owed_eq {a : Account} {verdict : Verdict} {now owed : Nat}
    (h : p.Passes d s r a verdict r₁) (hsteps : a.steps = some (now, owed)) :
    owed = elapsed p.lastStep now / p.period := by
  have hcatches : ∀ {p₁ q : Player} {tick : Option Nat} {steps : Option (Nat × Nat)} {r₁ r₂ : σ},
      p.Ticks d (d.asked r).2 tick p₁ r₁ → p₁.CatchesUp d s r₁ steps q r₂ →
      steps = some (now, owed) → owed = elapsed p.lastStep now / p.period := by
    intro p₁ q tick steps r₁ r₂ ticks catchesUp hsteps
    obtain ⟨hperiod, hsince, _⟩ := ticks.others_eq
    cases catchesUp with
    | early => cases hsteps
    | due =>
      cases hsteps
      rw [owed, hperiod, hsince]
  cases h with
  | closed => cases hsteps
  | reset => cases hsteps
  | goesOn _ ticks catchesUp => exact hcatches ticks catchesUp hsteps
  | failed _ ticks catchesUp => exact hcatches ticks catchesUp hsteps

end Player

theorem steps_unpaid_lt {d : Desktop (StateM σ)} {s : Stage} {x : Passage σ} {now owed : Nat}
    (pass : x.player.Passes d s x.desktop x.account x.verdict x.after) (hpos : 0 < x.player.period)
    (hsteps : x.account.steps = some (now, owed)) :
    Pace.steps.unpaid x now < x.player.period * 1000 := by
  have hbeats : Pace.steps.beats x.account = elapsed x.player.lastStep now / x.player.period := by
    rw [← pass.owed_eq hsteps]
    simp only [Pace.beats, hsteps, Option.elim_some]
  have hfits : elapsed x.player.lastStep now <
      x.player.period * (elapsed x.player.lastStep now / x.player.period + 1) :=
    Nat.lt_mul_div_succ _ hpos
  rw [← hbeats, Nat.mul_add, Nat.mul_one, Nat.mul_comm] at hfits
  unfold Pace.unpaid
  change now - (x.player.lastStep + Pace.steps.beats x.account * x.player.period * 1000) <
    x.player.period * 1000
  unfold elapsed at hfits
  omega

/-- In every run of the main loop without a reset: right after a catching up, the steps made so far are
all that fit into the time up to its reading if and only if the time lost by the catching up before, and
what is unpaid at the reading, are less than a period together. What is unpaid is by itself less than a
period, so that without a loss no step is ever missing. -/
theorem steps_keep_up_iff {d : Desktop (StateM σ)} {valid : σ → Prop} {time : σ → Nat}
    (hd : d.Clocked valid time) {r : σ} (hr : valid r) (e : Emulator) (s : Stage)
    (cyclesPerSecond : UInt32) {step : Nat} (hstep : step ≤ time r) (tick redraw n : Nat) :
    let start : Player := ⟨e, .released, stepPeriod cyclesPerSecond, step, tick, redraw⟩
    let passes := start.history d s n r
    ((Player.run d s (fun accounts a => accounts ++ [a]) n start []).run r).1.1 =
      passes.map Passage.account ∧
    Passage.IsSession s e passes ∧
    ((∀ x ∈ passes, x.account.reset = false) →
      ∀ earlier x later now owed, passes = earlier ++ x :: later →
        x.account.steps = some (now, owed) →
        Pace.steps.unpaid x now < stepPeriod cyclesPerSecond * 1000 ∧
        (elapsed step now / stepPeriod cyclesPerSecond ≤
            Pace.steps.total ((earlier ++ [x]).map Passage.account) ↔
          (earlier.map Pace.steps.lost).sum + Pace.steps.unpaid x now <
            stepPeriod cyclesPerSecond * 1000)) := by
  intro start passes
  have hhistory : History d s start r passes := Player.history_history d s n start r
  refine ⟨Player.accounts_run d s n start r, hhistory.isSession, ?_⟩
  intro calm earlier x later now owed hsplit hsteps
  obtain ⟨ledger, pass⟩ := hhistory.ledger hd hr .steps hstep hsplit
  obtain ⟨since, hturn, _⟩ := pass.turn .steps hd ledger.valid
  have hreading : Pace.steps.reading x.account = some now := congrArg (Option.map Prod.fst) hsteps
  have hcalm : ∀ y ∈ earlier, y.account.reset = false := by
    intro y hy
    exact calm y (hsplit ▸ List.mem_append_left _ hy)
  have hpos : 0 < start.period := stepPeriod_pos cyclesPerSecond
  have hperiod : x.player.period = start.period := ledger.period_eq
  refine ⟨?_, ledger.keeps_up_iff hcalm hpos (hturn.worth_le ledger.since_le hreading)⟩
  have hunpaid := steps_unpaid_lt pass (hperiod ▸ hpos) hsteps
  rw [hperiod] at hunpaid
  exact hunpaid

namespace Rehearsal

/-- An update of the window takes longer than a step lasts at 83 steps a second. -/
def sluggish : Script where
  files := ⟨[], []⟩
  card := none
  frames := [⟨[], [], false, none⟩, ⟨[], [], false, none⟩, ⟨[], [], false, none⟩,
    ⟨[], [], false, none⟩]
  work := 20000
  draw := 13000
  oversleep := 0
  maxPasses := 2
  windowFailure := none
  updateFailure := none
  pull := 0

def sluggishRun (e : Emulator) : List (Passage Rehearsal) :=
  Player.history (desktop sluggish) ⟨fun _ => 0, .upTo .info⟩ 2 (start sluggish)
    ⟨e, .released, stepPeriod 83, 0, 0, 0⟩

theorem sluggishRun_steps : ∃ e events, Emulator.start #[0x12, 0x00] 0 = .ok (e, events) ∧
    (∀ x ∈ sluggishRun e, x.account.reset = false) ∧ ∃ x y, sluggishRun e = [x, y] ∧
      x.account.steps = some (20000000, 1) ∧ y.account.steps = some (53000000, 2) := by
  have hrun : ∃ e events, Emulator.start #[0x12, 0x00] 0 = .ok (e, events) ∧
      (sluggishRun e).map (fun x => (x.account.reset, x.account.steps)) =
        [(false, some (20000000, 1)), (false, some (53000000, 2))] :=
    ⟨_, _, rfl, by decide +kernel⟩
  obtain ⟨e, events, hstart, hsteps⟩ := hrun
  simp only [List.map_eq_cons_iff, List.map_eq_nil_iff, Prod.mk.injEq] at hsteps
  obtain ⟨x, _, hpasses, ⟨hx, hx'⟩, y, _, rfl, ⟨hy, hy'⟩, rfl⟩ := hsteps
  refine ⟨e, events, hstart, ?_, x, y, hpasses, hx', hy'⟩
  rw [hpasses]
  simp only [List.mem_cons, List.not_mem_nil, or_false, forall_eq_or_imp, forall_eq]
  exact ⟨hx, hy⟩

end Rehearsal

/-- A step that is owed is never made. -/
theorem step_lost : ∃ e events, Emulator.start #[0x12, 0x00] 0 = .ok (e, events) ∧
    (Rehearsal.desktop Rehearsal.sluggish).Clocked (fun _ => True) Rehearsal.clock ∧
    (∀ x ∈ Rehearsal.sluggishRun e, x.account.reset = false) ∧
    ∃ earlier x later now owed, Rehearsal.sluggishRun e = earlier ++ x :: later ∧
      x.account.steps = some (now, owed) ∧
      ¬ elapsed 0 now / stepPeriod 83 ≤
        Pace.steps.total ((earlier ++ [x]).map Passage.account) := by
  obtain ⟨e, events, hstart, hcalm, x, y, hpasses, hx, hy⟩ := Rehearsal.sluggishRun_steps
  refine ⟨e, events, hstart, Rehearsal.desktop_clocked _, hcalm, [x], y, [], 53000000, 2, hpasses,
    hy, ?_⟩
  simp only [Pace.total, Pace.beats, List.cons_append, List.nil_append, List.map_cons,
    List.map_nil, List.sum_cons, List.sum_nil, hx, hy, Option.elim_some]
  decide

theorem steps_keep_up_iff_of_sluggish :
    ∃ e events, Emulator.start #[0x12, 0x00] 0 = .ok (e, events) ∧
      (Rehearsal.desktop Rehearsal.sluggish).Clocked (fun _ => True) Rehearsal.clock ∧
      ∃ x y, Rehearsal.sluggishRun e = [x, y] ∧ x.account.steps = some (20000000, 1) ∧
        y.account.steps = some (53000000, 2) ∧
        Passage.IsSession ⟨fun _ => 0, .upTo .info⟩ e [x, y] ∧
        (elapsed 0 20000000 / stepPeriod 83 ≤ Pace.steps.total [x.account] ↔
          Pace.steps.unpaid x 20000000 < stepPeriod 83 * 1000) ∧
        (elapsed 0 53000000 / stepPeriod 83 ≤ Pace.steps.total [x.account, y.account] ↔
          Pace.steps.lost x + Pace.steps.unpaid y 53000000 < stepPeriod 83 * 1000) := by
  obtain ⟨e, events, hstart, hcalm, x, y, hpasses, hx, hy⟩ := Rehearsal.sluggishRun_steps
  obtain ⟨_, hsession, hkeeps⟩ := steps_keep_up_iff
    (Rehearsal.desktop_clocked Rehearsal.sluggish) (r := Rehearsal.start Rehearsal.sluggish) trivial
    e ⟨fun _ => 0, .upTo .info⟩ 83 (Nat.zero_le _) 0 0 2
  have hfirst := (hkeeps hcalm [] x [y] _ _ hpasses hx).2
  have hsecond := (hkeeps hcalm [x] y [] _ _ hpasses hy).2
  simp only [List.map_cons, List.map_nil, List.sum_cons, List.sum_nil, Nat.zero_add, Nat.add_zero,
    List.cons_append, List.nil_append] at hfirst hsecond
  exact ⟨e, events, hstart, Rehearsal.desktop_clocked _, x, y, hpasses, hx, hy, hpasses ▸ hsession,
    hfirst, hsecond⟩

/-- In every run of the main loop without a reset: after the check of a pass for a tick, the ticks so far
are all that fit into the time up to its reading if and only if the time lost by the ticks before, and
what is unpaid at the reading, are less than a period together. -/
theorem ticks_keep_up_iff {d : Desktop (StateM σ)} {valid : σ → Prop} {time : σ → Nat}
    (hd : d.Clocked valid time) {r : σ} (hr : valid r) (e : Emulator) (s : Stage)
    (cyclesPerSecond : UInt32) {tick : Nat} (htick : tick ≤ time r) (step redraw n : Nat) :
    let start : Player := ⟨e, .released, stepPeriod cyclesPerSecond, step, tick, redraw⟩
    let passes := start.history d s n r
    ((Player.run d s (fun accounts a => accounts ++ [a]) n start []).run r).1.1 =
      passes.map Passage.account ∧
    Passage.IsSession s e passes ∧
    ((∀ x ∈ passes, x.account.reset = false) →
      ∀ earlier x later, passes = earlier ++ x :: later → x.verdict.isClosed = false →
        let now := (d.clock.run (d.asked x.desktop).2).1
        (elapsed tick now / tickPeriod ≤
            Pace.ticks.total ((earlier ++ [x]).map Passage.account) ↔
          (earlier.map Pace.ticks.lost).sum + Pace.ticks.unpaid x now < tickPeriod * 1000)) := by
  intro start passes
  have hhistory : History d s start r passes := Player.history_history d s n start r
  refine ⟨Player.accounts_run d s n start r, hhistory.isSession, ?_⟩
  intro calm earlier x later hsplit hgoes now
  obtain ⟨ledger, pass⟩ := hhistory.ledger hd hr .ticks htick hsplit
  obtain ⟨since, hturn, _⟩ := pass.turn .ticks hd ledger.valid
  have hcalm : ∀ y ∈ earlier, y.account.reset = false := by
    intro y hy
    exact calm y (hsplit ▸ List.mem_append_left _ hy)
  have hx : x.account.reset = false := calm x (hsplit ▸ List.mem_append_right _ List.mem_cons_self)
  apply ledger.keeps_up_iff hcalm (by decide : 0 < tickPeriod)
  rcases pass.tick_reading hx hgoes with hearly | hdue
  · have hbeats : Pace.ticks.beats x.account = 0 := Pace.beats_eq_zero hearly
    rw [hbeats, Nat.zero_mul, Nat.zero_mul]
    obtain ⟨hr₁, hasked⟩ := hd.asked ledger.valid
    obtain ⟨_, hnow, _⟩ := hd.read hr₁ (rfl : _ = (now, _))
    exact Nat.le_trans ledger.since_le (Nat.le_trans hasked hnow)
  · exact hturn.worth_le ledger.since_le hdue

namespace Rehearsal

/-- Two passes take longer than two ticks. -/
def belated : Script where
  files := ⟨[], []⟩
  card := none
  frames := [⟨[], [], false, none⟩, ⟨[], [], false, none⟩]
  work := 14000
  draw := 0
  oversleep := 0
  maxPasses := 2
  windowFailure := none
  updateFailure := none
  pull := 0

def belatedRun (e : Emulator) : List (Passage Rehearsal) :=
  Player.history (desktop belated) ⟨fun _ => 0, .upTo .info⟩ 2 (start belated)
    ⟨e, .released, stepPeriod 150, 0, 0, 0⟩

def belatedReading (x : Passage Rehearsal) : Nat :=
  ((desktop belated).clock.run ((desktop belated).asked x.desktop).2).1

/-- The ROM sets the delay timer and reads it at the third step. -/
def delayRom : Rom := #[0x60, 0x05, 0xF0, 0x15, 0xF1, 0x07, 0x31, 0x03, 0x12, 0x08, 0x12, 0x0A]

theorem belatedRun_ticks : ∃ e events, Emulator.start delayRom 0 = .ok (e, events) ∧
    (∀ x ∈ belatedRun e, x.account.reset = false) ∧ ∃ x y, belatedRun e = [x, y] ∧
      x.account.tick = none ∧ y.account.tick = some 34666000 ∧
      x.verdict.isClosed = false ∧ y.verdict.isClosed = false ∧
      belatedReading x = 14000000 ∧ belatedReading y = 34666000 := by
  have hrun : ∃ e events, Emulator.start delayRom 0 = .ok (e, events) ∧
      (belatedRun e).map (fun x =>
        (x.account.reset, x.account.tick, x.verdict.isClosed, belatedReading x)) =
        [(false, none, false, 14000000), (false, some 34666000, false, 34666000)] :=
    ⟨_, _, rfl, by decide +kernel⟩
  obtain ⟨e, events, hstart, hticks⟩ := hrun
  simp only [List.map_eq_cons_iff, List.map_eq_nil_iff, Prod.mk.injEq] at hticks
  obtain ⟨x, _, hpasses, ⟨hx, hx₁, hx₂, hx₃⟩, y, _, rfl, ⟨hy, hy₁, hy₂, hy₃⟩, rfl⟩ := hticks
  refine ⟨e, events, hstart, ?_, x, y, hpasses, hx₁, hy₁, hx₂, hy₂, hx₃, hy₃⟩
  rw [hpasses]
  simp only [List.mem_cons, List.not_mem_nil, or_false, forall_eq_or_imp, forall_eq]
  exact ⟨hx, hy⟩

end Rehearsal

/-- A tick that is owed is never made. -/
theorem tick_lost : ∃ e events, Emulator.start Rehearsal.delayRom 0 = .ok (e, events) ∧
    (Rehearsal.desktop Rehearsal.belated).Clocked (fun _ => True) Rehearsal.clock ∧
    (∀ x ∈ Rehearsal.belatedRun e, x.account.reset = false) ∧
    ∃ earlier x later, Rehearsal.belatedRun e = earlier ++ x :: later ∧
      x.verdict.isClosed = false ∧
      ¬ elapsed 0 (Rehearsal.belatedReading x) / tickPeriod ≤
        Pace.ticks.total ((earlier ++ [x]).map Passage.account) := by
  obtain ⟨e, events, hstart, hcalm, x, y, hpasses, hx₁, hy₁, _, hy₂, _, hy₃⟩ :=
    Rehearsal.belatedRun_ticks
  refine ⟨e, events, hstart, Rehearsal.desktop_clocked _, hcalm, [x], y, [], hpasses, hy₂, ?_⟩
  simp only [Pace.total, Pace.beats, List.cons_append, List.nil_append, List.map_cons,
    List.map_nil, List.sum_cons, List.sum_nil, hx₁, hy₁, hy₃, Option.elim_some, Option.elim_none]
  decide

theorem ticks_keep_up_iff_of_belated :
    ∃ e events, Emulator.start Rehearsal.delayRom 0 = .ok (e, events) ∧
      (Rehearsal.desktop Rehearsal.belated).Clocked (fun _ => True) Rehearsal.clock ∧
      ∃ x y, Rehearsal.belatedRun e = [x, y] ∧ x.account.tick = none ∧
        y.account.tick = some 34666000 ∧
        Passage.IsSession ⟨fun _ => 0, .upTo .info⟩ e [x, y] ∧
        (elapsed 0 14000000 / tickPeriod ≤ Pace.ticks.total [x.account] ↔
          Pace.ticks.unpaid x 14000000 < tickPeriod * 1000) ∧
        (elapsed 0 34666000 / tickPeriod ≤ Pace.ticks.total [x.account, y.account] ↔
          Pace.ticks.lost x + Pace.ticks.unpaid y 34666000 < tickPeriod * 1000) := by
  obtain ⟨e, events, hstart, hcalm, x, y, hpasses, hx₁, hy₁, hx₂, hy₂, hx₃, hy₃⟩ :=
    Rehearsal.belatedRun_ticks
  obtain ⟨_, hsession, hkeeps⟩ := ticks_keep_up_iff
    (Rehearsal.desktop_clocked Rehearsal.belated) (r := Rehearsal.start Rehearsal.belated) trivial
    e ⟨fun _ => 0, .upTo .info⟩ 150 (Nat.zero_le _) 0 0 2
  have hfirst := hkeeps hcalm [] x [y] hpasses hx₂
  have hsecond := hkeeps hcalm [x] y [] hpasses hy₂
  simp only [List.map_cons, List.map_nil, List.sum_cons, List.sum_nil, Nat.zero_add, Nat.add_zero,
    List.cons_append, List.nil_append] at hfirst hsecond
  change elapsed 0 (Rehearsal.belatedReading x) / tickPeriod ≤ _ ↔
    Pace.ticks.unpaid x (Rehearsal.belatedReading x) < _ at hfirst
  change elapsed 0 (Rehearsal.belatedReading y) / tickPeriod ≤ _ ↔
    _ + Pace.ticks.unpaid y (Rehearsal.belatedReading y) < _ at hsecond
  rw [hx₃] at hfirst
  rw [hy₃] at hsecond
  exact ⟨e, events, hstart, Rehearsal.desktop_clocked _, x, y, hpasses, hx₁, hy₁,
    hpasses ▸ hsession, hfirst, hsecond⟩

end Chip8
