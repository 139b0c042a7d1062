import Chip8.Proofs.Workload

/-!
# Never ahead of the clock

What a run owes to the clock is an upper bound: the steps made so far are worth no more than the time
since the start, and two ticks, as two updates of the window, are at least a period apart. Resets do not
matter, since they only let a pace count from later. Nothing is said about how far a pace falls behind.
-/

namespace Chip8
set_option autoImplicit false

variable {σ : Type}

theorem elapsed_mono {since since' now now' : Nat} (hsince : since' ≤ since) (hnow : now ≤ now') :
    elapsed since now ≤ elapsed since' now' := by
  have hsub : now - since ≤ now' - since' := by omega
  exact Nat.div_le_div_right hsub

namespace History
variable {d : Desktop (StateM σ)} {valid : σ → Prop} {time : σ → Nat} {s : Stage}
variable {p : Player} {r : σ} {passes : List (Passage σ)}

/-- The beats made so far fit between the moment that the pace first counted from and the reading that
let the last of them through. -/
theorem total_le (h : History d s p r passes) (hd : d.Clocked valid time) (hr : valid r) (c : Pace)
    (hsince : c.since p ≤ time r) {earlier later : List (Passage σ)} {x : Passage σ} {now : Nat}
    (hsplit : passes = earlier ++ x :: later) (hnow : c.reading x.account = some now) :
    c.since p + c.total ((earlier ++ [x]).map Passage.account) * c.period p * 1000 ≤ now := by
  obtain ⟨ledger, pass⟩ := h.ledger hd hr c hsince hsplit
  obtain ⟨since, hturn, _⟩ := pass.turn c hd ledger.valid
  have hworth := hturn.worth_le ledger.since_le hnow
  rw [ledger.period_eq] at hworth
  rw [List.map_append, List.map_singleton, Pace.total_append, Pace.total_singleton]
  exact worth_add_le ledger.paid_le hworth

theorem spaced (h : History d s p r passes) (hd : d.Clocked valid time) (hr : valid r) (c : Pace)
    (hsince : c.since p ≤ time r) :
    ((passes.map Passage.account).filterMap c.reading).Pairwise
      (fun earlier later => c.period p ≤ elapsed earlier later) := by
  rw [List.filterMap_map, List.pairwise_filterMap, List.pairwise_iff_forall_sublist]
  intro y x hsub now hnow now' hnow'
  obtain ⟨before, rest, rfl, hy, hx⟩ := List.cons_sublist_iff.mp hsub
  obtain ⟨between, after, rfl⟩ := List.append_of_mem (List.singleton_sublist.mp hx)
  obtain ⟨ledger, pass⟩ := h.ledger hd hr c hsince (List.append_assoc before between _).symm
  obtain ⟨since, hturn, _⟩ := pass.turn c hd ledger.valid
  have hmark : now ≤ c.since x.player := ledger.readings_le y (List.mem_append_left _ hy) now hnow
  have hdue : c.period x.player ≤ elapsed (c.since x.player) now' :=
    (hturn.of_reading hnow').1.due_le
  rw [ledger.period_eq] at hdue
  exact Nat.le_trans hdue (elapsed_mono hmark (Nat.le_refl _))

end History

/-- In every run of the main loop, with any number of resets: the steps made up to a catching up are
worth no more than the time from the first moment to its reading, and two ticks, as two updates of the
window, are at least a period apart. The steps and ticks of the accounts are all that were made on the
emulator. -/
theorem never_ahead {d : Desktop (StateM σ)} {valid : σ → Prop} {time : σ → Nat}
    (hd : d.Clocked valid time) {r : σ} (hr : valid r) (e : Emulator) (s : Stage)
    (cyclesPerSecond : UInt32) {step tick redraw : Nat} (hstep : step ≤ time r)
    (htick : tick ≤ time r) (hredraw : redraw ≤ time r) (n : Nat) :
    let start : Player := ⟨e, .released, stepPeriod cyclesPerSecond, step, tick, redraw⟩
    let passes := start.history d s n r
    let accounts := ((Player.run d s (fun accounts a => accounts ++ [a]) n start []).run r).1.1
    accounts = passes.map Passage.account ∧ Passage.IsSession s e passes ∧
    (∀ earlier a later now owed, accounts = earlier ++ a :: later → a.steps = some (now, owed) →
      Pace.steps.total (earlier ++ [a]) * stepPeriod cyclesPerSecond ≤ elapsed step now) ∧
    (accounts.filterMap Account.tick).Pairwise
      (fun earlier later => tickPeriod ≤ elapsed earlier later) ∧
    (accounts.filterMap Account.redraw).Pairwise
      (fun earlier later => redrawPeriod ≤ elapsed earlier.reading later.reading) := by
  intro start passes accounts
  have haccounts : accounts = passes.map Passage.account := Player.accounts_run d s n start r
  have hhistory : History d s start r passes := Player.history_history d s n start r
  refine ⟨haccounts, hhistory.isSession, ?_, ?_, ?_⟩
  · intro earlier a later now owed hsplit hsteps
    rw [haccounts] at hsplit
    obtain ⟨before, rest, hpasses, rfl, hrest⟩ := List.map_eq_append_iff.mp hsplit
    obtain ⟨x, after, rfl, rfl, rfl⟩ := List.map_eq_cons_iff.mp hrest
    have hreading : Pace.steps.reading x.account = some now := congrArg (Option.map Prod.fst) hsteps
    have htotal := hhistory.total_le hd hr .steps hstep hpasses hreading
    rw [List.map_append, List.map_singleton] at htotal
    have hnow : step ≤ now := Nat.le_trans (Nat.le_add_right _ _) htotal
    exact (le_elapsed_iff hnow).mpr htotal
  · rw [haccounts]
    exact hhistory.spaced hd hr .ticks htick
  · have hspaced := hhistory.spaced hd hr .redraws hredraw
    rw [haccounts]
    rw [← List.pairwise_map (f := Redraw.reading)
      (R := fun earlier later => redrawPeriod ≤ elapsed earlier later), List.map_filterMap]
    exact hspaced

namespace Rehearsal

/-- F1 is pressed after each of the first two updates, and the passes take longer and longer. -/
def restless : Script where
  files := ⟨[], []⟩
  card := none
  frames := [⟨[], [], false, some 9000⟩, ⟨[], [.f1], false, some 21000⟩, ⟨[], [.f1], false, none⟩,
    ⟨[], [], false, some 6000⟩]
  work := 3000
  draw := 700
  oversleep := 90
  maxPasses := 40
  windowFailure := none
  updateFailure := none
  pull := 0

def restlessPasses (e : Emulator) : List (Passage Rehearsal) :=
  Player.history (desktop restless) ⟨fun _ => 0, .upTo .info⟩ 9 (start restless)
    ⟨e, .released, stepPeriod 300, 0, 0, 0⟩

def restlessRun (e : Emulator) : List Account :=
  ((Player.run (desktop restless) ⟨fun _ => 0, .upTo .info⟩ (fun accounts a => accounts ++ [a]) 9
    ⟨e, .released, stepPeriod 300, 0, 0, 0⟩ []).run (start restless)).1.1

end Rehearsal

/-- Two resets among steps, ticks and updates. -/
theorem never_ahead_of_restless :
    ∃ e events, Emulator.start #[0x12, 0x00] 0 = .ok (e, events) ∧
      (Rehearsal.desktop Rehearsal.restless).Clocked (fun _ => True) Rehearsal.clock ∧
      (Rehearsal.restlessRun e).map (fun a =>
        (a.reset, a.steps.map Prod.snd, a.tick.isSome, a.redraw.isSome)) =
        [(false, some 2, false, false), (false, some 3, true, true), (true, none, false, false),
          (false, some 6, true, true), (true, none, false, false), (false, none, false, false),
          (false, some 1, false, false), (false, some 1, false, false),
          (false, some 1, true, true)] ∧
      Rehearsal.restlessRun e = (Rehearsal.restlessPasses e).map Passage.account ∧
      Passage.IsSession ⟨fun _ => 0, .upTo .info⟩ e (Rehearsal.restlessPasses e) ∧
      (∀ earlier a later now owed, Rehearsal.restlessRun e = earlier ++ a :: later →
        a.steps = some (now, owed) →
        Pace.steps.total (earlier ++ [a]) * stepPeriod 300 ≤ elapsed 0 now) ∧
      ((Rehearsal.restlessRun e).filterMap Account.tick).Pairwise
        (fun earlier later => tickPeriod ≤ elapsed earlier later) ∧
      ((Rehearsal.restlessRun e).filterMap Account.redraw).Pairwise
        (fun earlier later => redrawPeriod ≤ elapsed earlier.reading later.reading) :=
  ⟨_, _, rfl, Rehearsal.desktop_clocked _, by decide +kernel,
    never_ahead (Rehearsal.desktop_clocked _) trivial _ _ 300 (Nat.zero_le _) (Nat.zero_le _)
      (Nat.zero_le _) 9⟩

end Chip8
