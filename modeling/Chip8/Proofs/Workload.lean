import Chip8.Proofs.Ledger

/-!
# The work of a run

A run of the main loop is a session of its emulator. Every pass starts the ROM again, or makes at most one
tick and then the steps of its account, and takes the mark from the screen when the window was given new
pixels. So the ticks and steps of the accounts are operations that were made on the emulator, in this order
and no others. When they were made is not said here.
-/

namespace Chip8
set_option autoImplicit false

variable {σ : Type}

namespace Emulator

theorem after_append (random : RandomBytes) (e : Emulator) (ops more : List Operation) :
    e.after random (ops ++ more) = (e.after random ops).bind fun e => e.after random more := by
  induction ops generalizing e with
  | nil => rfl
  | cons op ops ih =>
    simp only [List.cons_append, after]
    cases e.perform random op with
    | ok e₁ => exact ih e₁
    | error cause => rfl

theorem after_steps (keys : Keys) (random : RandomBytes) (v : Verbosity) (n : Nat) (e : Emulator)
    (log : Array Event) :
    e.after random (.replicate n (.step keys)) = .ok (e.steps keys random v n log).1 := by
  induction n generalizing e log with
  | zero => rfl
  | succ n ih =>
    rw [List.replicate_succ, steps]
    exact ih _ _

end Emulator

/-- The tick and the steps of an account, as operations of a session. -/
def Account.work (a : Account) (keys : Keys) : List Emulator.Operation :=
  (a.tick.elim [] fun _ => [.tick]) ++ a.steps.elim [] fun steps => .replicate steps.2 (.step keys)

namespace Passage

def clearsMark (x : Passage σ) : Bool :=
  match x.verdict with
  | .goesOn _ => (x.account.redraw.bind Redraw.pixels).isSome
  | _ => false

/-- What a pass does to the emulator, as operations of a session. -/
def operations (x : Passage σ) : List Emulator.Operation :=
  (if x.account.reset then [.reset] else []) ++ x.account.work x.player.keypad.isDown ++
    if x.clearsMark then [.clearDirty] else []

/-- The passes make a session of the emulator `e`, in which a tick is made for every tick and a step for every
step that they give account of. -/
structure IsSession (s : Stage) (e : Emulator) (passes : List (Passage σ)) : Prop where
  before : ∀ earlier x later, passes = earlier ++ x :: later →
    e.after s.random (earlier.flatMap operations) = .ok x.player.emulator
  after : ∀ x ∈ passes, (∀ cause, x.verdict ≠ .failed (.rom cause)) →
    x.player.emulator.after s.random x.operations = .ok (x.emulator s)
  ticks_eq : ∀ part later, passes = part ++ later →
    (part.flatMap operations).countP (·.isTick) = Pace.ticks.total (part.map account)
  steps_eq : ∀ part later, passes = part ++ later →
    (part.flatMap operations).countP (·.isStep) = Pace.steps.total (part.map account)

end Passage

namespace Player
variable {d : Desktop (StateM σ)} {s : Stage} {p q : Player} {r r₁ : σ}

theorem after_work (p : Player) (s : Stage) (a : Account) :
    p.emulator.after s.random (a.work p.keypad.isDown) = .ok (p.worked s a.tick a.steps) := by
  unfold Account.work worked
  rw [Emulator.after_append]
  cases a.tick with
  | none =>
    cases a.steps with
    | none => rfl
    | some steps => exact Emulator.after_steps _ _ _ _ _ _
  | some now =>
    cases a.steps with
    | none => rfl
    | some steps => exact Emulator.after_steps _ _ _ _ _ _

theorem Resets.goesOn {v : Verbosity} {verdict : Verdict} (h : p.Resets d v r verdict r₁)
    (hrom : ∀ cause, verdict ≠ .failed (.rom cause)) : ∃ q, verdict = .goesOn q := by
  cases h with
  | refused => exact absurd rfl (hrom _)
  | done => exact ⟨_, rfl⟩

theorem Resets.after_reset {v : Verbosity} (h : p.Resets d v r (.goesOn q) r₁) :
    p.emulator.after s.random [.reset] = .ok q.emulator := by
  cases h with
  | done restarts =>
    unfold Emulator.after Emulator.perform
    rw [restarts]
    rfl

theorem Shows.after_mark {redraw : Option Redraw} (h : p.Shows d r redraw (.ok q) r₁) :
    p.emulator.after s.random (if (redraw.bind Redraw.pixels).isSome then [.clearDirty] else []) =
      .ok q.emulator := by
  cases h with
  | early => rfl
  | presented => rfl
  | refreshed => rfl

theorem Passes.after_operations {x : Passage σ}
    (h : x.player.Passes d s x.desktop x.account x.verdict x.after)
    (hrom : ∀ cause, x.verdict ≠ .failed (.rom cause)) :
    x.player.emulator.after s.random x.operations = .ok (x.emulator s) := by
  obtain ⟨p, r, a, verdict, r₁⟩ := x
  have hwork := p.after_work s a
  cases h with
  | closed => rfl
  | reset _ _ resets =>
    obtain ⟨q, rfl⟩ := resets.goesOn hrom
    exact resets.after_reset
  | goesOn _ ticks catchesUp shows =>
    rw [worked_eq ticks catchesUp] at hwork
    change p.emulator.after s.random (Account.work _ p.keypad.isDown ++ _) = _
    rw [Emulator.after_append, hwork]
    exact shows.after_mark
  | failed =>
    change p.emulator.after s.random (Account.work _ p.keypad.isDown ++ []) = _
    rw [List.append_nil]
    exact hwork

end Player

namespace Account

theorem countP_work (a : Account) (keys : Keys) (kind : Emulator.Operation → Bool) :
    (a.work keys).countP kind = (if kind .tick then Pace.ticks.beats a else 0) +
      if kind (.step keys) then Pace.steps.beats a else 0 := by
  rw [work, List.countP_append]
  congr 1
  · cases htick : a.tick with
    | none => simp [Pace.beats, htick]
    | some now => simp [Pace.beats, htick, List.countP_cons]
  · cases hsteps : a.steps with
    | none => simp [Pace.beats, hsteps]
    | some steps => simp [Pace.beats, hsteps, List.countP_replicate]

theorem countP_ticks (a : Account) (keys : Keys) :
    (a.work keys).countP (·.isTick) = Pace.ticks.beats a :=
  (a.countP_work keys _).trans (Nat.add_zero _)

theorem countP_steps (a : Account) (keys : Keys) :
    (a.work keys).countP (·.isStep) = Pace.steps.beats a :=
  (a.countP_work keys _).trans (Nat.zero_add _)

end Account

namespace Passage

theorem countP_operations {kind : Emulator.Operation → Bool} (hclear : kind .clearDirty = false)
    (hreset : kind .reset = false) (x : Passage σ) :
    x.operations.countP kind = (x.account.work x.player.keypad.isDown).countP kind := by
  unfold operations
  rw [List.countP_append, List.countP_append]
  have hresets : (if x.account.reset then [Emulator.Operation.reset] else []).countP kind = 0 := by
    split <;> simp [hreset]
  have hclears : (if x.clearsMark then [Emulator.Operation.clearDirty] else []).countP kind = 0 := by
    split <;> simp [hclear]
  rw [hresets, hclears, Nat.zero_add, Nat.add_zero]

theorem total_eq {kind : Emulator.Operation → Bool} {c : Pace} (hclear : kind .clearDirty = false)
    (hreset : kind .reset = false)
    (hwork : ∀ a keys, (Account.work a keys).countP kind = c.beats a) (passes : List (Passage σ)) :
    (passes.flatMap operations).countP kind = c.total (passes.map account) := by
  rw [List.countP_flatMap, Pace.total, List.map_map]
  congr 1
  apply List.map_congr_left
  intro x _
  exact (x.countP_operations hclear hreset).trans (hwork _ _)

end Passage

namespace History
variable {d : Desktop (StateM σ)} {s : Stage} {p : Player} {r : σ} {passes : List (Passage σ)}

theorem pass_of_mem (h : History d s p r passes) {x : Passage σ} (hx : x ∈ passes) :
    x.player.Passes d s x.desktop x.account x.verdict x.after := by
  induction h with
  | suspended => cases hx
  | ended pass =>
    obtain rfl := List.mem_singleton.mp hx
    exact pass
  | goesOn pass _ ih =>
    rcases List.mem_cons.mp hx with rfl | hx
    · exact pass
    · exact ih hx

theorem after_operations (h : History d s p r passes) {earlier later : List (Passage σ)}
    {x : Passage σ} (hsplit : passes = earlier ++ x :: later) :
    p.emulator.after s.random (earlier.flatMap Passage.operations) = .ok x.player.emulator := by
  have hstart : p.emulator.after s.random (([] : List (Passage σ)).flatMap Passage.operations) =
      .ok p.emulator := rfl
  refine (h.before (I := fun done q _ =>
    p.emulator.after s.random (done.flatMap Passage.operations) = .ok q.emulator) hstart ?_ hsplit).1
  intro done x q hdone hq pass
  rw [← hq] at pass
  have hpass := pass.after_operations fun cause hfailed => by
    rw [hq] at hfailed
    cases hfailed
  rw [List.flatMap_append, List.flatMap_singleton, Emulator.after_append, hdone]
  rw [Passage.emulator, hq] at hpass
  exact hpass

/-- A run of the main loop is a session of its emulator. -/
theorem isSession (h : History d s p r passes) : Passage.IsSession s p.emulator passes where
  before _ _ _ hsplit := h.after_operations hsplit
  after _ hx hrom := (h.pass_of_mem hx).after_operations hrom
  ticks_eq part _ _ := Passage.total_eq rfl rfl Account.countP_ticks part
  steps_eq part _ _ := Passage.total_eq rfl rfl Account.countP_steps part

end History
end Chip8
