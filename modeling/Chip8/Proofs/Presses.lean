import Chip8.Proofs.Pace

/-!
# Presses of the reset key

How often a press of F1 resets, on a desktop that reports the press until the window is updated. A
reset counts the time to the next update from anew, and the step that follows makes the machine ready
to be reset again. So one press resets again and again, unless the first pass that makes steps after a
reset also updates the window. That condition is exact, at every rate and whatever the clock does.
-/

namespace Chip8
set_option autoImplicit false

variable {σ : Type}

/-- The desktop answers whether F1 was pressed by `pressed`, which only an update of the window may
change. -/
structure Desktop.HoldsPresses (d : Desktop (StateM σ)) (valid : σ → Prop) (pressed : σ → Bool) :
    Prop where
  answer_eq : ∀ r, valid r → ((d.isPressed .f1).run r).1 = pressed r
  keeps : ∀ asked, d.Keeps fun r => valid r ∧ pressed r = asked
  updates : d.Updates valid valid

/-- A part of a run in which the window is neither updated nor found closed. -/
def Unshown (accounts : List Account) (ending : Player.Ending) (part : List Account) : Prop :=
  ∃ x z, accounts = x ++ (part ++ z) ∧ (∀ a ∈ part, a.redraw = none) ∧ (z ≠ [] ∨ ending ≠ .closed)

/-- No pass follows one that makes steps after a reset. -/
def StepsLast (part : List Account) : Prop :=
  ∀ x a y b z, part = x ++ a :: (y ++ b :: z) → a.reset → b.steps.isSome → z = []

/-- How the accounts of a run hang together, from a machine that is untouched or not while F1 is
reported as pressed or not. -/
inductive Story : (untouched asked : Bool) → List Account → Player.Ending → Prop where
  | suspended {untouched asked : Bool} {p : Player} : Story untouched asked [] (.suspended p)
  | closed {untouched asked : Bool} : Story untouched asked [{}] .closed
  | failed {untouched asked : Bool} {a : Account} {error : PlayerError}
      (calm : (asked && !untouched) = false) (ordinary : a.reset = false) :
      Story untouched asked [a] (.failed error)
  | reset {accounts : List Account} {ending : Player.Ending}
      (rest : Story true true accounts ending) :
      Story false true ({ reset := true } :: accounts) ending
  | goesOn {untouched asked asked' : Bool} {a : Account} {accounts : List Account}
      {ending : Player.Ending} (calm : (asked && !untouched) = false) (ordinary : a.reset = false)
      (kept : a.redraw = none → asked' = asked)
      (rest : Story (untouched && !a.steps.isSome) asked' accounts ending) :
      Story untouched asked (a :: accounts) ending

namespace Story
variable {untouched asked : Bool} {x y z accounts : List Account} {a b c : Account}
variable {ending : Player.Ending}

theorem reset_iff (h : Story untouched asked (a :: accounts) ending) :
    a.reset = (asked && !untouched) ∨ (a.reset = false ∧ accounts = [] ∧ ending = .closed) := by
  cases h with
  | closed => exact Or.inr ⟨rfl, rfl, rfl⟩
  | failed calm ordinary => exact Or.inl (ordinary.trans calm.symm)
  | reset _ => exact Or.inl rfl
  | goesOn calm ordinary _ _ => exact Or.inl (ordinary.trans calm.symm)

theorem steps_of_reset (h : Story untouched asked (a :: accounts) ending) (ha : a.reset) :
    a.steps = none := by
  cases h with
  | closed => rfl
  | failed _ ordinary => exact absurd ha (Bool.not_eq_true _ ▸ ordinary)
  | reset _ => rfl
  | goesOn _ ordinary _ _ => exact absurd ha (Bool.not_eq_true _ ▸ ordinary)

theorem tail (h : Story untouched asked (a :: accounts) ending) (hmore : accounts ≠ []) :
    ∃ asked', (a.redraw = none → asked' = asked) ∧ (a.reset → asked' = true) ∧
      Story (a.reset || (untouched && !a.steps.isSome)) asked' accounts ending := by
  cases h with
  | closed => exact absurd rfl hmore
  | failed => exact absurd rfl hmore
  | reset rest => exact ⟨true, fun _ => rfl, fun _ => rfl, rest⟩
  | @goesOn _ _ asked' _ _ _ _ ordinary kept rest =>
    refine ⟨asked', kept, ?_, ?_⟩
    · intro hreset
      simp [ordinary] at hreset
    · rw [ordinary, Bool.false_or]
      exact rest

theorem suffix (h : Story untouched asked (x ++ y) ending) (hy : y ≠ []) :
    ∃ untouched' asked', Story untouched' asked' y ending := by
  induction x generalizing untouched asked with
  | nil => exact ⟨untouched, asked, h⟩
  | cons u x ih =>
    obtain ⟨_, _, _, rest⟩ := h.tail (by simp [hy])
    exact ih rest

/-- After a reset the machine is untouched and the press is still reported. -/
theorem after_reset (h : Story untouched asked (x ++ a :: y) ending) (ha : a.reset) (hy : y ≠ []) :
    Story true true y ending := by
  obtain ⟨_, _, hfrom⟩ := h.suffix (List.cons_ne_nil a y)
  obtain ⟨asked', _, hasked, rest⟩ := hfrom.tail hy
  rwa [ha, Bool.true_or, hasked ha] at rest

theorem reset_after_steps (h : Story untouched true (y ++ b :: c :: z) ending)
    (hb : b.steps.isSome) (hquiet : ∀ u ∈ y ++ [b], u.redraw = none) :
    c.reset ∨ (z = [] ∧ ending = .closed) := by
  induction y generalizing untouched with
  | nil =>
    obtain ⟨asked', hkept, _, rest⟩ := h.tail (by simp)
    obtain rfl := hkept (hquiet b (by simp))
    have hreset : b.reset = false := by
      cases hr : b.reset with
      | false => rfl
      | true =>
        rw [h.steps_of_reset hr] at hb
        exact absurd hb Bool.false_ne_true
    rw [hreset, hb, Bool.not_true, Bool.and_false, Bool.false_or] at rest
    rcases rest.reset_iff with hc | ⟨_, hz, hending⟩
    · exact Or.inl hc
    · exact Or.inr ⟨hz, hending⟩
  | cons u y ih =>
    obtain ⟨asked', hkept, _, rest⟩ := h.tail (by simp)
    obtain rfl := hkept (hquiet u (by simp))
    exact ih rest fun v hv => hquiet v (List.mem_cons_of_mem u hv)

theorem steps_before_reset (h : Story true asked (y ++ c :: z) ending) (hc : c.reset) :
    ∃ b ∈ y, b.steps.isSome := by
  induction y generalizing asked with
  | nil =>
    rcases h.reset_iff with hreset | ⟨hreset, _⟩
    · simp [hreset] at hc
    · simp [hreset] at hc
  | cons u y ih =>
    by_cases hu : u.steps.isSome
    · exact ⟨u, List.mem_cons_self, hu⟩
    · obtain ⟨_, _, _, rest⟩ := h.tail (by simp)
      simp only [hu, Bool.not_false, Bool.and_true, Bool.or_true] at rest
      obtain ⟨b, hb, hsteps⟩ := ih rest
      exact ⟨b, List.mem_cons_of_mem u hb, hsteps⟩

theorem stepsLast_of_resets_le (h : Story untouched asked (y ++ z) ending)
    (hquiet : ∀ u ∈ y, u.redraw = none) (hend : z ≠ [] ∨ ending ≠ .closed)
    (hone : y.countP (·.reset) ≤ 1) : StepsLast y := by
  intro x a p b q he ha hb
  cases q with
  | nil => rfl
  | cons c q =>
    have hsplit : y ++ z = x ++ a :: (p ++ b :: c :: (q ++ z)) := by simp [he]
    have hafter : Story true true (p ++ b :: c :: (q ++ z)) ending :=
      (hsplit ▸ h).after_reset ha (by simp)
    have hbetween : ∀ u ∈ p ++ [b], u.redraw = none := by
      intro u hu
      apply hquiet u
      rw [he, List.append_cons p]
      exact List.mem_append_right x (List.mem_cons_of_mem a (List.mem_append_left _ hu))
    rcases hafter.reset_after_steps hb hbetween with hc | ⟨hnil, hclosed⟩
    · simp only [he, List.countP_append, List.countP_cons, ha, hc, if_true] at hone
      omega
    · rcases hend with hz | hending
      · exact absurd (List.append_eq_nil_iff.mp hnil).2 hz
      · exact absurd hclosed hending

theorem resets_le_of_stepsLast (h : Story untouched asked (y ++ z) ending) (hlast : StepsLast y) :
    y.countP (·.reset) ≤ 1 := by
  induction y generalizing untouched asked with
  | nil => exact Nat.zero_le 1
  | cons a y ih =>
    by_cases hmore : y = []
    · rw [hmore, List.countP_singleton]
      split <;> omega
    have hyz : y ++ z ≠ [] := by simp [hmore]
    by_cases ha : a.reset
    · have hnone : y.countP (·.reset) = 0 := by
        rw [List.countP_eq_zero]
        intro c hc hreset
        obtain ⟨p, q, rfl⟩ := List.append_of_mem hc
        have hafter : Story true true (p ++ c :: (q ++ z)) ending := by
          simpa using h.after_reset (x := []) ha hyz
        obtain ⟨b, hb, hsteps⟩ := hafter.steps_before_reset hreset
        obtain ⟨p₁, p₂, rfl⟩ := List.append_of_mem hb
        have hq := hlast [] a p₁ b (p₂ ++ c :: q) (by simp) ha hsteps
        simp at hq
      rw [List.countP_cons, hnone]
      split <;> omega
    · obtain ⟨_, _, _, rest⟩ := h.tail hyz
      have hrest : StepsLast y := by
        intro x a' p b q he
        exact hlast (a :: x) a' p b q (by rw [he]; rfl)
      rw [List.countP_cons_of_neg ha]
      exact ih rest hrest

/-- In a part of a run without an update, the machine is reset at most once if and only if
nothing follows the steps after a reset. -/
theorem resets_le_iff (h : Story untouched asked accounts ending) {part : List Account}
    (hpart : Unshown accounts ending part) : part.countP (·.reset) ≤ 1 ↔ StepsLast part := by
  obtain ⟨x, z, rfl, hquiet, hend⟩ := hpart
  by_cases hpz : part ++ z = []
  · rw [(List.append_eq_nil_iff.mp hpz).1]
    simp [StepsLast]
  · obtain ⟨_, _, hfrom⟩ := h.suffix hpz
    exact ⟨hfrom.stepsLast_of_resets_le hquiet hend, hfrom.resets_le_of_stepsLast⟩

end Story

namespace Desktop.HoldsPresses
variable {d : Desktop (StateM σ)} {valid : σ → Prop} {pressed : σ → Bool}

theorem keeps_valid (h : d.HoldsPresses valid pressed) : d.Keeps valid where
  print text r hr := ((h.keeps (pressed r)).print text r ⟨hr, rfl⟩).1
  setTone on r hr := ((h.keeps (pressed r)).setTone on r ⟨hr, rfl⟩).1
  isOpen r hr := ((h.keeps (pressed r)).isOpen r ⟨hr, rfl⟩).1
  held r hr := ((h.keeps (pressed r)).held r ⟨hr, rfl⟩).1
  isPressed key r hr := ((h.keeps (pressed r)).isPressed key r ⟨hr, rfl⟩).1
  clock r hr := ((h.keeps (pressed r)).clock r ⟨hr, rfl⟩).1
  sleep micros r hr := ((h.keeps (pressed r)).sleep micros r ⟨hr, rfl⟩).1

theorem pass_follows (h : d.HoldsPresses valid pressed) {s : Stage} {p : Player} {r r' : σ}
    {a : Account} {verdict : Verdict} (hpass : (p.pass d s).run r = ((a, verdict), r'))
    (hr : valid r) {memory : Memory} (hload : Memory.blank.load p.emulator.rom = .ok memory)
    (hp : 0 < p.period) :
    p.Follows (pressed r) a verdict ∧ valid r' ∧ (a.redraw = none → pressed r' = pressed r) := by
  have hupdates : d.Updates (fun r' => valid r' ∧ pressed r' = pressed r) valid :=
    ⟨fun pixels r hr => h.updates.present pixels r hr.1, fun r hr => h.updates.refresh r hr.1⟩
  have hanswer : Triple (fun r' => valid r' ∧ pressed r' = pressed r) (d.isPressed .f1)
      fun answer r' => answer = pressed r ∧ valid r' ∧ pressed r' = pressed r := by
    intro r' hr'
    exact ⟨(h.answer_eq r' hr'.1).trans hr'.2, (h.keeps (pressed r)).isPressed .f1 r' hr'⟩
  have hout := p.pass_triple s (h.keeps (pressed r)) hupdates h.keeps_valid hanswer hload hp r ⟨hr, rfl⟩
  rw [hpass] at hout
  obtain ⟨hfollows, hsettled⟩ := hout
  refine ⟨hfollows, ?_⟩
  cases hredraw : a.redraw with
  | none =>
    rw [hredraw] at hsettled
    exact ⟨hsettled.1, fun _ => hsettled.2⟩
  | some shown =>
    rw [hredraw] at hsettled
    exact ⟨hsettled, fun hnone => absurd hnone (Option.some_ne_none shown)⟩

theorem story (h : d.HoldsPresses valid pressed) {s : Stage} {p : Player} {r r' : σ}
    {accounts : List Account} {ending : Player.Ending} (hplays : Plays d s p r accounts ending r')
    (hr : valid r) {memory : Memory} (hload : Memory.blank.load p.emulator.rom = .ok memory)
    (hp : 0 < p.period) : Story p.emulator.untouched (pressed r) accounts ending := by
  induction hplays with
  | suspended => exact .suspended
  | closed hpass =>
    cases (h.pass_follows hpass hr hload hp).1
    exact .closed
  | failed hpass =>
    cases (h.pass_follows hpass hr hload hp).1 with
    | failed calm ordinary _ => exact .failed calm ordinary
  | @goesOn p q r r₁ r₂ a accounts ending hpass hrest ih =>
    obtain ⟨hfollows, hr₁, hkept⟩ := h.pass_follows hpass hr hload hp
    cases hfollows with
    | reset asked touched rom_eq period_eq fresh =>
      have hstory := ih hr₁ (rom_eq ▸ hload) (period_eq ▸ hp)
      rw [fresh, hkept rfl, asked] at hstory
      rw [touched, asked]
      exact .reset hstory
    | goesOn calm ordinary leads =>
      have hstory := ih hr₁ (leads.rom_eq ▸ hload) (leads.period_eq ▸ hp)
      rw [leads.untouched_eq] at hstory
      exact .goesOn calm ordinary hkept hstory

end Desktop.HoldsPresses

namespace Rehearsal

/-- Every press that is reported is reported until the next update. -/
def Sticky (r : Rehearsal) : Prop := ∀ f ∈ r.frames, f.sticky

def showsReset (r : Rehearsal) : Bool := r.frames.head?.any fun f => f.pressed.contains .f1

theorem askPressed_of_sticky {r : Rehearsal} (h : r.Sticky) (key : KeyboardKey) :
    askPressed key r = (r.frames.head?.any fun f => f.pressed.contains key, r) := by
  obtain ⟨_, _, _, frames, _, _, _, _⟩ := r
  cases frames with
  | nil => rfl
  | cons f rest =>
    have hsticky : f.sticky = true := h f List.mem_cons_self
    simp only [askPressed, hsticky, if_true, List.head?_cons, Option.any_some]
    split
    · rename_i hkey
      rw [hkey]
    · rename_i hkey
      rw [(Bool.not_eq_true _).mp hkey]

theorem holdsPresses (s : Script) : (desktop s).HoldsPresses Sticky showsReset where
  answer_eq := by
    intro r hr
    exact congrArg Prod.fst (askPressed_of_sticky hr .f1)
  keeps asked :=
    { print := fun text r hr => hr
      setTone := fun on r hr => hr
      isOpen := fun r hr => hr
      held := fun r hr => hr
      isPressed := by
        intro key r hr
        change Sticky (askPressed key r).2 ∧ showsReset (askPressed key r).2 = asked
        rw [askPressed_of_sticky hr.1 key]
        exact hr
      clock := fun r hr => hr
      sleep := fun micros r hr => hr }
  updates :=
    { present := by
        intro pixels r hr
        rw [present_run]
        split
        · exact hr
        · exact fun f hf => hr f (List.mem_of_mem_tail hf)
      refresh := fun r hr f hf => hr f (List.mem_of_mem_tail hf) }

/-- F1 goes down after the first update of the window. -/
def latePress : Script where
  files := ⟨[], []⟩
  card := none
  frames := [⟨[], [], true, none⟩, ⟨[], [.f1], true, none⟩, ⟨[], [], true, none⟩]
  work := 11000
  draw := 0
  oversleep := 0
  maxPasses := 40
  windowFailure := none
  updateFailure := none
  pull := 0

/-- The desktop of that script, where each fourth pass is held up for longer than the time between two
updates. -/
def heldUp : Desktop (StateM Rehearsal) :=
  { desktop latePress with
    isOpen := do
      modify fun r => { r with time := r.time + if r.passes % 4 = 0 then 20000 else 0 }
      (desktop latePress).isOpen }

theorem heldUp_holdsPresses : heldUp.HoldsPresses Sticky showsReset := by
  have h := holdsPresses latePress
  refine ⟨h.answer_eq, fun asked => ?_, h.updates.present, h.updates.refresh⟩
  have hkeeps := h.keeps asked
  exact ⟨hkeeps.print, hkeeps.setTone, fun r hr => hr, hkeeps.held, hkeeps.isPressed, hkeeps.clock,
    hkeeps.sleep⟩

theorem heldUp_clocked : heldUp.Clocked (fun _ => True) clock := by
  have h := desktop_clocked latePress
  refine ⟨fun t => ?_, fun t => ⟨(h.updates t).present, (h.updates t).refresh⟩, h.reads⟩
  have hkeeps := h.keeps t
  refine ⟨hkeeps.print, hkeeps.setTone, fun r hr => ?_, hkeeps.held, hkeeps.isPressed, hkeeps.clock,
    hkeeps.sleep⟩
  apply hkeeps.isOpen
  exact ⟨trivial, Nat.le_trans hr.2 (Nat.mul_le_mul_right 1000 (Nat.le_add_right r.time _))⟩

theorem latePress_sticky : (start latePress).Sticky := by
  change ∀ f ∈ latePress.frames, f.sticky = true
  decide

def heldUpRun (e : Emulator) : (List Account × Player.Ending) × Rehearsal :=
  (Player.run heldUp ⟨fun _ => 0, .upTo .info⟩ (fun accounts a => accounts ++ [a]) 5
    ⟨e, .released, stepPeriod 100, 0, 0, 0⟩ []).run (start latePress)

/-- The second and the fourth pass reset, and only the first and the last one update the window. -/
theorem heldUpRun_accounts : ∃ e events, Emulator.start #[0x12, 0x00] 0 = .ok (e, events) ∧
    ∃ a part b, (heldUpRun e).1.1 = a :: (part ++ [b]) ∧ a.redraw.isSome ∧ b.redraw.isSome ∧
      (∀ c ∈ part, c.redraw = none) ∧ part.countP (·.reset) = 2 := by
  have hrun : ∃ e events, Emulator.start #[0x12, 0x00] 0 = .ok (e, events) ∧
      (heldUpRun e).1.1.map (fun a => (a.reset, a.redraw.isSome)) =
        [(false, true), (true, false), (false, false), (true, false), (false, true)] :=
    ⟨_, _, rfl, by decide +kernel⟩
  obtain ⟨e, events, hstart, haccounts⟩ := hrun
  refine ⟨e, events, hstart, ?_⟩
  simp only [List.map_eq_cons_iff, List.map_eq_nil_iff, Prod.mk.injEq, Option.isSome_eq_false_iff,
    Option.isNone_iff_eq_none] at haccounts
  obtain ⟨a, _, he, ⟨_, ha⟩, b, _, rfl, ⟨hb, hb'⟩, c, _, rfl, ⟨hc, hc'⟩, d, _, rfl, ⟨hd, hd'⟩,
    f, _, rfl, ⟨_, hf⟩, rfl⟩ := haccounts
  refine ⟨a, [b, c, d], f, he, ha, hf, ?_, ?_⟩
  · simpa using ⟨hb', hc', hd'⟩
  · simp [hb, hc, hd]

end Rehearsal

/-- In every part of every run of the main loop in which the window is not updated, the machine is
reset at most once if and only if no pass follows one that makes steps after a reset. -/
theorem resets_between_updates_iff {d : Desktop (StateM σ)} {valid : σ → Prop} {pressed : σ → Bool}
    (hd : d.HoldsPresses valid pressed) {r : σ} (hr : valid r) {rom : Rom} {draws : Nat}
    {e : Emulator} {events : List Event} (hstart : Emulator.start rom draws = .ok (e, events))
    (s : Stage) (cyclesPerSecond : UInt32) (step tick redraw n : Nat) :
    let out := (Player.run d s (fun accounts a => accounts ++ [a]) n
      ⟨e, .released, stepPeriod cyclesPerSecond, step, tick, redraw⟩ []).run r
    ∀ part, Unshown out.1.1 out.1.2 part → (part.countP (·.reset) ≤ 1 ↔ StepsLast part) := by
  intro out part hpart
  obtain ⟨memory, hload, rfl, _⟩ := Emulator.start_eq_ok hstart
  have hplays : Plays d s _ r out.1.1 out.1.2 out.2 := Player.plays_run d s n _ r
  exact (hd.story hplays hr hload (stepPeriod_pos cyclesPerSecond)).resets_le_iff hpart

/-- Two resets between two updates, on a desktop whose clock never goes back. -/
theorem resets_between_updates_twice :
    ∃ e events, Emulator.start #[0x12, 0x00] 0 = .ok (e, events) ∧
      Rehearsal.heldUp.HoldsPresses Rehearsal.Sticky Rehearsal.showsReset ∧
      Rehearsal.heldUp.Clocked (fun _ => True) Rehearsal.clock ∧
      (Rehearsal.start Rehearsal.latePress).Sticky ∧
      ∃ a part b, (Rehearsal.heldUpRun e).1.1 = a :: (part ++ [b]) ∧ a.redraw.isSome ∧
        b.redraw.isSome ∧ (∀ c ∈ part, c.redraw = none) ∧ ¬ part.countP (·.reset) ≤ 1 := by
  obtain ⟨e, events, hstart, a, part, b, he, ha, hb, hpart, htwice⟩ := Rehearsal.heldUpRun_accounts
  exact ⟨e, events, hstart, Rehearsal.heldUp_holdsPresses, Rehearsal.heldUp_clocked,
    Rehearsal.latePress_sticky, a, part, b, he, ha, hb, hpart, by omega⟩

theorem resets_between_updates_iff_of_heldUp :
    ∃ e events, Emulator.start #[0x12, 0x00] 0 = .ok (e, events) ∧
      Rehearsal.heldUp.HoldsPresses Rehearsal.Sticky Rehearsal.showsReset ∧
      Rehearsal.heldUp.Clocked (fun _ => True) Rehearsal.clock ∧
      (Rehearsal.start Rehearsal.latePress).Sticky ∧
      ∃ part, Unshown (Rehearsal.heldUpRun e).1.1 (Rehearsal.heldUpRun e).1.2 part ∧
        (part.countP (·.reset) ≤ 1 ↔ StepsLast part) := by
  obtain ⟨e, events, hstart, a, part, b, he, _, _, hpart, _⟩ := Rehearsal.heldUpRun_accounts
  have hunshown : Unshown (Rehearsal.heldUpRun e).1.1 (Rehearsal.heldUpRun e).1.2 part :=
    ⟨[a], [b], he, hpart, Or.inl (List.cons_ne_nil b [])⟩
  exact ⟨e, events, hstart, Rehearsal.heldUp_holdsPresses, Rehearsal.heldUp_clocked,
    Rehearsal.latePress_sticky, part, hunshown,
    resets_between_updates_iff Rehearsal.heldUp_holdsPresses Rehearsal.latePress_sticky hstart _ 100
      0 0 0 5 part hunshown⟩

end Chip8
