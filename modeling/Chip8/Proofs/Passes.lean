import Chip8.Player.Loop
import Chip8.Proofs.Session

/-!
# Passes of the main loop

What a pass comes to on a desktop that runs in a state, and how a run is made of passes. What the
desktop does is left open: a property of its state is assumed to be kept by the operations that are
asked for, and the passes are shown to keep it. The result of a pass says whether it reset, and then
whether the machine is still as it was started, which is all that the decision to reset depends on
besides the keyboard.
-/

namespace Chip8
set_option autoImplicit false

variable {σ : Type}

theorem stepPeriod_pos (cyclesPerSecond : UInt32) : 0 < stepPeriod cyclesPerSecond :=
  Nat.lt_of_lt_of_le Nat.one_pos (Nat.le_max_right _ 1)

theorem run_bind {α β : Type} (x : StateM σ α) (f : α → StateM σ β) (r : σ) :
    (x >>= f).run r = (f (x.run r).1).run (x.run r).2 := rfl

/-- Where `P` holds, `x` leads to a result and a state for which `Q` holds. -/
def Triple {α : Type} (P : σ → Prop) (x : StateM σ α) (Q : α → σ → Prop) : Prop :=
  ∀ r, P r → Q (x.run r).1 (x.run r).2

namespace Triple
variable {α β : Type} {P : σ → Prop} {Q : α → σ → Prop} {S : β → σ → Prop}

theorem pure {a : α} (h : ∀ r, P r → Q a r) : Triple P (pure a) Q := h

theorem of_run {x : StateM σ α} (h : Triple P x Q) {r r₁ : σ} {a : α} (hr : P r)
    (hrun : x.run r = (a, r₁)) : Q a r₁ := by
  have hout := h r hr
  rw [hrun] at hout
  exact hout

theorem bind {x : StateM σ α} {f : α → StateM σ β} (hx : Triple P x Q)
    (hf : ∀ a, Triple (Q a) (f a) S) : Triple P (x >>= f) S := by
  intro r hr
  exact hf _ _ (hx r hr)

/-- A fact that does not depend on the state may be taken out of the precondition. -/
theorem assuming {fact : Prop} {x : StateM σ α} (h : fact → Triple P x Q) :
    Triple (fun r => fact ∧ P r) x Q := by
  intro r hr
  exact h hr.1 r hr.2

theorem forM {f : α → StateM σ Unit} (h : ∀ a, Triple P (f a) fun _ => P) (l : List α) :
    Triple P (l.forM f) fun _ => P := by
  induction l with
  | nil => exact .pure fun r hr => hr
  | cons a l ih => exact (h a).bind fun _ => ih

end Triple

/-- Every operation that the main loop asks for keeps `P`, updates of the window excepted. -/
structure Desktop.Keeps (d : Desktop (StateM σ)) (P : σ → Prop) : Prop where
  print : ∀ text, Triple P (d.print text) fun _ => P
  setTone : ∀ on, Triple P (d.setTone on) fun _ => P
  isOpen : Triple P d.isOpen fun _ => P
  held : Triple P d.held fun _ => P
  isPressed : ∀ key, Triple P (d.isPressed key) fun _ => P
  clock : Triple P d.clock fun _ => P
  sleep : ∀ micros, Triple P (d.sleep micros) fun _ => P

/-- Updates of the window lead from `P` to `P'`. -/
structure Desktop.Updates (d : Desktop (StateM σ)) (P P' : σ → Prop) : Prop where
  present : ∀ pixels, Triple P (d.present pixels) fun _ => P'
  refresh : Triple P d.refresh fun _ => P'

theorem Desktop.Keeps.log {d : Desktop (StateM σ)} {P : σ → Prop} (h : d.Keeps P) (v : Verbosity)
    (records : List Record) : Triple P (d.log v records) fun _ => P :=
  .forM h.print _

namespace Emulator

theorem steps_rom (keys : Keys) (random : RandomBytes) (v : Verbosity) (n : Nat) (e : Emulator)
    (log : Array Event) : (e.steps keys random v n log).1.rom = e.rom := by
  induction n generalizing e log with
  | zero => rfl
  | succ n ih =>
    rw [steps, ih]
    rfl

theorem steps_untouched (keys : Keys) (random : RandomBytes) (v : Verbosity) {n : Nat} (hn : 0 < n)
    (e : Emulator) (log : Array Event) : (e.steps keys random v n log).1.untouched = false := by
  induction n generalizing e log with
  | zero => exact absurd hn (Nat.lt_irrefl 0)
  | succ n ih =>
    rw [steps]
    cases n with
    | zero => rfl
    | succ n => exact ih (Nat.succ_pos n) _ _

end Emulator

namespace Player

/-- The player `q` plays the same ROM at the same pace as `p`, and has made a step since or not. -/
structure LeadsTo (p q : Player) (stepped : Bool) : Prop where
  rom_eq : q.emulator.rom = p.emulator.rom
  period_eq : q.period = p.period
  untouched_eq : q.emulator.untouched = (p.emulator.untouched && !stepped)

theorem LeadsTo.trans {p q r : Player} {first second : Bool} (h : p.LeadsTo q first)
    (h' : q.LeadsTo r second) : p.LeadsTo r (first || second) where
  rom_eq := h'.rom_eq.trans h.rom_eq
  period_eq := h'.period_eq.trans h.period_eq
  untouched_eq := by rw [h'.untouched_eq, h.untouched_eq, Bool.not_or, Bool.and_assoc]

/-- What a pass comes to when the answer to whether F1 was pressed is `asked`. -/
inductive Follows (p : Player) (asked : Bool) : Account → Verdict → Prop where
  | closed : p.Follows asked {} .closed
  | reset {q : Player} (pressed : asked = true) (touched : p.emulator.untouched = false)
      (rom_eq : q.emulator.rom = p.emulator.rom) (period_eq : q.period = p.period)
      (fresh : q.emulator.untouched = true) : p.Follows asked { reset := true } (.goesOn q)
  | goesOn {q : Player} {a : Account} (calm : (asked && !p.emulator.untouched) = false)
      (ordinary : a.reset = false) (leads : p.LeadsTo q a.steps.isSome) :
      p.Follows asked a (.goesOn q)
  | failed {a : Account} {error : PlayerError} (calm : (asked && !p.emulator.untouched) = false)
      (ordinary : a.reset = false) (shown : a.redraw.isSome) : p.Follows asked a (.failed error)

/-- After a pass with an update of the window `P'` holds, after one without `P`. -/
def Settled (P P' : σ → Prop) (redraw : Option Redraw) (r : σ) : Prop :=
  match redraw with
  | none => P r
  | some _ => P' r

variable {d : Desktop (StateM σ)} {P P' : σ → Prop} (p : Player) (s : Stage)

theorem keepTimers_triple (h : d.Keeps P) :
    Triple P (p.keepTimers d) fun out r => p.LeadsTo out.2 false ∧ P r := by
  unfold keepTimers
  refine h.clock.bind fun now => ?_
  split
  · refine h.clock.bind fun mark => ?_
    exact .pure fun r hr => ⟨⟨rfl, rfl, (Bool.and_true _).symm⟩, hr⟩
  · exact .pure fun r hr => ⟨⟨rfl, rfl, (Bool.and_true _).symm⟩, hr⟩

/-- Steps that are due are at least one step, so that they touch the machine. -/
theorem catchUp_triple (h : d.Keeps P) (hp : 0 < p.period) :
    Triple P (p.catchUp d s) fun out r => p.LeadsTo out.2 out.1.isSome ∧ P r := by
  unfold catchUp
  refine h.clock.bind fun now => ?_
  split
  · rename_i hdue
    have howed : 0 < p.owed now := Nat.div_pos (of_decide_eq_true hdue) hp
    refine (h.log _ _).bind fun _ => h.clock.bind fun mark => ?_
    refine .pure fun r hr => ⟨⟨?_, rfl, ?_⟩, hr⟩
    · exact Emulator.steps_rom _ _ _ _ _ _
    · exact (Emulator.steps_untouched _ _ _ howed _ _).trans (Bool.and_false _).symm
  · exact .pure fun r hr => ⟨⟨rfl, rfl, (Bool.and_true _).symm⟩, hr⟩

theorem updateWindow_triple (h : d.Keeps P) (hu : d.Updates P P') (h' : d.Keeps P') :
    Triple P (p.updateWindow d) fun out r =>
      (match out.2 with
        | .ok q => p.LeadsTo q false
        | .error _ => out.1.isSome) ∧
      Settled P P' out.1 r := by
  unfold updateWindow
  refine h.clock.bind fun now => ?_
  split
  · refine h.clock.bind fun mark => ?_
    split
    · refine (hu.present _).bind fun result => ?_
      split
      · exact .pure fun r hr => ⟨rfl, hr⟩
      · refine h'.held.bind fun down => ?_
        exact .pure fun r hr => ⟨⟨rfl, rfl, (Bool.and_true _).symm⟩, hr⟩
    · refine hu.refresh.bind fun _ => h'.held.bind fun down => ?_
      exact .pure fun r hr => ⟨⟨rfl, rfl, (Bool.and_true _).symm⟩, hr⟩
  · exact .pure fun r hr => ⟨⟨rfl, rfl, (Bool.and_true _).symm⟩, hr⟩

theorem pause_triple (h : d.Keeps P) : Triple P (p.pause d) fun _ => P := by
  unfold pause
  refine h.clock.bind fun now => ?_
  split
  · exact h.sleep _
  · exact .pure fun r hr => hr

theorem reset_triple (h : d.Keeps P) {memory : Memory}
    (hload : Memory.blank.load p.emulator.rom = .ok memory) (v : Verbosity)
    (touched : p.emulator.untouched = false) :
    Triple P (p.reset d v) fun out r => p.Follows true out.1 out.2 ∧
      Settled P P' out.1.redraw r := by
  unfold reset
  rw [Emulator.reset_eq_ok hload]
  refine (h.log _ _).bind fun _ => (h.setTone _).bind fun _ => ?_
  refine h.clock.bind fun step => h.clock.bind fun tick => h.clock.bind fun redraw => ?_
  exact .pure fun r hr => ⟨.reset rfl touched rfl rfl rfl, hr⟩

/-- A pass that is not told to reset. -/
def advance {m : Type → Type} [Monad m] (p : Player) (d : Desktop m) (s : Stage) :
    m (Account × Verdict) := do
  let (tick, p) ← p.keepTimers d
  let (steps, p) ← p.catchUp d s
  let tone := p.emulator.toneActive
  d.setTone tone
  let (redraw, shown) ← p.updateWindow d
  let account : Account := { tick := tick, steps := steps, tone := tone, redraw := redraw }
  match shown with
  | .error cause => return (account, .failed (.window cause))
  | .ok p =>
    p.pause d
    return (account, .goesOn p)

theorem pass_eq {m : Type → Type} [Monad m] (d : Desktop m) : p.pass d s = (do
    if !(← d.isOpen) then return ({}, .closed)
    if (← d.held) .escape then return ({}, .closed)
    if (← d.isPressed .f1) && !p.emulator.untouched then p.reset d s.verbosity
    else p.advance d s) := rfl

theorem advance_triple (h : d.Keeps P) (hu : d.Updates P P') (h' : d.Keeps P')
    (hp : 0 < p.period) {asked : Bool} (calm : (asked && !p.emulator.untouched) = false) :
    Triple P (p.advance d s) fun out r => p.Follows asked out.1 out.2 ∧
      Settled P P' out.1.redraw r := by
  unfold advance
  refine (p.keepTimers_triple h).bind fun (tick, p₁) => .assuming fun h₁ => ?_
  have hp₁ : 0 < p₁.period := by rw [h₁.period_eq]; exact hp
  refine (p₁.catchUp_triple s h hp₁).bind fun (steps, p₂) => .assuming fun h₂ => ?_
  have h₁₂ : p.LeadsTo p₂ steps.isSome := h₁.trans h₂
  refine (h.setTone _).bind fun _ => ?_
  refine (p₂.updateWindow_triple h hu h').bind fun (redraw, shown) => .assuming fun h₃ => ?_
  cases shown with
  | error cause => exact .pure fun r hr => ⟨.failed calm rfl h₃, hr⟩
  | ok p₃ =>
    have hkeeps : d.Keeps (Settled P P' redraw) := by
      cases redraw with
      | none => exact h
      | some _ => exact h'
    have h₁₃ : p.LeadsTo p₃ steps.isSome := by
      have := h₁₂.trans h₃
      rwa [Bool.or_false] at this
    refine (p₃.pause_triple hkeeps).bind fun _ => ?_
    exact .pure fun r hr => ⟨.goesOn calm rfl h₁₃, hr⟩

theorem pass_triple (h : d.Keeps P) (hu : d.Updates P P') (h' : d.Keeps P')
    {asked : Bool} (hasked : Triple P (d.isPressed .f1) fun answer r => answer = asked ∧ P r)
    {memory : Memory} (hload : Memory.blank.load p.emulator.rom = .ok memory)
    (hp : 0 < p.period) :
    Triple P (p.pass d s) fun out r => p.Follows asked out.1 out.2 ∧
      Settled P P' out.1.redraw r := by
  rw [pass_eq]
  refine h.isOpen.bind fun isOpen => ?_
  split
  · exact .pure fun r hr => ⟨.closed, hr⟩
  refine h.held.bind fun held => ?_
  split
  · exact .pure fun r hr => ⟨.closed, hr⟩
  refine hasked.bind fun answer => .assuming fun ha => ?_
  subst ha
  split
  · rename_i hreset
    obtain ⟨hanswer, htouched⟩ := Bool.and_eq_true_iff.mp hreset
    rw [hanswer]
    exact p.reset_triple h hload _ ((Bool.not_eq_true' _).mp htouched)
  · rename_i hcalm
    exact p.advance_triple s h hu h' hp (Bool.not_eq_true _ ▸ hcalm)

end Player

/-- A run of the main loop: the accounts of its passes, how it ends, and the states of the desktop at
its ends. -/
inductive Plays (d : Desktop (StateM σ)) (s : Stage) :
    Player → σ → List Account → Player.Ending → σ → Prop where
  | suspended {p : Player} {r : σ} : Plays d s p r [] (.suspended p) r
  | goesOn {p q : Player} {r r₁ r₂ : σ} {a : Account} {accounts : List Account}
      {ending : Player.Ending} (pass : (p.pass d s).run r = ((a, .goesOn q), r₁))
      (rest : Plays d s q r₁ accounts ending r₂) : Plays d s p r (a :: accounts) ending r₂
  | closed {p : Player} {r r₁ : σ} {a : Account} (pass : (p.pass d s).run r = ((a, .closed), r₁)) :
      Plays d s p r [a] .closed r₁
  | failed {p : Player} {r r₁ : σ} {a : Account} {error : PlayerError}
      (pass : (p.pass d s).run r = ((a, .failed error), r₁)) :
      Plays d s p r [a] (.failed error) r₁

namespace Player

theorem run_succ {α : Type} (d : Desktop (StateM σ)) (s : Stage) (note : α → Account → α) (n : Nat)
    (p : Player) (notes : α) (r : σ) : (run d s note (n + 1) p notes).run r =
      match (p.pass d s).run r with
      | ((a, .goesOn q), r₁) => (run d s note n q (note notes a)).run r₁
      | ((a, .closed), r₁) => ((note notes a, .closed), r₁)
      | ((a, .failed error), r₁) => ((note notes a, .failed error), r₁) := by
  rw [run, run_bind]
  rcases (p.pass d s).run r with ⟨⟨a, verdict⟩, r₁⟩
  cases verdict with
  | goesOn q => rfl
  | closed => rfl
  | failed error => rfl

/-- What a run gathers from its accounts and how it ends, for every way to gather them. -/
theorem run_plays (d : Desktop (StateM σ)) (s : Stage) (n : Nat) (p : Player) (r : σ) :
    ∃ accounts ending r', Plays d s p r accounts ending r' ∧
      ∀ {α : Type} (note : α → Account → α) (notes : α),
        (run d s note n p notes).run r = ((accounts.foldl note notes, ending), r') := by
  induction n generalizing p r with
  | zero => exact ⟨[], _, r, .suspended, fun note notes => rfl⟩
  | succ n ih =>
    rcases hpass : (p.pass d s).run r with ⟨⟨a, verdict⟩, r₁⟩
    cases verdict with
    | goesOn q =>
      obtain ⟨accounts, ending, r₂, hplays, hnotes⟩ := ih q r₁
      refine ⟨a :: accounts, ending, r₂, .goesOn hpass hplays, fun note notes => ?_⟩
      rw [run_succ, hpass]
      exact hnotes note _
    | closed =>
      refine ⟨[a], .closed, r₁, .closed hpass, fun note notes => ?_⟩
      rw [run_succ, hpass]
      rfl
    | failed error =>
      refine ⟨[a], .failed error, r₁, .failed hpass, fun note notes => ?_⟩
      rw [run_succ, hpass]
      rfl

theorem plays_run (d : Desktop (StateM σ)) (s : Stage) (n : Nat) (p : Player) (r : σ) :
    let out := (run d s (fun accounts a => accounts ++ [a]) n p []).run r
    Plays d s p r out.1.1 out.1.2 out.2 := by
  intro out
  obtain ⟨accounts, ending, r', hplays, hnotes⟩ := run_plays d s n p r
  have hlisted : accounts.foldl (fun l a => l ++ [a]) [] = accounts := by
    rw [List.foldl_append_eq_append, List.nil_append, ← List.flatMap_def, List.flatMap_singleton']
  have hout : out = ((accounts, ending), r') := by
    rw [← hlisted]
    exact hnotes _ []
  rw [hout]
  exact hplays

end Player
end Chip8
