import Chip8.Proofs.Footprint
import Chip8.Proofs.Session

/-!
# The mark on the screen

When the screen is marked as drawn on. A start and a reset set the mark, showing the screen clears it, and from
then on it is set again by the first instruction that clears the screen or draws a sprite, be it without rows.
No other instruction touches the cells, so an unmarked screen is still as it was when it was last shown. A
marked one need not have changed.
-/

namespace Chip8
set_option autoImplicit false

def Instruction.Draws : Instruction → Prop
  | clear | draw _ _ _ => True
  | _ => False

theorem Instruction.screen_not_mem_writes {i : Instruction} (h : ¬ i.Draws) (index : UInt16) :
    .screen ∉ i.writes index := by
  cases i with
  | clear | draw => exact absurd trivial h
  | _ => simp [writes, Part.v, Part.byte]

namespace Machine
variable {m : Machine} (keys : Keys) (random : RandomBytes)

theorem step_dirty {i : Instruction} (h : m.upcoming = some i) (hi : i.Draws) :
    (m.step keys random).machine.screen.dirty = true := by
  rw [step_upcoming keys random h]
  cases i with
  | clear | draw => rfl
  | _ => exact absurd hi id

theorem step_screen_eq (h : ∀ i, m.upcoming = some i → ¬ i.Draws) :
    (m.step keys random).machine.screen = m.screen := by
  have hsame : Part.screen.Same m (m.step keys random).machine := by
    apply step_same_of_upcoming
    · simp
    · simp
    · simp [Part.v]
    · intro i hi
      exact Instruction.screen_not_mem_writes (h i hi) m.i
  exact hsame

end Machine

namespace Emulator

/-- The operation settles whether the screen is to be shown: it is after a reset, and no more once it was. -/
def Operation.settles : Operation → Bool
  | .clearDirty | .reset => true
  | _ => false

namespace Moment

def Draws (x : Moment) : Prop :=
  (∃ keys, x.op = .step keys) ∧ ∃ i, x.emulator.machine.upcoming = some i ∧ i.Draws

/-- The last moment at which the screen was shown or the ROM started again. -/
def lastSettled (xs : List Moment) : Option Moment := xs.reverse.find? fun x => x.op.settles

/-- The moments since then, the latest first. -/
def sinceSettled (xs : List Moment) : List Moment := xs.reverse.takeWhile fun x => !x.op.settles

section Concat
variable {xs : List Moment} {x : Moment}

theorem lastSettled_of_settles (h : x.op.settles = true) : lastSettled (xs ++ [x]) = some x := by
  simp [lastSettled, h]

theorem lastSettled_concat (h : x.op.settles = false) :
    lastSettled (xs ++ [x]) = lastSettled xs := by
  simp [lastSettled, h]

theorem sinceSettled_of_settles (h : x.op.settles = true) : sinceSettled (xs ++ [x]) = [] := by
  simp [sinceSettled, h]

theorem sinceSettled_concat (h : x.op.settles = false) :
    sinceSettled (xs ++ [x]) = x :: sinceSettled xs := by
  simp [sinceSettled, h]

end Concat
end Moment

section Perform
variable {random : RandomBytes} {e e' : Emulator} {op : Operation}

theorem perform_dirty (hop : e.perform random op = .ok e') (h : Moment.Draws ⟨e, op⟩) :
    e'.machine.screen.dirty = true := by
  obtain ⟨⟨keys, rfl⟩, i, hi, hdraws⟩ := h
  obtain rfl := Except.ok.inj hop
  exact Machine.step_dirty keys random hi hdraws

theorem perform_screen_eq (hop : e.perform random op = .ok e') (hsettles : op.settles = false)
    (h : ¬ Moment.Draws ⟨e, op⟩) : e'.machine.screen = e.machine.screen := by
  cases op with
  | step keys =>
    obtain rfl := Except.ok.inj hop
    apply Machine.step_screen_eq
    intro i hi hdraws
    exact h ⟨⟨keys, rfl⟩, i, hi, hdraws⟩
  | tick =>
    obtain rfl := Except.ok.inj hop
    rfl
  | clearDirty => cases hsettles
  | reset => cases hsettles

end Perform

/-- The mark is set unless the screen was shown and not drawn on since, and an unmarked screen is the one
that was shown. -/
structure MarkExact (xs : List Moment) (e : Emulator) : Prop where
  dirty_iff : e.machine.screen.dirty = true ↔
    (Moment.lastSettled xs).map Moment.op ≠ some .clearDirty ∨ ∃ x ∈ Moment.sinceSettled xs, x.Draws
  shown : e.machine.screen.dirty = false → ∃ x, Moment.lastSettled xs = some x ∧
    x.op = .clearDirty ∧ e.machine.screen.cells = x.emulator.machine.screen.cells

theorem MarkExact.perform {xs : List Moment} {e e' : Emulator} {random : RandomBytes}
    {op : Operation} (h : MarkExact xs e) (hop : e.perform random op = .ok e') :
    MarkExact (xs ++ [⟨e, op⟩]) e' := by
  cases hsettles : op.settles with
  | true =>
    cases op with
    | clearDirty =>
      obtain rfl := Except.ok.inj hop
      constructor
      · rw [Moment.lastSettled_of_settles rfl, Moment.sinceSettled_of_settles rfl]
        simp [clearDirty, Machine.clearDirty, Screen.clearDirty]
      · intro _
        exact ⟨_, Moment.lastSettled_of_settles rfl, rfl, rfl⟩
    | reset =>
      obtain ⟨memory, hmachine⟩ := perform_machine hop
      have hdirty : e'.machine.screen.dirty = true := by
        rw [hmachine]
        rfl
      constructor
      · rw [Moment.lastSettled_of_settles rfl]
        simp [hdirty]
      · intro hclean
        simp [hdirty] at hclean
    | step keys => cases hsettles
    | tick => cases hsettles
  | false =>
    by_cases hdraws : Moment.Draws ⟨e, op⟩
    · have hdirty := perform_dirty hop hdraws
      constructor
      · rw [Moment.sinceSettled_concat hsettles]
        exact iff_of_true hdirty (Or.inr ⟨_, List.mem_cons_self, hdraws⟩)
      · intro hclean
        simp [hdirty] at hclean
    · have hscreen := perform_screen_eq hop hsettles hdraws
      constructor
      · rw [hscreen, h.dirty_iff, Moment.lastSettled_concat hsettles,
          Moment.sinceSettled_concat hsettles]
        simp [hdraws]
      · rw [hscreen, Moment.lastSettled_concat hsettles]
        exact h.shown

end Emulator

/-- In every session the screen is marked exactly if it was never shown, or was last started again rather than
shown, or an instruction was executed since then that clears it or draws a sprite. An unmarked screen has in every
cell what it had when it was last shown. -/
theorem screen_marked_iff {rom : Rom} {draws : Nat} {e : Emulator} {events : List Event}
    (h : Emulator.start rom draws = .ok (e, events)) (random : RandomBytes)
    (ops : List Emulator.Operation) :
    ∃ e', e.after random ops = .ok e' ∧
      (e'.machine.screen.dirty = true ↔
        (Emulator.Moment.lastSettled (e.moments random ops)).map Emulator.Moment.op ≠
            some .clearDirty ∨
          ∃ x ∈ Emulator.Moment.sinceSettled (e.moments random ops), x.Draws) ∧
      (e'.machine.screen.dirty = false →
        ∃ x, Emulator.Moment.lastSettled (e.moments random ops) = some x ∧ x.op = .clearDirty ∧
          ∀ k, e'.machine.screen.cells.get k = x.emulator.machine.screen.cells.get k) := by
  obtain ⟨memory, hload, rfl, _⟩ := Emulator.start_eq_ok h
  have hstart : Emulator.MarkExact [] ⟨.start memory draws, rom, true⟩ := by
    constructor
    · exact iff_of_true rfl (Or.inl (by simp [Emulator.Moment.lastSettled]))
    · intro hclean
      cases hclean
  obtain ⟨e', hafter, hdirty, hshown⟩ := Emulator.moments_keep random
    (fun xs e op e' hexact hop => hexact.perform hop) hload hstart ops
  refine ⟨e', hafter, hdirty, ?_⟩
  intro hclean
  obtain ⟨x, hlast, hop, hcells⟩ := hshown hclean
  exact ⟨x, hlast, hop, fun k => by rw [hcells]⟩

/-- The ROM draws a glyph, and then a sprite without rows. -/
def dotting : Rom := #[0xA0, 0x50, 0xD0, 0x05, 0x60, 0x07, 0xD0, 0x00]

/-- The glyph is shown, and the sprite without rows not yet drawn. -/
def dottingSession : List Emulator.Operation :=
  let step := .step fun _ => false
  [step, .clearDirty, .reset, step, step, .clearDirty, .tick, step]

theorem screen_marked_iff_of_dotting :
    ∃ e events, Emulator.start dotting 0 = .ok (e, events) ∧
      (∃ shown x, e.after (fun _ => 0) dottingSession = .ok shown ∧
        shown.machine.screen.dirty = false ∧
        Emulator.Moment.lastSettled (e.moments (fun _ => 0) dottingSession) = some x ∧
        x.op = .clearDirty ∧
        ∀ k, shown.machine.screen.cells.get k = x.emulator.machine.screen.cells.get k) ∧
      let more := dottingSession ++ [.step fun _ => false]
      ∃ drawn, e.after (fun _ => 0) more = .ok drawn ∧ drawn.machine.screen.dirty = true ∧
        (Emulator.Moment.lastSettled (e.moments (fun _ => 0) more)).map Emulator.Moment.op =
          some .clearDirty ∧
        ∃ x ∈ Emulator.Moment.sinceSettled (e.moments (fun _ => 0) more), x.Draws := by
  have hstart : ∃ e events, Emulator.start dotting 0 = .ok (e, events) := ⟨_, _, rfl⟩
  obtain ⟨e, events, he⟩ := hstart
  obtain ⟨shown, hafter, _, hcells⟩ := screen_marked_iff he (fun _ => 0) dottingSession
  obtain ⟨drawn, hmore, hdirty, _⟩ :=
    screen_marked_iff he (fun _ => 0) (dottingSession ++ [.step fun _ => false])
  have hlast : (Emulator.Moment.lastSettled (e.moments (fun _ => 0)
      (dottingSession ++ [.step fun _ => false]))).map Emulator.Moment.op = some .clearDirty := by
    cases he
    rfl
  have hshown : ((e.after (fun _ => 0) dottingSession).toOption.map fun e =>
      e.machine.screen.dirty) = some false := by
    cases he
    decide +kernel
  have hdrawn : ((e.after (fun _ => 0) (dottingSession ++ [.step fun _ => false])).toOption.map
      fun e => e.machine.screen.dirty) = some true := by
    cases he
    decide +kernel
  rw [hafter] at hshown
  rw [hmore] at hdrawn
  obtain ⟨x, hx, hop, hkept⟩ := hcells (Option.some.inj hshown)
  have hmarked := Option.some.inj hdrawn
  refine ⟨e, events, he, ⟨shown, x, hafter, Option.some.inj hshown, hx, hop, hkept⟩, drawn, hmore,
    hmarked, hlast, ?_⟩
  exact (hdirty.mp hmarked).resolve_left fun hother => hother hlast

end Chip8
