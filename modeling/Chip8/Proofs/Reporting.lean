import Chip8.Proofs.Remarks
import Mathlib.Data.List.Chain

/-!
# What the log tells

The reports of a session in the light of what was executed. Between a wait and its end nothing is reported, so that
the two follow each other in the log; and calls and returns, less those of which a remark says that they went wrong,
account for the addresses on the stack. Resets, which empty the stack and end a wait without a word, are left out.
-/

namespace Chip8
set_option autoImplicit false

namespace Instruction

def isCall : Instruction → Bool
  | call _ => true
  | _ => false

def isReturn : Instruction → Bool
  | ret => true
  | _ => false

end Instruction

namespace Event

/-- The word that was fetched stands for an instruction of the kind. -/
def fetches (kind : Instruction → Bool) : Event → Bool
  | fetched _ word => kind (.decode word)
  | _ => false

def isWait : Event → Bool
  | waiting _ | resumed _ _ => true
  | _ => false

def isIgnoredReturn : Event → Bool
  | returnIgnored _ => true
  | _ => false

def isDroppedReturn : Event → Bool
  | returnDropped _ => true
  | _ => false

end Event

namespace Instruction
variable {i : Instruction} {pc : UInt16} {depth : Nat} {ev : Event}

theorem remark_quiet (hi : ∀ x, i ≠ .awaitKey x) (h : i.remark pc depth = some ev) :
    ev.isWait = false := by
  rcases remark_cases h with rfl | rfl | ⟨word, rfl⟩ | ⟨x, hx, _⟩
  · rfl
  · rfl
  · rfl
  · exact absurd hx (hi x)

theorem remark_fetches (h : i.remark pc depth = some ev) (kind : Instruction → Bool) :
    ev.fetches kind = false := by
  rcases remark_cases h with rfl | rfl | ⟨word, rfl⟩ | ⟨x, _, rfl⟩ <;> rfl

end Instruction

namespace Machine
variable {m : Machine} (keys : Keys) (random : RandomBytes)

/-- A call adds an address to the stack and a return takes one away, unless a remark is made about it. -/
theorem execute_depth (h : m.stack.depth ≤ stackSize) (i : Instruction) :
    let remark := (i.remark m.pc m.stack.depth).toList
    (m.execute keys random i).machine.stack.depth + remark.countP Event.isDroppedReturn +
        i.isReturn.toNat =
      m.stack.depth + i.isCall.toNat + remark.countP Event.isIgnoredReturn := by
  cases i with
  | ret =>
    by_cases hempty : m.stack.depth = 0
    · simp [execute, Instruction.remark, Instruction.isReturn, Instruction.isCall,
        CallStack.pop?_eq_none hempty, hempty, Event.isDroppedReturn, Event.isIgnoredReturn]
    · obtain ⟨address, hpop⟩ := CallStack.pop?_of_pos h hempty
      have hpopped : m.stack.depth - 1 + 1 = m.stack.depth := Nat.succ_pred hempty
      simp [execute, Instruction.remark, Instruction.isReturn, Instruction.isCall, hpop, hempty, hpopped]
  | call a =>
    by_cases hfull : m.stack.depth = 16
    · simp [execute, Instruction.remark, Instruction.isReturn, Instruction.isCall,
        CallStack.push?_eq_none hfull, hfull, Event.isDroppedReturn, Event.isIgnoredReturn]
    · have hroom : m.stack.depth < stackSize := Nat.lt_of_le_of_ne h hfull
      simp [execute, Instruction.remark, Instruction.isReturn, Instruction.isCall,
        CallStack.push?_eq_of_lt hroom, hfull]
  | skipEqByte | skipNeByte | skipEq | skipNe | skipKeyDown | skipKeyUp =>
    simp [execute, Instruction.remark, Instruction.isReturn, Instruction.isCall]
  | _ => rfl

/-- An instruction that is executed starts a wait if it is the one that awaits a key. -/
theorem step_keyWait {i : Instruction} (h : m.upcoming = some i) :
    (∃ x, i = .awaitKey x ∧ (m.step keys random).machine.keyWait = some x) ∨
      (∀ x, i ≠ .awaitKey x) ∧ (m.step keys random).machine.keyWait = none := by
  have hrunning := (upcoming_eq_some.mp h).1
  rw [step_upcoming keys random h]
  rcases execute_keyWait { m with pc := next m.pc } keys random i with hkept | ⟨x, hi, hwaits⟩
  · refine Or.inr ⟨?_, hkept.trans hrunning⟩
    rintro x rfl
    have hwaits : some x = m.keyWait := hkept
    rw [hrunning] at hwaits
    cases hwaits
  · exact Or.inl ⟨x, hi, hwaits⟩

end Machine

/-- The reports up to some time, with the register for which the machine then waits: a wait is followed by its
end and nothing else, and no wait ends that did not begin. -/
inductive Alternates : List Event → Option UInt8 → Prop where
  | start : Alternates [] none
  | quiet {log : List Event} {ev : Event} (before : Alternates log none) (quiet : ev.isWait = false) :
      Alternates (log ++ [ev]) none
  | waits {log : List Event} (before : Alternates log none) (x : UInt8) :
      Alternates (log ++ [.waiting x]) (some x)
  | resumes {log : List Event} {x : UInt8} (before : Alternates log (some x)) (key : UInt8) :
      Alternates (log ++ [.resumed key x]) none

namespace Alternates
variable {log : List Event} {wait : Option UInt8}

theorem getLast? (h : Alternates log wait) (x : UInt8) :
    log.getLast? = some (.waiting x) ↔ wait = some x := by
  cases h with
  | start => simp
  | quiet _ quiet =>
    rw [List.getLast?_concat]
    constructor
    · rintro ⟨⟩
      cases quiet
    · rintro ⟨⟩
  | waits _ y => simp [eq_comm]
  | resumes => simp

end Alternates

/-- The addresses on the stack are those pushed less those popped, as far as the reports tell. -/
def Balanced (log : List Event) (depth : Nat) : Prop :=
  depth + log.countP Event.isDroppedReturn + log.countP (Event.fetches Instruction.isReturn) =
    log.countP (Event.fetches Instruction.isCall) + log.countP Event.isIgnoredReturn

theorem Balanced.fetch {log : List Event} {depth depth' : Nat} (h : Balanced log depth)
    (address : UInt16) {word : UInt16} {remark : Option Event}
    (hremark : ∀ {ev}, remark = some ev → ∀ kind, ev.fetches kind = false)
    (hdepth : depth' + remark.toList.countP Event.isDroppedReturn +
        (Instruction.decode word).isReturn.toNat =
      depth + (Instruction.decode word).isCall.toNat + remark.toList.countP Event.isIgnoredReturn) :
    Balanced (log ++ .fetched address word :: remark.toList) depth' := by
  have hfetches (kind : Instruction → Bool) :
      (log ++ .fetched address word :: remark.toList).countP (Event.fetches kind) =
        log.countP (Event.fetches kind) + (kind (.decode word)).toNat := by
    have hnone : remark.toList.countP (Event.fetches kind) = 0 := by
      rw [List.countP_eq_zero]
      intro ev hev
      rw [hremark (Option.mem_toList.mp hev)]
      exact Bool.false_ne_true
    rw [List.countP_append, List.countP_cons, hnone, Nat.zero_add, Event.fetches]
    cases kind (.decode word) <;> rfl
  have hother (kind : Event → Bool) (hkind : kind (.fetched address word) = false) :
      (log ++ .fetched address word :: remark.toList).countP kind =
        log.countP kind + remark.toList.countP kind := by
    rw [List.countP_append, List.countP_cons_of_neg (by simp [hkind])]
  unfold Balanced at *
  rw [hfetches, hfetches, hother _ rfl, hother _ rfl]
  omega

/-- The reports account for the wait and for the depth of the stack. -/
structure Accounted (log : List Event) (m : Machine) : Prop where
  alternates : Alternates log m.keyWait
  balanced : Balanced log m.stack.depth

namespace Machine
variable {m : Machine} {log : List Event} (keys : Keys) (random : RandomBytes)

theorem step_alternates (h : Alternates log m.keyWait) (hdepth : m.stack.depth ≤ stackSize) :
    Alternates (log ++ (m.step keys random).events) (m.step keys random).machine.keyWait := by
  cases hw : m.keyWait with
  | some x =>
    rw [hw] at h
    rw [step_waiting keys random hw]
    rcases idle_or_lowest keys with hidle | ⟨key, hkey⟩
    · rw [poll_idle m x hidle, List.append_nil]
      rwa [← hw] at h
    · rw [poll_lowest m x hkey]
      exact h.resumes key
  | none =>
    have hi := upcoming_eq_some.mpr ⟨hw, rfl⟩
    rw [hw] at h
    rw [step_events keys random hi hdepth, List.append_cons]
    have hfetched : Alternates (log ++ [.fetched m.pc (m.memory.word m.pc)]) none := h.quiet rfl
    rcases step_keyWait keys random hi with ⟨x, hawait, hwaits⟩ | ⟨hother, hnone⟩
    · rw [hawait, hwaits]
      exact hfetched.waits x
    · rw [hnone]
      cases hremark : Instruction.remark (next m.pc) m.stack.depth (.decode (m.memory.word m.pc)) with
      | none => rwa [Option.toList_none, List.append_nil]
      | some ev => exact hfetched.quiet (Instruction.remark_quiet hother hremark)

theorem step_balanced (h : Balanced log m.stack.depth) (hdepth : m.stack.depth ≤ stackSize) :
    Balanced (log ++ (m.step keys random).events) (m.step keys random).machine.stack.depth := by
  cases hw : m.keyWait with
  | some x =>
    rw [step_waiting keys random hw]
    rcases idle_or_lowest keys with hidle | ⟨key, hkey⟩
    · rwa [poll_idle m x hidle, List.append_nil]
    · rw [poll_lowest m x hkey]
      simpa [Balanced, Event.fetches, Event.isDroppedReturn, Event.isIgnoredReturn] using h
  | none =>
    have hi := upcoming_eq_some.mpr ⟨hw, rfl⟩
    have hexecuted := execute_depth (m := { m with pc := next m.pc }) keys random hdepth
      (.decode (m.memory.word m.pc))
    rw [step_events keys random hi hdepth, step_running keys random hw]
    exact h.fetch _ Instruction.remark_fetches hexecuted

theorem step_accounted (h : Accounted log m) (hdepth : m.stack.depth ≤ stackSize) :
    Accounted (log ++ (m.step keys random).events) (m.step keys random).machine where
  alternates := step_alternates keys random h.alternates hdepth
  balanced := step_balanced keys random h.balanced hdepth

end Machine

namespace Emulator

/-- The reports of a session up to some time, which began with those in `started`. -/
structure Told (random : RandomBytes) (started : List Event) (xs : List Moment) (e : Emulator) :
    Prop where
  wellFormed : e.machine.WellFormed
  tells : ∀ x ∈ xs, x.Tells random
  accounted : (∀ x ∈ xs, x.op.isReset = false) →
    Accounted (started ++ xs.flatMap (Moment.events random)) e.machine

theorem Told.perform {random : RandomBytes} {started : List Event} {xs : List Moment}
    {e e' : Emulator} {op : Operation} (h : Told random started xs e)
    (hop : e.perform random op = .ok e') : Told random started (xs ++ [⟨e, op⟩]) e' := by
  have hdepth := h.wellFormed.stack.depth_le
  refine ⟨?_, ?_, ?_⟩
  · obtain ⟨memory, hmachine⟩ := perform_machine hop
    rw [hmachine]
    exact Machine.perform_wellFormed h.wellFormed random _
  · intro x hx
    rcases List.mem_append.mp hx with hx | hx
    · exact h.tells x hx
    · rw [List.mem_singleton.mp hx]
      exact Moment.tells hdepth random op
  · intro hresets
    rw [List.forall_mem_append] at hresets
    have hbefore := h.accounted hresets.1
    rw [List.flatMap_append, List.flatMap_singleton, ← List.append_assoc]
    cases op with
    | step keys =>
      obtain rfl := Except.ok.inj hop
      exact Machine.step_accounted keys random hbefore hdepth
    | tick | clearDirty =>
      obtain rfl := Except.ok.inj hop
      exact (List.append_nil _).symm ▸ ⟨hbefore.alternates, hbefore.balanced⟩
    | reset => cases hresets.2 _ List.mem_cons_self

end Emulator

end Chip8
