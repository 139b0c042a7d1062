import Chip8.Proofs.Effects
import Chip8.Proofs.Operands
import Chip8.Proofs.Session

/-!
# Well-formed machines

The ranges that hold in every session. The program counter has twelve bits because every stacked
address has, a waiting machine waits for one of the sixteen registers because the number came out of
a word, and a cell of the screen is dark or lit because drawing flips its last bit. The parts support
each other, so they are kept together.
-/

namespace Chip8
set_option autoImplicit false

/-- No more addresses than slots, and twelve bits in every slot, used or not. -/
structure CallStack.WellFormed (s : CallStack) : Prop where
  depth_le : s.depth ≤ stackSize
  slot_le : ∀ k (h : k < stackSize), (s.slots[k]).toNat ≤ 0xFFF

/-- Every cell is dark or lit. -/
def Screen.Binary (s : Screen) : Prop := ∀ k (h : k < screenSize), s.cells[k] = 0 ∨ s.cells[k] = 1

structure Machine.WellFormed (m : Machine) : Prop where
  pc_le : m.pc.toNat ≤ 0xFFF
  stack : m.stack.WellFormed
  keyWait_lt : ∀ x, m.keyWait = some x → x.toNat < 16
  screen : m.screen.Binary

namespace CallStack

theorem push?_eq_some {s t : CallStack} {address : UInt16} (h : s.push? address = some t) :
    ∃ hd : s.depth < stackSize, t = ⟨s.slots.set s.depth address hd, s.depth + 1⟩ := by
  unfold push? at h
  split at h
  · rename_i hd
    exact ⟨hd, (Option.some.inj h).symm⟩
  · simp at h

theorem pop?_eq_some {s t : CallStack} {address : UInt16} (h : s.pop? = some (address, t)) :
    0 < s.depth ∧ s.slots[s.depth - 1]? = some address ∧ t = { s with depth := s.depth - 1 } := by
  unfold pop? at h
  split at h
  · simp at h
  · rename_i hd
    obtain ⟨a, ha, he⟩ := Option.map_eq_some_iff.mp h
    obtain ⟨rfl, rfl⟩ := Prod.mk.inj he
    exact ⟨Nat.pos_of_ne_zero hd, ha, rfl⟩

theorem empty_wellFormed : empty.WellFormed where
  depth_le := Nat.zero_le _
  slot_le := by simp [empty]

theorem push?_wellFormed {s t : CallStack} {address : UInt16} (h : s.WellFormed)
    (ha : address.toNat ≤ 0xFFF) (hp : s.push? address = some t) : t.WellFormed := by
  obtain ⟨hd, rfl⟩ := push?_eq_some hp
  refine ⟨hd, ?_⟩
  intro k hk
  simp only [Vector.getElem_set]
  split
  · exact ha
  · exact h.slot_le k hk

theorem pop?_wellFormed {s t : CallStack} {address : UInt16} (h : s.WellFormed)
    (hp : s.pop? = some (address, t)) : address.toNat ≤ 0xFFF ∧ t.WellFormed := by
  obtain ⟨_, ha, rfl⟩ := pop?_eq_some hp
  obtain ⟨hk, rfl⟩ := Vector.getElem?_eq_some_iff.mp ha
  exact ⟨h.slot_le _ hk, Nat.le_trans (Nat.sub_le _ _) h.depth_le, h.slot_le⟩

end CallStack

namespace Screen

theorem dark_binary (dirty : Bool) : Binary ⟨Vector.replicate screenSize 0, dirty⟩ := by
  intro k h
  exact Or.inl (Vector.getElem_replicate ..)

theorem flip_binary {cells : Vector UInt8 screenSize} (k : Fin screenSize) (b c d : Bool)
    (h : Binary ⟨cells, b⟩) : Binary ⟨(flip (cells, c) k).1, d⟩ := by
  intro j hj
  simp only [flip, Vector.getElem_set]
  split
  · rcases h k.1 k.2 with hk | hk
    · exact Or.inr (by simp [Vector.get, hk])
    · exact Or.inl (by simp [Vector.get, hk])
  · exact h j hj

theorem draw_binary {s : Screen} (h : s.Binary) (x y : UInt8) (rows : List UInt8) :
    (s.draw x y rows).1.Binary := by
  have go : ∀ (ks : List (Fin screenSize)) (drawing : Vector UInt8 screenSize × Bool),
      Binary ⟨drawing.1, true⟩ → Binary ⟨(ks.foldl flip drawing).1, true⟩ := by
    intro ks
    induction ks with
    | nil => exact fun _ hd => hd
    | cons k ks ih => exact fun drawing hd => ih _ (flip_binary k true drawing.2 true hd)
  exact go _ (s.cells, false) h

theorem setPixel_binary {s t : Screen} {x y : UInt64} {on : Bool} (h : s.Binary)
    (ht : s.setPixel x y on = .ok t) : t.Binary := by
  unfold setPixel at ht
  cases hk : index x y with
  | error cause => simp [hk, bind, Except.bind] at ht
  | ok k =>
    simp only [hk, bind, Except.bind, pure, Except.pure, Except.ok.injEq] at ht
    subst ht
    intro j hj
    simp only [Vector.getElem_set]
    split
    · cases on
      · exact Or.inl rfl
      · exact Or.inr rfl
    · exact h j hj

end Screen

namespace Machine

theorem start_wellFormed (memory : Memory) (draws : Nat) : (start memory draws).WellFormed where
  pc_le := by
    change (UInt16.ofNat programStart).toNat ≤ 0xFFF
    decide
  stack := CallStack.empty_wellFormed
  keyWait_lt := by simp [start]
  screen := Screen.dark_binary true

theorem execute_wellFormed {m : Machine} (h : m.WellFormed) (keys : Keys) (random : RandomBytes)
    {i : Instruction} (hi : i.InRange) : (m.execute keys random i).machine.WellFormed where
  pc_le := by
    rcases m.execute_pc keys random i with hpc | hpc | ⟨s, hs⟩ | hj | hc | ⟨a, _, hpc⟩
    · exact hpc ▸ h.pc_le
    · exact hpc ▸ Instruction.address_le _
    · exact (CallStack.pop?_wellFormed h.stack hs).1
    · rw [hj] at hi
      exact hi
    · rw [hc] at hi
      exact hi
    · exact hpc ▸ Instruction.address_le _
  stack := by
    rcases m.execute_stack keys random i with hs | ⟨_, hs⟩ | ⟨a, _, hs⟩
    · exact hs ▸ h.stack
    · exact (CallStack.pop?_wellFormed h.stack hs).2
    · exact CallStack.push?_wellFormed h.stack h.pc_le hs
  keyWait_lt := by
    intro x hx
    rcases m.execute_keyWait keys random i with hw | ⟨y, rfl, hw⟩
    · exact h.keyWait_lt x (hw ▸ hx)
    · obtain rfl := Option.some.inj (hw.symm.trans hx)
      exact hi
  screen := by
    rcases m.execute_screen keys random i with hs | ⟨_, hs⟩ | ⟨x, y, n, _, hs⟩
    · exact hs ▸ h.screen
    · exact hs ▸ Screen.dark_binary true
    · exact hs ▸ Screen.draw_binary h.screen _ _ _

theorem step_wellFormed {m : Machine} (h : m.WellFormed) (keys : Keys) (random : RandomBytes) :
    (m.step keys random).machine.WellFormed := by
  cases hw : m.keyWait with
  | none =>
    rw [step_running keys random hw]
    exact execute_wellFormed (m := { m with pc := next m.pc })
      ⟨Instruction.address_le _, h.stack, h.keyWait_lt, h.screen⟩ keys random
      (Instruction.decode_inRange _)
  | some x =>
    rw [step_waiting keys random hw]
    rcases m.poll_machine keys x with hp | ⟨key, hp⟩
    · rw [hp]
      exact h
    · rw [hp]
      exact ⟨h.pc_le, h.stack, by simp, h.screen⟩

theorem perform_wellFormed {m : Machine} (h : m.WellFormed) (random : RandomBytes)
    (op : Operation) : (m.perform random op).machine.WellFormed := by
  cases op with
  | step keys => exact step_wellFormed h keys random
  | tick => exact ⟨h.pc_le, h.stack, h.keyWait_lt, h.screen⟩
  | clearDirty => exact ⟨h.pc_le, h.stack, h.keyWait_lt, h.screen⟩
  | reset memory => exact start_wellFormed memory m.draws
  | clearScreen => exact ⟨h.pc_le, h.stack, h.keyWait_lt, Screen.dark_binary true⟩
  | drawSprite x y rows => exact ⟨h.pc_le, h.stack, h.keyWait_lt, Screen.draw_binary h.screen x y rows⟩
  | setPixel x y on =>
    simp only [perform]
    split
    · rename_i screen hs
      exact ⟨h.pc_le, h.stack, h.keyWait_lt, Screen.setPixel_binary h.screen hs⟩
    · exact h

theorem after_wellFormed {m : Machine} (h : m.WellFormed) (random : RandomBytes)
    (ops : List Operation) : (m.after random ops).WellFormed :=
  after_keeps (P := WellFormed) (fun _ op hm => perform_wellFormed hm random op) h ops

end Machine

/-- Every session of an emulator whose ROM loads, and every session of a bare machine around any
memory, leads to a well-formed machine. -/
theorem session_wellFormed {rom : Rom} {draws : Nat} {e : Emulator} {events : List Event}
    (h : Emulator.start rom draws = .ok (e, events)) (random : RandomBytes) :
    (∀ ops, ∃ e', e.after random ops = .ok e' ∧ e'.machine.WellFormed) ∧
    (∀ memory ops, ((Machine.start memory draws).after random ops).WellFormed) := by
  constructor
  · intro ops
    obtain ⟨memory, hload, rfl, _⟩ := Emulator.start_eq_ok h
    obtain ⟨e', he', _, hmachine⟩ :=
      Emulator.after_eq_ok (e := ⟨.start memory draws, rom, true⟩) hload random ops
    refine ⟨e', he', ?_⟩
    rw [hmachine]
    exact Machine.after_wellFormed (Machine.start_wellFormed memory draws) random _
  · intro memory ops
    exact Machine.after_wellFormed (Machine.start_wellFormed memory draws) random ops

/-- A ROM that calls itself, seventeen times and once more after starting again. -/
theorem session_wellFormed_of_recursion :
    ∃ e events, Emulator.start #[0x22, 0x00] 0 = .ok (e, events) ∧
      ∃ e', e.after (fun _ => 0)
        (List.replicate 17 (.step fun _ => false) ++ [.reset, .step fun _ => false]) = .ok e' ∧
        e'.machine.WellFormed :=
  ⟨_, _, rfl, (@session_wellFormed #[0x22, 0x00] 0 _ _ rfl fun _ => 0).1 _⟩

end Chip8
