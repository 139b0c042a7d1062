import Chip8.Proofs.Effects
import Chip8.Proofs.Session
import Chip8.Proofs.WellFormed

/-!
# Subroutines

A call that found room comes back to the instruction after it. While the stack is deeper than it was
before the call, the slot of the call and those under it are out of reach: a push writes above them,
a push onto a full stack writes nothing, and a pop only lowers the depth. So it does not matter how
calls and returns are nested inside, how many calls were dropped, or what is executed at all. Whether
the subroutine ever comes back is not said.
-/

namespace Chip8
set_option autoImplicit false

/-- The stack is `base` with `address` pushed onto it, and anything above that. -/
structure CallStack.Above (s base : CallStack) (address : UInt16) : Prop where
  depth_lt : base.depth < s.depth
  slot_eq : s.slots[base.depth]? = some address
  below_eq : ∀ k, k < base.depth → s.slots[k]? = base.slots[k]?

/-- The stack has the depth of `base` and its slots in use. -/
structure CallStack.UnwoundTo (s base : CallStack) : Prop where
  depth_eq : s.depth = base.depth
  below_eq : ∀ k, k < base.depth → s.slots[k]? = base.slots[k]?

namespace CallStack
variable {s t base : CallStack} {address pushed popped : UInt16}

theorem push?_eq_of_lt (h : s.depth < stackSize) :
    s.push? address = some ⟨s.slots.set s.depth address h, s.depth + 1⟩ := by
  simp only [push?, h, dite_true]

/-- A push leaves the slots in use alone. -/
theorem push?_slots {k : Nat} (h : s.push? pushed = some t) (hk : k < s.depth) :
    t.slots[k]? = s.slots[k]? := by
  obtain ⟨hd, rfl⟩ := push?_eq_some h
  exact Vector.getElem?_set_ne hd (Nat.ne_of_gt hk)

theorem above_of_push? (h : base.push? address = some s) : s.Above base address := by
  refine ⟨?_, ?_, fun k hk => push?_slots h hk⟩
  · obtain ⟨_, rfl⟩ := push?_eq_some h
    exact Nat.lt_succ_self _
  · obtain ⟨hd, rfl⟩ := push?_eq_some h
    exact Vector.getElem?_set_self hd

theorem Above.of_push? (h : s.Above base address) (hp : s.push? pushed = some t) :
    t.Above base address := by
  refine ⟨?_, ?_, ?_⟩
  · obtain ⟨_, rfl⟩ := push?_eq_some hp
    exact Nat.lt_succ_of_lt h.depth_lt
  · rw [push?_slots hp h.depth_lt]
    exact h.slot_eq
  · intro k hk
    rw [push?_slots hp (Nat.lt_trans hk h.depth_lt)]
    exact h.below_eq k hk

/-- A pop takes something from above, or it takes the address itself. -/
theorem Above.of_pop? (h : s.Above base address) (hp : s.pop? = some (popped, t)) :
    t.Above base address ∨ (popped = address ∧ t.UnwoundTo base) := by
  obtain ⟨_, htop, rfl⟩ := pop?_eq_some hp
  by_cases hd : s.depth = base.depth + 1
  · have hslot : s.depth - 1 = base.depth := by omega
    rw [hslot, h.slot_eq] at htop
    exact Or.inr ⟨(Option.some.inj htop).symm, hslot, h.below_eq⟩
  · have hlt : base.depth < s.depth - 1 := by
      have := h.depth_lt
      omega
    exact Or.inl ⟨hlt, h.slot_eq, h.below_eq⟩

end CallStack

namespace Machine

/-- Whether an operation makes the machine return to `address`, onto the stack `base`. -/
structure ReturnsBy (m : Machine) (random : RandomBytes) (op : Operation) (base : CallStack)
    (address : UInt16) : Prop where
  op_eq : ∃ keys, op = .step keys
  keyWait_eq : m.keyWait = none
  decode_eq : .decode (m.memory.word m.pc) = Instruction.ret
  pc_eq : (m.perform random op).machine.pc = address
  unwound : (m.perform random op).machine.stack.UnwoundTo base

theorem next_toNat (address : UInt16) : (next address).toNat = (address.toNat + 2) % 0x1000 := by
  simp only [next, UInt16.toNat_mod, UInt16.toNat_add, UInt16.reduceToNat]
  omega

variable {m : Machine} {base : CallStack} {address : UInt16}

theorem step_above (h : m.stack.Above base address) (keys : Keys) (random : RandomBytes) :
    (m.step keys random).machine.stack.Above base address ∨
    m.ReturnsBy random (.step keys) base address := by
  rcases m.step_stack keys random with hs | ⟨hw, hi, hs⟩ | ⟨_, _, _, hs⟩
  · exact Or.inl (hs ▸ h)
  · rcases h.of_pop? hs with ha | ⟨hpc, hu⟩
    · exact Or.inl ha
    · exact Or.inr ⟨⟨keys, rfl⟩, hw, hi, hpc, hu⟩
  · exact Or.inl (h.of_push? hs)

/-- An operation stays above the call or returns from it. -/
theorem perform_above (h : m.stack.Above base address) (random : RandomBytes) {op : Operation}
    (hop : ∀ memory, op ≠ .reset memory) :
    (m.perform random op).machine.stack.Above base address ∨
    m.ReturnsBy random op base address := by
  cases op with
  | step keys => exact step_above h keys random
  | reset memory => exact absurd rfl (hop memory)
  | tick | clearDirty | clearScreen | drawSprite => exact Or.inl h
  | setPixel x y on =>
    simp only [perform]
    split
    · exact Or.inl h
    · exact Or.inl h

/-- A session that is never back at the depth before the call stays above the call. -/
theorem after_above (h : m.stack.Above base address) (random : RandomBytes) {ops : List Operation}
    (hops : ∀ memory, .reset memory ∉ ops)
    (hdeep : ∀ n, n ≤ ops.length → (m.after random (ops.take n)).stack.depth ≠ base.depth) :
    (m.after random ops).stack.Above base address := by
  induction ops generalizing m with
  | nil => exact h
  | cons op ops ih =>
    have hop : ∀ memory, op ≠ .reset memory :=
      fun memory he => hops memory (List.mem_cons.mpr (Or.inl he.symm))
    rcases perform_above h random hop with ha | hr
    · apply ih ha
      · exact fun memory hm => hops memory (List.mem_cons_of_mem op hm)
      · intro n hn
        exact hdeep (n + 1) (Nat.succ_le_succ hn)
    · have hfirst := hdeep 1 (Nat.succ_le_succ (Nat.zero_le _))
      exact absurd hr.unwound.depth_eq hfirst

end Machine

/-- After a call that found room, the first operation that brings the stack back to the depth before
the call returns to the instruction after the call, onto the stack before the call. -/
theorem call_returns {m : Machine} {target : UInt16} (hw : m.keyWait = none)
    (hd : m.stack.depth < stackSize) (hi : .decode (m.memory.word m.pc) = Instruction.call target)
    (keys : Keys) (random : RandomBytes) {ops : List Machine.Operation} {last : Machine.Operation}
    (hops : ∀ memory, .reset memory ∉ ops ++ [last])
    (hdeep : ∀ n, n ≤ ops.length →
      ((m.step keys random).machine.after random (ops.take n)).stack.depth ≠ m.stack.depth)
    (hlast : ((m.step keys random).machine.after random (ops ++ [last])).stack.depth =
      m.stack.depth) :
    ((m.step keys random).machine.after random ops).ReturnsBy random last m.stack
      (Machine.next m.pc) ∧
    ((m.step keys random).machine.after random (ops ++ [last])).pc.toNat =
      (m.pc.toNat + 2) % 0x1000 := by
  have hcall : (m.step keys random).machine.stack.Above m.stack (Machine.next m.pc) := by
    rw [Machine.step_call keys random hw hi (CallStack.push?_eq_of_lt hd)]
    exact CallStack.above_of_push? (CallStack.push?_eq_of_lt hd)
  have hinside : ((m.step keys random).machine.after random ops).stack.Above m.stack
      (Machine.next m.pc) :=
    Machine.after_above hcall random
      (fun memory hm => hops memory (List.mem_append_left [last] hm)) hdeep
  have hlast' : ∀ memory, last ≠ .reset memory :=
    fun memory he => hops memory (List.mem_append_right ops (List.mem_singleton.mpr he.symm))
  rw [Machine.after_append] at hlast ⊢
  rcases Machine.perform_above hinside random hlast' with ha | hr
  · exact absurd hlast (Nat.ne_of_gt ha.depth_lt)
  · refine ⟨hr, ?_⟩
    rw [← Machine.next_toNat, ← hr.pc_eq]
    rfl

/-- A subroutine that calls another one, with a tick before the inner return. -/
theorem call_returns_of_nested :
    ∃ e events, Emulator.start #[0x22, 0x04, 0x12, 0x02, 0x22, 0x08, 0x00, 0xEE, 0x00, 0xEE] 0 =
        .ok (e, events) ∧
      (((e.machine.step (fun _ => false) fun _ => 0).machine.after (fun _ => 0)
        [.step fun _ => false, .tick, .step fun _ => false]).ReturnsBy (fun _ => 0)
        (.step fun _ => false) e.machine.stack (Machine.next e.machine.pc) ∧
      ((e.machine.step (fun _ => false) fun _ => 0).machine.after (fun _ => 0)
        ([.step fun _ => false, .tick, .step fun _ => false] ++ [.step fun _ => false])).pc.toNat =
        (e.machine.pc.toNat + 2) % 0x1000) :=
  ⟨_, _, rfl, @call_returns _ 0x204 rfl (by decide) (by decide +kernel) _ _ _ _ (by simp)
    (by decide +kernel) (by decide +kernel)⟩

end Chip8
