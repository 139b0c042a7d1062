import Chip8.Proofs.LatestWrite
import Chip8.Proofs.Session

/-!
# The bits of the index register

The index register has sixteen bits and an address twelve. Instructions add to the register and count on from
what is in it, but the sum is only ever used as an address, so two machines that differ in the upper four bits
of the register do the same in every session. How these bits differ on the way is not said; they agree once
the register is loaded.
-/

namespace Chip8
set_option autoImplicit false

theorem add_congr_low {a b : UInt16} (h : b % 0x1000 = a % 0x1000) (c : UInt16) :
    (b + c) % 0x1000 = (a + c) % 0x1000 := by
  have hnat := congrArg UInt16.toNat h
  apply UInt16.toNat_inj.mp
  simp only [UInt16.toNat_mod, UInt16.toNat_add, UInt16.reduceToNat] at hnat ⊢
  omega

namespace Memory
variable {a b : UInt16} (h : b % 0x1000 = a % 0x1000) (m : Memory)
include h

theorem cell_congr (c : UInt16) : cell (b + c) = cell (a + c) :=
  cell_eq_iff.mpr (Or.inl (add_congr_low h c))

theorem slice_congr (count : Nat) : m.slice b count = m.slice a count := by
  unfold slice
  apply List.map_congr_left
  intro k _
  rw [read, read, cell_congr h]

theorem write_congr (value : UInt8) : m.write b value = m.write a value := by
  have hcell : cell b = cell a := cell_eq_iff.mpr (Or.inl h)
  rw [write, write]
  simp only [hcell]

theorem store_congr (bytes : List UInt8) : m.store b bytes = m.store a bytes := by
  induction bytes generalizing m a b with
  | nil => rfl
  | cons byte bytes ih =>
    rw [store, store, write_congr h]
    exact ih (add_congr_low h 1) _

end Memory

namespace Machine

/-- The same machine but for the upper four bits of the index register. -/
structure Congruent (m m' : Machine) : Prop where
  index_eq : m'.i % 0x1000 = m.i % 0x1000
  rest_eq : m' = { m with i := m'.i }

def reindexed (m : Machine) (index : UInt16) : Machine := { m with i := index }

theorem reindexed_aside (index : UInt16) : Aside fun m => m.reindexed index where
  keyWait_eq := fun _ => rfl
  memory_eq := fun _ => rfl
  stack_eq := fun _ => rfl
  goto := fun _ _ => rfl
  unwind := fun _ _ _ => rfl
  resume := fun _ _ _ => rfl

theorem Congruent.refl (m : Machine) : m.Congruent m := ⟨rfl, rfl⟩

theorem Outcome.alike_refl (o : Outcome) : o.Alike Congruent o := ⟨.refl _, rfl, rfl⟩

theorem Outcome.alike_reindexed {o : Outcome} {index : UInt16}
    (h : index % 0x1000 = o.machine.i % 0x1000) :
    o.Alike Congruent (o.map fun m => m.reindexed index) :=
  ⟨⟨h, rfl⟩, rfl, rfl⟩

section Execute
variable {m : Machine} {index : UInt16} (h : index % 0x1000 = m.i % 0x1000) (keys : Keys)
  (random : RandomBytes)
include h

/-- An instruction that does not write the register uses it as an address or not at all. -/
theorem execute_reindexed {i : Instruction} (hi : .index ∉ i.writes m.i) :
    (m.reindexed index).execute keys random i =
      (m.execute keys random i).map fun m => m.reindexed index := by
  cases i with
  | loadIndex | addIndex | loadGlyph => exact absurd List.mem_cons_self hi
  | skipEqByte | skipNeByte | skipEq | skipNe | skipKeyDown | skipKeyUp =>
    simp only [execute, (reindexed_aside index).skipIf]
    rfl
  | ret => exact (reindexed_aside index).ret m keys random _
  | call a => exact (reindexed_aside index).call m keys random _ a
  | draw x y n | loadRegisters x =>
    simp only [execute, reindexed, Memory.slice_congr h]
    rfl
  | storeDecimal x | storeRegisters x =>
    simp only [execute, reindexed, Memory.store_congr h]
    rfl
  | _ => rfl

theorem execute_congruent (i : Instruction) :
    (m.execute keys random i).Alike Congruent ((m.reindexed index).execute keys random i) := by
  by_cases hi : .index ∈ i.writes m.i
  · cases i with
    | loadIndex a => exact Outcome.alike_refl _
    | loadGlyph x => exact Outcome.alike_refl _
    | addIndex x => exact ⟨⟨add_congr_low h _, rfl⟩, rfl, rfl⟩
    | _ => simp [Instruction.writes, Part.v, Part.byte] at hi
  · have hkept : (m.execute keys random i).machine.i = m.i := execute_same keys random (by simp) hi
    rw [execute_reindexed h keys random hi]
    apply Outcome.alike_reindexed
    rwa [hkept]

theorem step_reindexed :
    (m.step keys random).Alike Congruent ((m.reindexed index).step keys random) := by
  cases hw : m.keyWait with
  | some x =>
    have hw' : (m.reindexed index).keyWait = some x := hw
    have hpoll : (m.reindexed index).poll keys x =
        (m.poll keys x).map fun m => m.reindexed index := (reindexed_aside index).poll m keys x
    have hkept : (m.poll keys x).machine.i = m.i := by
      rcases m.poll_machine keys x with hp | ⟨key, hp⟩
      · rw [hp]
      · rw [hp]
    rw [step_waiting keys random hw, step_waiting keys random hw', hpoll]
    apply Outcome.alike_reindexed
    rwa [hkept]
  | none =>
    have hw' : (m.reindexed index).keyWait = none := hw
    have hexecuted := execute_congruent (m := { m with pc := next m.pc }) h keys random
      (.decode (m.memory.word m.pc))
    rw [step_fetching keys random hw, step_fetching keys random hw']
    exact ⟨hexecuted.machine, hexecuted.polled_eq,
      congrArg (.fetched m.pc (m.memory.word m.pc) :: ·) hexecuted.events_eq⟩

end Execute

theorem perform_reindexed {m : Machine} {index : UInt16} (h : index % 0x1000 = m.i % 0x1000)
    (random : RandomBytes) (op : Operation) :
    (m.perform random op).Alike Congruent ((m.reindexed index).perform random op) := by
  cases op with
  | step keys => exact step_reindexed h keys random
  | reset memory => exact Outcome.alike_refl _
  | setPixel x y on =>
    have hscreen : (m.reindexed index).screen.setPixel x y on = m.screen.setPixel x y on := rfl
    simp only [perform, hscreen]
    cases m.screen.setPixel x y on with
    | ok screen => exact ⟨⟨h, rfl⟩, rfl, rfl⟩
    | error cause => exact ⟨⟨h, rfl⟩, rfl, rfl⟩
  | _ => exact ⟨⟨h, rfl⟩, rfl, rfl⟩

end Machine

/-- Two machines that differ at most in the upper four bits of the index register still do so, and in nothing
else, after every operation of a session, and have asked about the same keys and reported the same. -/
theorem index_seen_in_twelve_bits {m m' : Machine} (h : m.Congruent m') (random : RandomBytes)
    (ops : List Machine.Operation) :
    List.Forall₂ (Machine.Outcome.Alike Machine.Congruent) (m.outcomes random ops)
      (m'.outcomes random ops) := by
  apply Machine.outcomes_alike (S := Eq) _ h (List.forall₂_refl ops)
  rintro m m' op _ ⟨hindex, hrest⟩ rfl
  rw [hrest]
  exact Machine.perform_reindexed hindex random op

/-- Stores digits from the index register on, adds 0xFE to the register, draws, loads and stores from there. -/
def reaching (index : UInt16) : Machine :=
  let program := [0xF0, 0x33, 0xF0, 0x1E, 0xD0, 0x15, 0xF2, 0x65, 0xF3, 0x55]
  { Machine.start (Memory.blank.store 0x200 program) 0 with
    i := index, v := Registers.zero.set 0 0xFE }

def reachingSession : List Machine.Operation :=
  let step := .step fun _ => false
  [step, step, .tick, step, step, step]

theorem index_seen_in_twelve_bits_of_reaching :
    (reaching 0x0FFE).Congruent (reaching 0xFFFE) ∧
      ((reaching 0x0FFE).after (fun _ => 0) reachingSession).i = 0x10FC ∧
      ((reaching 0xFFFE).after (fun _ => 0) reachingSession).i = 0x00FC ∧
      List.Forall₂ (Machine.Outcome.Alike Machine.Congruent)
        ((reaching 0x0FFE).outcomes (fun _ => 0) reachingSession)
        ((reaching 0xFFFE).outcomes (fun _ => 0) reachingSession) := by
  have hcongruent : (reaching 0x0FFE).Congruent (reaching 0xFFFE) := ⟨by decide, rfl⟩
  exact ⟨hcongruent, by decide +kernel, by decide +kernel,
    index_seen_in_twelve_bits hcongruent _ reachingSession⟩

end Chip8
