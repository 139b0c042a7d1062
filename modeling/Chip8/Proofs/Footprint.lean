import Chip8.Proofs.Effects

/-!
# The footprint of a step

A machine in its parts, down to single registers and single cells of memory, and for every
instruction the parts that it may write. A step changes nothing else: a running machine its program
counter and what its instruction writes, a waiting one the wait and the awaited register, and these
only when a key is held. Whether a part of the footprint does change is not said.
-/

namespace Chip8
set_option autoImplicit false

inductive Part where
  | register (r : Fin 16)
  | index
  | pc
  | stack
  | cell (k : Fin memorySize)
  | screen
  | delay
  | sound
  | keyWait
  | draws
  deriving DecidableEq

namespace Part

def v (r : UInt8) : Part := register (Registers.slot r)

def byte (address : UInt16) : Part := cell (Memory.cell address)

/-- The part is in `m'` what it is in `m`. -/
def Same (part : Part) (m m' : Machine) : Prop :=
  match part with
  | register r => m'.v.cells.get r = m.v.cells.get r
  | index => m'.i = m.i
  | pc => m'.pc = m.pc
  | stack => m'.stack = m.stack
  | cell k => m'.memory.cells.get k = m.memory.cells.get k
  | screen => m'.screen = m.screen
  | delay => m'.delay = m.delay
  | sound => m'.sound = m.sound
  | keyWait => m'.keyWait = m.keyWait
  | draws => m'.draws = m.draws

theorem same_refl (part : Part) (m : Machine) : part.Same m m := by
  cases part <;> rfl

theorem same_trans (part : Part) {m m' m'' : Machine} (h : part.Same m m') (h' : part.Same m' m'') :
    part.Same m m'' := by
  cases part <;> exact h'.trans h

end Part

/-- The parts that an instruction may write, apart from the program counter, when the index register
holds `index`. -/
def Instruction.writes (index : UInt16) : Instruction → List Part
  | jump _ | jumpOffset _ | unknown _ => []
  | skipEqByte _ _ | skipNeByte _ _ | skipEq _ _ | skipNe _ _ | skipKeyDown _ | skipKeyUp _ => []
  | clear => [.screen]
  | ret | call _ => [.stack]
  | loadByte x _ | addByte x _ | move x _ | or x _ | and x _ | xor x _ | readDelay x => [.v x]
  | add x _ | sub x _ | subFrom x _ | shiftRight x _ | shiftLeft x _ => [.v x, .v 0xF]
  | random x _ => [.v x, .draws]
  | draw _ _ _ => [.screen, .v 0xF]
  | loadIndex _ | addIndex _ | loadGlyph _ => [.index]
  | setDelay _ => [.delay]
  | setSound _ => [.sound]
  | awaitKey _ => [.keyWait]
  | storeDecimal _ => (List.range 3).map fun k => .byte (index + UInt16.ofNat k)
  | storeRegisters x => (List.range (x.toNat + 1)).map fun k => .byte (index + UInt16.ofNat k)
  | loadRegisters x => (List.range (x.toNat + 1)).map fun r => .v (UInt8.ofNat r)

def Machine.footprint (m : Machine) (keys : Keys) : List Part :=
  match m.keyWait with
  | some x => if padKeys.any keys then [.keyWait, .v x] else []
  | none => .pc :: (Instruction.decode (m.memory.word m.pc)).writes m.i

theorem Memory.write_get {m : Memory} {address : UInt16} {k : Fin memorySize}
    (h : k ≠ cell address) (value : UInt8) : (m.write address value).cells.get k = m.cells.get k := by
  have hne : (cell address).1 ≠ k.1 := fun he => h (Fin.ext he.symm)
  exact Vector.getElem_set_ne (cell address).2 k.2 hne

theorem Memory.store_get {m : Memory} {address : UInt16} {bytes : List UInt8} {k : Fin memorySize}
    (h : ∀ j < bytes.length, k ≠ cell (address + UInt16.ofNat j)) :
    (m.store address bytes).cells.get k = m.cells.get k := by
  induction bytes generalizing m address with
  | nil => rfl
  | cons b bytes ih =>
    have hfirst : k ≠ cell address := by
      simpa using h 0 (Nat.succ_pos _)
    rw [store, ih, write_get hfirst]
    intro j hj
    have hnext := h (j + 1) (Nat.succ_lt_succ hj)
    rwa [Nat.add_comm j 1, UInt16.ofNat_add, ← UInt16.add_assoc] at hnext

@[simp] theorem Memory.slice_length (m : Memory) (address : UInt16) (count : Nat) :
    (m.slice address count).length = count := by
  simp [slice]

theorem Registers.set_get {v : Registers} {r : UInt8} {k : Fin 16} (h : k ≠ slot r) (value : UInt8) :
    (v.set r value).cells.get k = v.cells.get k := by
  have hne : (slot r).1 ≠ k.1 := fun he => h (Fin.ext he.symm)
  exact Vector.getElem_set_ne (slot r).2 k.2 hne

@[simp] theorem Registers.get_set (v : Registers) (r value : UInt8) : (v.set r value).get r = value :=
  Vector.getElem_set_self (slot r).2

theorem Registers.slot_inj {r s : UInt8} (hr : r.toNat < 16) (hs : s.toNat < 16)
    (h : slot r = slot s) : r = s := by
  have hval : r.toNat % 16 = s.toNat % 16 := congrArg Fin.val h
  rw [Nat.mod_eq_of_lt hr, Nat.mod_eq_of_lt hs] at hval
  exact UInt8.toNat_inj.mp hval

theorem Registers.setFrom_get {v : Registers} {first : UInt8} {bytes : List UInt8} {k : Fin 16}
    (h : ∀ j < bytes.length, k ≠ slot (first + UInt8.ofNat j)) :
    (v.setFrom first bytes).cells.get k = v.cells.get k := by
  induction bytes generalizing v first with
  | nil => rfl
  | cons b bytes ih =>
    have hfirst : k ≠ slot first := by
      simpa using h 0 (Nat.succ_pos _)
    rw [setFrom, ih, set_get hfirst]
    intro j hj
    have hnext := h (j + 1) (Nat.succ_lt_succ hj)
    rwa [Nat.add_comm j 1, UInt8.ofNat_add, ← UInt8.add_assoc] at hnext

@[simp] theorem Registers.upTo_length (v : Registers) (last : UInt8) :
    (v.upTo last).length = last.toNat + 1 := by
  simp [upTo]

namespace Machine

/-- There is nothing to a machine besides its parts. -/
theorem eq_of_same {m m' : Machine} (h : ∀ part : Part, part.Same m m') : m' = m := by
  have hv : m'.v = m.v := by
    apply congrArg Registers.mk
    apply Vector.ext
    intro r hr
    exact h (.register ⟨r, hr⟩)
  have hmemory : m'.memory = m.memory := by
    apply congrArg Memory.mk
    apply Vector.ext
    intro k hk
    exact h (.cell ⟨k, hk⟩)
  have hi : m'.i = m.i := h .index
  have hpc : m'.pc = m.pc := h .pc
  have hstack : m'.stack = m.stack := h .stack
  have hscreen : m'.screen = m.screen := h .screen
  have hdelay : m'.delay = m.delay := h .delay
  have hsound : m'.sound = m.sound := h .sound
  have hwait : m'.keyWait = m.keyWait := h .keyWait
  have hdraws : m'.draws = m.draws := h .draws
  cases m
  cases m'
  simp_all

variable {m : Machine} {part : Part}

theorem goto_same (address : UInt16) (h : part ≠ .pc) : part.Same m { m with pc := address } := by
  cases part with
  | pc => exact absurd rfl h
  | _ => rfl

theorem skipIf_same (condition : Bool) (h : part ≠ .pc) : part.Same m (m.skipIf condition) := by
  cases condition with
  | false => exact part.same_refl m
  | true => exact goto_same _ h

theorem setV_same {x : UInt8} (value : UInt8) (h : part ≠ .v x) : part.Same m (m.setV x value) := by
  cases part with
  | register r =>
    apply Registers.set_get
    intro hr
    exact h (congrArg Part.register hr)
  | _ => rfl

theorem setFlagged_same {x : UInt8} (flag : Bool) (value : UInt8) (h : part ≠ .v x)
    (hflag : part ≠ .v 0xF) : part.Same m (m.setFlagged flag x value) := by
  cases part with
  | register r =>
    have hlast := setV_same (m := m.setV 0xF flag.toUInt8) value h
    exact hlast.trans (setV_same flag.toUInt8 hflag)
  | _ => rfl

theorem store_same {address : UInt16} {bytes : List UInt8}
    (h : part ∉ (List.range bytes.length).map fun k => .byte (address + UInt16.ofNat k)) :
    part.Same m { m with memory := m.memory.store address bytes } := by
  cases part with
  | cell k =>
    apply Memory.store_get
    intro j hj hk
    apply h
    rw [hk]
    exact List.mem_map.mpr ⟨j, List.mem_range.mpr hj, rfl⟩
  | _ => rfl

theorem setFrom_same {bytes : List UInt8}
    (h : part ∉ (List.range bytes.length).map fun r => .v (UInt8.ofNat r)) :
    part.Same m { m with v := m.v.setFrom 0 bytes } := by
  cases part with
  | register r =>
    apply Registers.setFrom_get
    intro j hj hr
    apply h
    rw [hr, UInt8.zero_add]
    exact List.mem_map.mpr ⟨j, List.mem_range.mpr hj, rfl⟩
  | _ => rfl

theorem execute_same (keys : Keys) (random : RandomBytes) {i : Instruction} (hpc : part ≠ .pc)
    (h : part ∉ i.writes m.i) : part.Same m (m.execute keys random i).machine := by
  cases i with
  | skipEqByte | skipNeByte | skipEq | skipNe | skipKeyDown | skipKeyUp => exact skipIf_same _ hpc
  | jump | jumpOffset => exact goto_same _ hpc
  | unknown => exact part.same_refl m
  | loadByte | addByte | move | or | and | xor | readDelay =>
    exact setV_same _ (List.ne_of_not_mem_cons h)
  | add | sub | subFrom | shiftRight | shiftLeft =>
    have hflag := List.not_mem_of_not_mem_cons h
    exact setFlagged_same _ _ (List.ne_of_not_mem_cons h) (List.ne_of_not_mem_cons hflag)
  | clear | loadIndex | addIndex | loadGlyph | setDelay | setSound | awaitKey =>
    cases part <;> first | rfl | exact absurd List.mem_cons_self h
  | random =>
    cases part with
    | register r => exact setV_same _ (List.ne_of_not_mem_cons h)
    | draws => exact absurd List.mem_cons_self (List.not_mem_of_not_mem_cons h)
    | _ => rfl
  | draw =>
    cases part with
    | register r => exact setV_same _ (List.ne_of_not_mem_cons (List.not_mem_of_not_mem_cons h))
    | screen => exact absurd List.mem_cons_self h
    | _ => rfl
  | ret =>
    simp only [execute]
    split
    · cases part <;> first | rfl | exact absurd rfl hpc | exact absurd List.mem_cons_self h
    · exact part.same_refl m
  | call =>
    simp only [execute]
    split
    · cases part <;> first | rfl | exact absurd rfl hpc | exact absurd List.mem_cons_self h
    · exact goto_same _ hpc
  | storeDecimal => exact store_same h
  | storeRegisters => exact store_same (by rwa [Registers.upTo_length])
  | loadRegisters => exact setFrom_same (by rwa [Memory.slice_length])

theorem poll_same {keys : Keys} {x : UInt8}
    (h : part ∉ if padKeys.any keys then [.keyWait, .v x] else []) :
    part.Same m (m.poll keys x).machine := by
  unfold poll
  split
  · rename_i key hfind
    have hheld : padKeys.any keys = true :=
      List.any_eq_true.mpr ⟨key, List.mem_of_find?_eq_some hfind, List.find?_some hfind⟩
    rw [if_pos hheld] at h
    cases part with
    | register r => exact setV_same _ (List.ne_of_not_mem_cons (List.not_mem_of_not_mem_cons h))
    | keyWait => exact absurd List.mem_cons_self h
    | _ => rfl
  · exact part.same_refl m

theorem obey_same (keys : Keys) (random : RandomBytes) {i : Instruction} (hpc : part ≠ .pc)
    (h : part ∉ i.writes m.i) : part.Same m (m.obey keys random i) := by
  have hsame := execute_same (m := { m with pc := next m.pc }) keys random hpc h
  cases part with
  | pc => exact absurd rfl hpc
  | _ => exact hsame

theorem step_same {keys : Keys} (random : RandomBytes) (h : part ∉ m.footprint keys) :
    part.Same m (m.step keys random).machine := by
  cases hw : m.keyWait with
  | some x =>
    simp only [footprint, hw] at h
    rw [step_waiting keys random hw]
    exact poll_same h
  | none =>
    simp only [footprint, hw] at h
    rw [step_obeys keys random (upcoming_eq_some.mpr ⟨hw, rfl⟩)]
    exact obey_same keys random (List.ne_of_not_mem_cons h) (List.not_mem_of_not_mem_cons h)

/-- A part that no wait concerns is only changed by an instruction that may write it. -/
theorem step_same_of_upcoming (hpc : part ≠ .pc) (hwait : part ≠ .keyWait) (hv : ∀ x, part ≠ .v x)
    (h : ∀ i, m.upcoming = some i → part ∉ i.writes m.i) (keys : Keys) (random : RandomBytes) :
    part.Same m (m.step keys random).machine := by
  apply step_same
  cases hw : m.keyWait with
  | some x =>
    simp only [footprint, hw]
    split
    · simp [hwait, hv x]
    · exact List.not_mem_nil
  | none =>
    simp only [footprint, hw]
    exact List.not_mem_cons_of_ne_of_not_mem hpc (h _ (upcoming_eq_some.mpr ⟨hw, rfl⟩))

end Machine

/-- A step changes no part of a machine outside its footprint, and there is nothing to a machine besides
its parts. -/
theorem step_footprint (m : Machine) (keys : Keys) (random : RandomBytes) :
    (∀ part, part ∈ m.footprint keys ∨ part.Same m (m.step keys random).machine) ∧
    ∀ m', (∀ part, Part.Same part m m') ↔ m' = m := by
  constructor
  · intro part
    by_cases hpart : part ∈ m.footprint keys
    · exact Or.inl hpart
    · exact Or.inr (Machine.step_same random hpart)
  · intro m'
    constructor
    · exact Machine.eq_of_same
    · rintro rfl part
      exact part.same_refl m'

/-- Near the end of memory the three digits of FX33 go to two cells. -/
example : (Instruction.decode 0xF033).writes 0xFFE =
    [.cell ⟨4094, by decide⟩, .cell ⟨0, by decide⟩, .cell ⟨0, by decide⟩] := by
  decide

end Chip8
