import Chip8.Proofs.Timekeeping

/-!
# Waiting for a key

A wait of any length. As long as no key of the pad is held, steps leave the machine as it is and only ticks
go on. The first step that finds a key takes the lowest one, and the step after it executes the instruction
that the machine stood before all the time. Keys beyond the sixteen of the pad count for nothing. That a
wait ends is not said: a key may never be held.
-/

namespace Chip8
set_option autoImplicit false

/-- The key is the lowest of the keys of the pad that are held. -/
structure Keys.Lowest (keys : Keys) (key : UInt8) : Prop where
  lt : key < 16
  held : keys key = true
  below : ∀ k < key, keys k = false

/-- No key of the pad is held; others may be. -/
def Keys.Idle (keys : Keys) : Prop := ∀ key < 16, keys key = false

namespace Machine

theorem find?_padKeys_eq_some {keys : Keys} {key : UInt8} :
    padKeys.find? keys = some key ↔ keys.Lowest key := by
  rw [padKeys, List.find?_map, Option.map_eq_some_iff]
  constructor
  · rintro ⟨n, hn, rfl⟩
    obtain ⟨hheld, hmem, hbelow⟩ := List.find?_range_eq_some.mp hn
    have hlt : n < 16 := List.mem_range.mp hmem
    have hnat : (UInt8.ofNat n).toNat = n := UInt8.toNat_ofNat_of_lt (Nat.lt_trans hlt (by decide))
    refine ⟨?_, hheld, ?_⟩
    · rw [UInt8.lt_iff_toNat_lt, hnat]
      exact hlt
    · intro k hk
      rw [UInt8.lt_iff_toNat_lt, hnat] at hk
      simpa using hbelow k.toNat hk
  · intro h
    refine ⟨key.toNat, List.find?_range_eq_some.mpr ⟨?_, ?_, ?_⟩, UInt8.ofNat_toNat⟩
    · simpa using h.held
    · exact List.mem_range.mpr (UInt8.lt_iff_toNat_lt.mp h.lt)
    · intro n hn
      have hnat : (UInt8.ofNat n).toNat = n :=
        UInt8.toNat_ofNat_of_lt (Nat.lt_trans hn key.toNat_lt)
      have hbelow := h.below (UInt8.ofNat n) (by rwa [UInt8.lt_iff_toNat_lt, hnat])
      simpa using hbelow

theorem find?_padKeys_eq_none {keys : Keys} : padKeys.find? keys = none ↔ keys.Idle := by
  rw [padKeys, List.find?_map, Option.map_eq_none_iff, List.find?_range_eq_none]
  constructor
  · intro h key hkey
    simpa using h key.toNat (UInt8.lt_iff_toNat_lt.mp hkey)
  · intro h n hn
    have hnat : (UInt8.ofNat n).toNat = n := UInt8.toNat_ofNat_of_lt (Nat.lt_trans hn (by decide))
    have hidle := h (UInt8.ofNat n) (by rwa [UInt8.lt_iff_toNat_lt, hnat])
    simpa using hidle

theorem idle_or_lowest (keys : Keys) : keys.Idle ∨ ∃ key, keys.Lowest key := by
  cases hfind : padKeys.find? keys with
  | none => exact Or.inl (find?_padKeys_eq_none.mp hfind)
  | some key => exact Or.inr ⟨key, find?_padKeys_eq_some.mp hfind⟩

theorem exists_lowest_iff {keys : Keys} :
    (∃ key, keys.Lowest key) ↔ ∃ key, key < 16 ∧ keys key = true := by
  constructor
  · rintro ⟨key, hkey⟩
    exact ⟨key, hkey.lt, hkey.held⟩
  · rintro ⟨key, hlt, hheld⟩
    rcases idle_or_lowest keys with hidle | hlowest
    · rw [hidle key hlt] at hheld
      contradiction
    · exact hlowest

section Step
variable {m : Machine} {x : UInt8} {keys : Keys} (hw : m.keyWait = some x) (random : RandomBytes)
include hw

theorem step_idle (h : keys.Idle) : (m.step keys random).machine = m := by
  rw [step_waiting keys random hw, poll, find?_padKeys_eq_none.mpr h]

theorem step_lowest {key : UInt8} (h : keys.Lowest key) :
    (m.step keys random).machine = { m with v := m.v.set x key, keyWait := none } := by
  rw [step_waiting keys random hw, poll, find?_padKeys_eq_some.mpr h]

theorem step_ends_wait_iff :
    (m.step keys random).machine.keyWait = none ↔ ∃ key, key < 16 ∧ keys key = true := by
  rw [← exists_lowest_iff]
  constructor
  · intro hends
    rcases idle_or_lowest keys with hidle | hlowest
    · rw [step_idle hw random hidle, hw] at hends
      contradiction
    · exact hlowest
  · rintro ⟨key, hkey⟩
    rw [step_lowest hw random hkey]

end Step

def ticked (m : Machine) (n : Nat) : Machine :=
  { m with
    delay := ⟨UInt8.ofNat (m.delay.value.toNat - n)⟩
    sound := ⟨UInt8.ofNat (m.sound.value.toNat - n)⟩ }

@[simp] theorem ticked_zero (m : Machine) : m.ticked 0 = m := by
  simp [ticked]

theorem ticked_tick (m : Machine) (n : Nat) : m.tick.ticked n = m.ticked (n + 1) := by
  simp only [ticked, tick, Timer.tick_toNat, Nat.sub_sub, Nat.add_comm 1 n]

def Operation.Idle : Operation → Prop
  | .step keys => keys.Idle
  | .tick => True
  | _ => False

def Operation.isTick : Operation → Bool
  | .tick => true
  | _ => false

theorem after_idle {m : Machine} {x : UInt8} (hw : m.keyWait = some x) (random : RandomBytes)
    {ops : List Operation} (hops : ∀ op ∈ ops, op.Idle) :
    m.after random ops = m.ticked (ops.countP Operation.isTick) := by
  induction ops generalizing m with
  | nil => exact m.ticked_zero.symm
  | cons op ops ih =>
    rw [List.forall_mem_cons] at hops
    obtain ⟨hop, hrest⟩ := hops
    cases op with
    | step keys =>
      rw [after_cons, perform, step_idle hw random hop, ih hw hrest,
        List.countP_cons_of_neg (by simp [Operation.isTick])]
    | tick =>
      have hafter := ih (m := m.tick) hw hrest
      rw [ticked_tick] at hafter
      rw [after_cons, perform, hafter, List.countP_cons_of_pos rfl]
    | _ => exact absurd hop id

end Machine

/-- A machine that waits for a key is, after steps that find no key of the pad and any ticks between them,
what the ticks alone make of it. The next step ends the wait exactly if a key of the pad is held: then it
puts the lowest one into the register and changes nothing else, and the step after it, with or without
ticks between them, executes the instruction at the address at which the machine has waited. -/
theorem wait_takes_lowest_key {m : Machine} {x : UInt8} (hw : m.keyWait = some x)
    (random : RandomBytes) {ops : List Machine.Operation} (hops : ∀ op ∈ ops, op.Idle) :
    let waited := m.ticked (ops.countP Machine.Operation.isTick)
    m.after random ops = waited ∧
    ∀ keys,
      ((waited.step keys random).machine.keyWait = none ↔ ∃ key, key < 16 ∧ keys key = true) ∧
      ((∃ key, key < 16 ∧ keys key = true) → ∃ key, keys.Lowest key ∧
        let resumed := { waited with v := waited.v.set x key, keyWait := none }
        (waited.step keys random).machine = resumed ∧ resumed.v.get x = key ∧
        ∀ n keys', (resumed.ticked n).step keys' random =
          let o := { resumed.ticked n with pc := Machine.next m.pc }.execute keys' random
            (.decode (m.memory.word m.pc))
          { o with events := .fetched m.pc (m.memory.word m.pc) :: o.events }) := by
  intro waited
  have hwaited : waited.keyWait = some x := hw
  refine ⟨Machine.after_idle hw random hops, ?_⟩
  intro keys
  refine ⟨Machine.step_ends_wait_iff hwaited random, ?_⟩
  intro hheld
  obtain ⟨key, hkey⟩ := Machine.exists_lowest_iff.mpr hheld
  refine ⟨key, hkey, Machine.step_lowest hwaited random hkey, Registers.get_set .., ?_⟩
  intro n keys'
  exact Machine.step_fetching keys' random rfl

/-- Waits for a key to be put into V3, before an instruction that adds 1 to it. -/
def standing : Machine :=
  { Machine.start (Memory.blank.store 0x202 [0x73, 0x01]) 0 with
    pc := 0x202, keyWait := some 3, delay := ⟨2⟩, sound := ⟨7⟩ }

/-- Three ticks, with a key beyond the pad held all the time. -/
def longWait : List Machine.Operation :=
  let step := .step fun key => key == 200
  [step, .tick, step, step, .tick, .tick]

def lateKeys : Keys := fun key => key == 200 || key == 12 || key == 9

theorem wait_takes_lowest_key_of_standing :
    standing.keyWait = some 3 ∧ (∀ op ∈ longWait, op.Idle) ∧
      standing.after (fun _ => 0) longWait = standing.ticked 3 ∧ lateKeys.Lowest 9 ∧
      ((standing.ticked 3).step lateKeys fun _ => 0).machine =
        { standing.ticked 3 with v := (standing.ticked 3).v.set 3 9, keyWait := none } := by
  have hidle : ∀ op ∈ longWait, op.Idle := by
    have hkeys : Keys.Idle fun key => key == 200 := by
      intro key hkey
      have hne : key ≠ 200 := by
        rintro rfl
        exact absurd hkey (by decide)
      simpa using hne
    simp [longWait, Machine.Operation.Idle, hkeys]
  obtain ⟨hwaited, hstep⟩ := wait_takes_lowest_key (m := standing) rfl (fun _ => 0) hidle
  obtain ⟨key, hkey, hresumed, _⟩ := (hstep lateKeys).2 ⟨9, by decide, by decide⟩
  have hfind : Machine.padKeys.find? lateKeys = some 9 := by decide
  obtain rfl := Option.some.inj ((Machine.find?_padKeys_eq_some.mpr hkey).symm.trans hfind)
  exact ⟨rfl, hidle, hwaited, hkey, hresumed⟩

end Chip8
