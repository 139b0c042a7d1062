import Chip8.Proofs.Waiting

/-!
# Asking for keys

Which keys a step asks about, and in which order. A waiting machine asks about one key after the other up to
the first that is held; of the instructions only the two that skip on a key ask, about one key each. The
number of a key asked about is below sixteen, so keys beyond those of the pad make no difference in any
session. That the keys do not change within a step is taken for granted: no step asks about one twice.
-/

namespace Chip8
set_option autoImplicit false

/-- The sixteen keys of the pad are held in both or in neither. -/
def Keys.SamePad (keys keys' : Keys) : Prop := ∀ key < 16, keys' key = keys key

theorem Keys.SamePad.lowest {keys keys' : Keys} {key : UInt8} (h : keys.SamePad keys')
    (hkey : keys.Lowest key) : keys'.Lowest key where
  lt := hkey.lt
  held := (h key hkey.lt).trans hkey.held
  below := by
    intro k hk
    exact (h k (UInt8.lt_trans hk hkey.lt)).trans (hkey.below k hk)

theorem Keys.SamePad.idle {keys keys' : Keys} (h : keys.SamePad keys') (hidle : keys.Idle) :
    keys'.Idle := by
  intro key hkey
  exact (h key hkey).trans (hidle key hkey)

/-- The register with the number of the key that an instruction asks about. -/
def Instruction.keyRegister : Instruction → Option UInt8
  | skipKeyDown x | skipKeyUp x => some x
  | _ => none

namespace Machine

theorem low_digit_lt (value : UInt8) : value % 0x10 < 16 := UInt8.mod_lt value (by decide)

theorem lt_of_mem_padKeys {key : UInt8} (h : key ∈ padKeys) : key < 16 := by
  obtain ⟨n, hn, rfl⟩ := List.mem_map.mp h
  have hlt : n < 16 := List.mem_range.mp hn
  rw [UInt8.lt_iff_toNat_lt, UInt8.toNat_ofNat_of_lt' (Nat.lt_trans hlt (by decide))]
  exact hlt

theorem padKeys_split {key : UInt8} (h : key < 16) :
    ∃ above, padKeys = (List.range key.toNat).map UInt8.ofNat ++ key :: above := by
  obtain ⟨r, hr⟩ := Nat.exists_eq_add_of_lt (UInt8.lt_iff_toNat_lt.mp h)
  have hsixteen : 16 = key.toNat + (r + 1) := hr
  rw [padKeys, hsixteen, List.range_add, List.range_succ_eq_map, List.map_append]
  simp only [List.map_cons, Nat.add_zero, UInt8.ofNat_toNat]
  exact ⟨_, rfl⟩

theorem takeWhile_padKeys {keys : Keys} {key : UInt8} (h : keys.Lowest key) :
    padKeys.takeWhile (fun k => !keys k) ++ [key] =
      (List.range (key.toNat + 1)).map UInt8.ofNat := by
  obtain ⟨above, hsplit⟩ := padKeys_split h.lt
  have hbelow : ∀ k ∈ (List.range key.toNat).map UInt8.ofNat, (!keys k) = true := by
    intro k hk
    obtain ⟨n, hn, rfl⟩ := List.mem_map.mp hk
    have hlt : n < key.toNat := List.mem_range.mp hn
    have hnat : (UInt8.ofNat n).toNat = n :=
      UInt8.toNat_ofNat_of_lt (Nat.lt_trans hlt key.toNat_lt)
    rw [h.below _ (by rwa [UInt8.lt_iff_toNat_lt, hnat])]
    rfl
  rw [hsplit, List.takeWhile_append_of_pos hbelow, List.takeWhile_cons_of_neg (by simp [h.held]),
    List.append_nil, List.range_succ, List.map_append]
  simp

section Poll
variable (m : Machine) (x : UInt8) {keys keys' : Keys}

theorem poll_lowest {key : UInt8} (h : keys.Lowest key) : m.poll keys x =
    { machine := { m with v := m.v.set x key, keyWait := none }
      polled := (List.range (key.toNat + 1)).map UInt8.ofNat
      events := [.resumed key x] } := by
  rw [poll, find?_padKeys_eq_some.mpr h]
  simp only [takeWhile_padKeys h]

theorem poll_idle (h : keys.Idle) : m.poll keys x = { machine := m, polled := padKeys } := by
  rw [poll, find?_padKeys_eq_none.mpr h]

theorem poll_samePad (h : keys.SamePad keys') : m.poll keys' x = m.poll keys x := by
  rcases idle_or_lowest keys with hidle | ⟨key, hkey⟩
  · rw [poll_idle m x hidle, poll_idle m x (h.idle hidle)]
  · rw [poll_lowest m x hkey, poll_lowest m x (h.lowest hkey)]

theorem poll_polled_lt : ∀ key ∈ (m.poll keys x).polled, key < 16 := by
  intro key hkey
  rcases idle_or_lowest keys with hidle | ⟨lowest, hlowest⟩
  · rw [poll_idle m x hidle] at hkey
    exact lt_of_mem_padKeys hkey
  · rw [poll_lowest m x hlowest] at hkey
    obtain ⟨n, hn, rfl⟩ := List.mem_map.mp hkey
    have hlt := List.mem_range.mp hn
    have hle := UInt8.lt_iff_toNat_lt.mp hlowest.lt
    apply lt_of_mem_padKeys
    exact List.mem_map.mpr ⟨n, List.mem_range.mpr (Nat.lt_of_lt_of_le hlt hle), rfl⟩

end Poll

section Execute
variable (m : Machine) (random : RandomBytes) (i : Instruction) {keys keys' : Keys}

theorem execute_polled : (m.execute keys random i).polled =
    (i.keyRegister.map fun x => m.v.get x % 0x10).toList := by
  cases i with
  | ret =>
    simp only [execute]
    split <;> rfl
  | call a =>
    simp only [execute]
    split <;> rfl
  | _ => rfl

theorem execute_samePad (h : keys.SamePad keys') :
    m.execute keys' random i = m.execute keys random i := by
  cases i with
  | skipKeyDown x | skipKeyUp x => simp only [execute, h _ (low_digit_lt _)]
  | _ => rfl

end Execute

section Step
variable {m : Machine} (random : RandomBytes) {keys keys' : Keys}

theorem step_polled {i : Instruction} (h : m.upcoming = some i) :
    (m.step keys random).polled = (i.keyRegister.map fun x => m.v.get x % 0x10).toList := by
  rw [step_upcoming keys random h]
  exact execute_polled { m with pc := next m.pc } random i

variable (m)

theorem step_polled_lt : ∀ key ∈ (m.step keys random).polled, key < 16 := by
  intro key hkey
  cases hw : m.keyWait with
  | some x =>
    rw [step_waiting keys random hw] at hkey
    exact poll_polled_lt m x key hkey
  | none =>
    rw [step_polled random (upcoming_eq_some.mpr ⟨hw, rfl⟩), Option.mem_toList] at hkey
    obtain ⟨x, _, rfl⟩ := Option.map_eq_some_iff.mp hkey
    exact low_digit_lt _

theorem step_samePad (h : keys.SamePad keys') : m.step keys' random = m.step keys random := by
  cases hw : m.keyWait with
  | some x => rw [step_waiting keys' random hw, step_waiting keys random hw, poll_samePad m x h]
  | none =>
    rw [step_fetching keys' random hw, step_fetching keys random hw, execute_samePad _ random _ h]

end Step

/-- The same operation, with keypads that may differ beyond the keys of the pad. -/
inductive Operation.SamePad : Operation → Operation → Prop where
  | step {keys keys' : Keys} (h : keys.SamePad keys') : SamePad (.step keys) (.step keys')
  | refl (op : Operation) : SamePad op op

theorem perform_samePad {op op' : Operation} (h : op.SamePad op') (m : Machine)
    (random : RandomBytes) : m.perform random op' = m.perform random op := by
  cases h with
  | step h => exact step_samePad m random h
  | refl => rfl

theorem outcomes_samePad {ops ops' : List Operation} (h : List.Forall₂ Operation.SamePad ops ops')
    (m : Machine) (random : RandomBytes) : m.outcomes random ops' = m.outcomes random ops := by
  have hlike : List.Forall₂ (Outcome.Alike Eq) (m.outcomes random ops) (m.outcomes random ops') := by
    apply outcomes_alike (R := Eq) (S := Operation.SamePad) _ rfl h
    rintro m _ op op' rfl hop
    rw [perform_samePad hop]
    exact ⟨rfl, rfl, rfl⟩
  have heq : List.Forall₂ Eq (m.outcomes random ops) (m.outcomes random ops') := by
    apply hlike.imp
    intro o o' ho
    cases o
    cases o'
    obtain ⟨hmachine, hpolled, hevents⟩ := ho
    simp_all
  rw [List.forall₂_eq_eq_eq] at heq
  exact heq.symm

end Machine

/-- A waiting machine asks about the keys in order up to the lowest one held, or about all sixteen if none
is; EX9E and EXA1 ask about the key whose number is in the low four bits of the register, and no other
instruction asks. So only keys of the pad are asked about, and what is held beside them makes no difference
to the states, questions and reports of any session. -/
theorem keys_asked_for (m : Machine) (random : RandomBytes) :
    (∀ keys,
      (∀ x, m.keyWait = some x →
        (∀ key, keys.Lowest key →
          (m.step keys random).polled = (List.range (key.toNat + 1)).map UInt8.ofNat) ∧
        (keys.Idle → (m.step keys random).polled = (List.range 16).map UInt8.ofNat)) ∧
      (∀ x, m.upcoming = some (.skipKeyDown x) ∨ m.upcoming = some (.skipKeyUp x) →
        (m.step keys random).polled = [m.v.get x % 0x10]) ∧
      (∀ i, m.upcoming = some i → (∀ x, i ≠ .skipKeyDown x ∧ i ≠ .skipKeyUp x) →
        (m.step keys random).polled = []) ∧
      ∀ key ∈ (m.step keys random).polled, key < 16) ∧
    ∀ ops ops', List.Forall₂ Machine.Operation.SamePad ops ops' →
      m.outcomes random ops' = m.outcomes random ops := by
  refine ⟨?_, fun ops ops' h => Machine.outcomes_samePad h m random⟩
  intro keys
  refine ⟨?_, ?_, ?_, m.step_polled_lt random⟩
  · intro x hw
    constructor
    · intro key hkey
      rw [Machine.step_waiting keys random hw, Machine.poll_lowest m x hkey]
    · intro hidle
      rw [Machine.step_waiting keys random hw, Machine.poll_idle m x hidle]
      rfl
  · intro x hi
    rcases hi with hi | hi
    · exact Machine.step_polled random hi
    · exact Machine.step_polled random hi
  · intro i hi hother
    have hnone : i.keyRegister = none := by
      cases i with
      | skipKeyDown x => exact absurd rfl (hother x).1
      | skipKeyUp x => exact absurd rfl (hother x).2
      | _ => rfl
    rw [Machine.step_polled random hi, hnone]
    rfl

/-- Puts 0x2B into V5, skips unless the key of that number is held, and waits for a key to be put into V3. -/
def asking : Machine :=
  Machine.start (Memory.blank.store 0x200 [0x65, 0x2B, 0xE5, 0xA1, 0xF3, 0x0A]) 0

/-- The key B is held, and one more. -/
def heldWith (other : UInt8) : Keys := fun key => key == 0xB || key == other

def askingSession (other : UInt8) : List Machine.Operation :=
  let step := .step (heldWith other)
  [step, step, step, .tick, step]

theorem keys_asked_for_of_asking :
    List.Forall₂ Machine.Operation.SamePad (askingSession 43) (askingSession 200) ∧
      ((asking.outcomes (fun _ => 0) (askingSession 43)).map Machine.Outcome.polled) =
        [[], [0xB], [], [], (List.range 12).map UInt8.ofNat] ∧
      asking.outcomes (fun _ => 0) (askingSession 200) =
        asking.outcomes (fun _ => 0) (askingSession 43) ∧
      let skipping := asking.after (fun _ => 0) ((askingSession 43).take 1)
      let waiting := asking.after (fun _ => 0) ((askingSession 43).take 4)
      skipping.upcoming = some (.skipKeyUp 5) ∧
        (skipping.step (heldWith 43) fun _ => 0).polled = [skipping.v.get 5 % 0x10] ∧
        waiting.keyWait = some 3 ∧ (heldWith 43).Lowest 0xB ∧
        (waiting.step (heldWith 43) fun _ => 0).polled =
          (List.range ((0xB : UInt8).toNat + 1)).map UInt8.ofNat := by
  have hpad : ∀ other key : UInt8, 16 ≤ other → key < 16 → heldWith other key = (key == 0xB) := by
    intro other key hother hkey
    have hne : (key == other) = false := by
      rw [beq_eq_false_iff_ne]
      rintro rfl
      exact absurd hkey (UInt8.not_lt.mpr hother)
    rw [heldWith, hne, Bool.or_false]
  have hstep : Machine.Operation.SamePad (.step (heldWith 43)) (.step (heldWith 200)) := by
    apply Machine.Operation.SamePad.step
    intro key hkey
    rw [hpad 200 key (by decide) hkey, hpad 43 key (by decide) hkey]
  have hsame : List.Forall₂ Machine.Operation.SamePad (askingSession 43) (askingSession 200) :=
    .cons hstep (.cons hstep (.cons hstep (.cons (.refl _) (.cons hstep .nil))))
  have hlowest : (heldWith 43).Lowest 0xB := Machine.find?_padKeys_eq_some.mp (by decide)
  have hskip : (asking.after (fun _ => 0) ((askingSession 43).take 1)).upcoming =
      some (.skipKeyUp 5) := by decide +kernel
  have hwait : (asking.after (fun _ => 0) ((askingSession 43).take 4)).keyWait = some 3 := by
    decide +kernel
  refine ⟨hsame, by decide +kernel, (keys_asked_for asking fun _ => 0).2 _ _ hsame, hskip, ?_, hwait,
    hlowest, ?_⟩
  · exact ((keys_asked_for _ fun _ => 0).1 (heldWith 43)).2.1 5 (Or.inr hskip)
  · exact (((keys_asked_for _ fun _ => 0).1 (heldWith 43)).1 3 hwait).1 0xB hlowest

end Chip8
