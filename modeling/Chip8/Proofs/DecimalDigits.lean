import Chip8.Proofs.Transfers

/-!
# Decimal digits read back

FX33 stores the three decimal digits of a register and F265 loads them into V0, V1 and V2. As memory has one
cell less than there are addresses, a digit stored at 0xFFF gives way to the next one, stored at the address
after it. The digits are read back exactly unless the two differ, and then the number they make is another one.
-/

namespace Chip8
set_option autoImplicit false

/-- A number below a thousand by its decimal digits. -/
structure Decimal (n hundreds tens units : Nat) : Prop where
  hundreds_le : hundreds ≤ 9
  tens_le : tens ≤ 9
  units_le : units ≤ 9
  sum_eq : n = 100 * hundreds + 10 * tens + units

namespace Machine

theorem decimalDigits_toNat {value : UInt8} {h t u : Nat} (d : Decimal value.toNat h t u) :
    (decimalDigits value).map UInt8.toNat = [h, t, u] := by
  obtain ⟨hh, ht, hu, hsum⟩ := d
  have hundreds : (value / 100).toNat = value.toNat / 100 := UInt8.toNat_div value 100
  have tens : (value / 10 % 10).toNat = value.toNat / 10 % 10 := by
    rw [UInt8.toNat_mod, UInt8.toNat_div]
    rfl
  have units : (value % 10).toNat = value.toNat % 10 := UInt8.toNat_mod value 10
  simp only [decimalDigits, List.map_cons, List.map_nil, hundreds, tens, units, List.cons.injEq, and_true]
  omega

variable (m : Machine) (keys keys' : Keys) (random random' : RandomBytes) (x : UInt8)

/-- Registers loaded from where bytes were just stored hold the bytes, but for one that was stored at 0xFFF:
its register holds the next one. -/
theorem setFrom_stored_get {bytes : List UInt8} (h : bytes.length ≤ 16) {r : Nat} (hr : r < bytes.length) :
    (m.v.setFrom 0 ((m.memory.store m.i bytes).slice m.i bytes.length)).get (UInt8.ofNat r) =
      if (m.i.toNat + r) % 4096 = 0xFFF then bytes[r + 1]?.getD bytes[r] else bytes[r] := by
  have hslice := (m.memory.store m.i bytes).slice_length m.i bytes.length
  have hfits : bytes.length ≤ memorySize := Nat.le_trans h (by decide)
  rw [m.v.get_setFrom_zero (by omega) (by omega), Memory.slice_getElem, Memory.read_store _ _ hfits hr]

/-- A digit is stored at 0xFFF, and another one at the address after it, which is the same cell. -/
def DigitReplaced (h t u : Nat) : Prop :=
  (m.i.toNat % 4096 = 0xFFE ∧ t ≠ u) ∨ (m.i.toNat % 4096 = 0xFFF ∧ h ≠ t)

section ReadBack
variable {x} {h t u : Nat} (d : Decimal (m.v.get x).toNat h t u)
include d

theorem stored_digits :
    let m' := (m.obey keys random (.storeDecimal x)).obey keys' random' (.loadRegisters 2)
    (m'.v.get 0).toNat = (if m.i.toNat % 4096 = 0xFFF then t else h) ∧
    (m'.v.get 1).toNat = (if m.i.toNat % 4096 = 0xFFE then u else t) ∧
    (m'.v.get 2).toNat = u := by
  have hdigits := decimalDigits_toNat d
  simp only [decimalDigits, List.map_cons, List.map_nil, List.cons.injEq, and_true] at hdigits
  obtain ⟨rfl, rfl, rfl⟩ := hdigits
  have hthree : (decimalDigits (m.v.get x)).length ≤ 16 := show 3 ≤ 16 by decide
  have hget {r : Nat} (hr : r < 3) := m.setFrom_stored_get hthree hr
  have hsecond : (m.i.toNat + 1) % 4096 = 0xFFF ↔ m.i.toNat % 4096 = 0xFFE := by omega
  refine ⟨?_, ?_, ?_⟩
  · refine (congrArg UInt8.toNat (hget (r := 0) (by decide))).trans ?_
    exact apply_ite UInt8.toNat _ _ _
  · refine (congrArg UInt8.toNat (hget (r := 1) (by decide))).trans ?_
    simp only [hsecond]
    exact apply_ite UInt8.toNat _ _ _
  · refine (congrArg UInt8.toNat (hget (r := 2) (by decide))).trans ?_
    exact congrArg UInt8.toNat (ite_self _)

end ReadBack

theorem stored_digits_above {r : UInt8} (hr : 2 < r.toNat) (hr' : r.toNat < 16) :
    ((m.obey keys random (.storeDecimal x)).obey keys' random' (.loadRegisters 2)).v.get r =
      m.v.get r := by
  have hslice := (m.memory.store m.i (decimalDigits (m.v.get x))).slice_length m.i 3
  have habove := m.v.get_setFrom_above hr' (Nat.le_trans (Nat.le_of_eq hslice) hr)
  rwa [UInt8.ofNat_toNat] at habove

end Machine

/-- The digits of Vx, stored and loaded into the first three registers, are the digits of Vx and make the same
number unless a digit was stored at 0xFFF and differs from the next one, which then stands for both. The other
registers and the index register are as they were. Two steps lead to this if they fetch the two instructions. -/
theorem digits_read_back (m : Machine) (keys keys' : Keys) (random random' : RandomBytes) (x : UInt8)
    {h t u : Nat} (d : Decimal (m.v.get x).toNat h t u) :
    let m' := (m.obey keys random (.storeDecimal x)).obey keys' random' (.loadRegisters 2)
    let digits := ((m'.v.get 0).toNat, (m'.v.get 1).toNat, (m'.v.get 2).toNat)
    (digits = (h, t, u) ↔ ¬ m.DigitReplaced h t u) ∧
    (100 * digits.1 + 10 * digits.2.1 + digits.2.2 = (m.v.get x).toNat ↔ ¬ m.DigitReplaced h t u) ∧
    (m.i.toNat % 4096 = 0xFFE → digits = (h, u, u)) ∧
    (m.i.toNat % 4096 = 0xFFF → digits = (t, t, u)) ∧
    (∀ r : UInt8, 2 < r.toNat → r.toNat < 16 → m'.v.get r = m.v.get r) ∧
    m'.i = m.i ∧
    (m.upcoming = some (.storeDecimal x) →
      (m.obey keys random (.storeDecimal x)).upcoming = some (.loadRegisters 2) →
      ((m.step keys random).machine.step keys' random').machine = m') := by
  intro m' digits
  obtain ⟨hfirst, hsecond, hthird⟩ := m.stored_digits keys keys' random random' d
  have hsum := d.sum_eq
  refine ⟨?_, ?_, ?_, ?_, fun r => m.stored_digits_above keys keys' random random' x, rfl,
    Machine.step_step_obeys keys random keys' random'⟩
  all_goals
    simp only [digits, m', hfirst, hsecond, hthird, Machine.DigitReplaced, Prod.mk.injEq, and_true]
    split <;> split <;> omega

/-- Holds 254 in V7 and stores its digits at 0xFFFE, 0xFFFF and, around the end of all addresses, at 0. -/
def straddling : Machine :=
  { Machine.start (Memory.blank.store 0x200 [0xF7, 0x33, 0xF2, 0x65]) 0 with
    v := Registers.zero.set 7 254
    i := 0xFFFE }

theorem digits_read_back_of_straddling :
    let m' := (straddling.obey (fun _ => false) (fun _ => 0) (.storeDecimal 7)).obey
      (fun _ => false) (fun _ => 0) (.loadRegisters 2)
    Decimal (straddling.v.get 7).toNat 2 5 4 ∧ straddling.DigitReplaced 2 5 4 ∧
      ((m'.v.get 0).toNat, (m'.v.get 1).toNat, (m'.v.get 2).toNat) = (2, 4, 4) ∧
      m'.v.get 7 = 254 ∧ m'.i = 0xFFFE ∧
      ((straddling.step (fun _ => false) (fun _ => 0)).machine.step (fun _ => false)
        (fun _ => 0)).machine = m' := by
  intro m'
  have d : Decimal (straddling.v.get 7).toNat 2 5 4 := by constructor <;> decide
  obtain ⟨_, _, hlast, _, habove, hi, hsteps⟩ := digits_read_back straddling (fun _ => false) (fun _ => false)
    (fun _ => 0) (fun _ => 0) 7 d
  exact ⟨d, Or.inl (by decide), hlast (by decide), habove 7 (by decide) (by decide), hi,
    hsteps (by decide +kernel) (by decide +kernel)⟩

end Chip8
