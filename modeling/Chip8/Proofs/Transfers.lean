import Chip8.Proofs.LatestWrite

/-!
# Registers stored and loaded

What FX55 and FX65 make of each other. Memory has one cell less than there are addresses, so of two bytes
stored in a row at 0xFFF and 0x000 the second replaces the first, and this is all that is ever lost: bytes
that were loaded go back to where they came from, and registers that were stored come back but for the one
whose cell was taken.
-/

namespace Chip8
set_option autoImplicit false

namespace Memory
variable (m : Memory) (address : UInt16)

theorem offset_succ (k : Nat) : address + UInt16.ofNat (k + 1) = address + 1 + UInt16.ofNat k := by
  rw [Nat.add_comm k 1, UInt16.ofNat_add, UInt16.add_assoc]
  rfl

/-- Among fewer addresses in a row than there are cells, only 0xFFF and the one after it share a cell. -/
theorem sameCell_offset {k : Nat} (hpos : 0 < k) (hk : k < memorySize) :
    SameCell (address + UInt16.ofNat k) address ↔ k = 1 ∧ address.toNat % 4096 = 4095 := by
  have hsum : (address + UInt16.ofNat k).toNat % 4096 = (address.toNat + k) % 4096 := by
    simp only [UInt16.toNat_add, UInt16.toNat_ofNat']
    omega
  simp only [SameCell, ← UInt16.toNat_inj, UInt16.toNat_mod, UInt16.reduceToNat, hsum]
  simp only [memorySize] at hk
  omega

theorem slice_getElem {count k : Nat} (h : k < (m.slice address count).length) :
    (m.slice address count)[k] = m.read (address + UInt16.ofNat k) := by
  simp [slice]

theorem slice_succ (count : Nat) :
    m.slice address (count + 1) = m.read address :: m.slice (address + 1) count := by
  apply List.ext_getElem
  · simp
  · intro k _ _
    cases k with
    | zero => simp [slice_getElem]
    | succ k => rw [List.getElem_cons_succ, slice_getElem, slice_getElem, offset_succ]

theorem write_read : m.write address (m.read address) = m :=
  congrArg Memory.mk (Vector.set_getElem_self (cell address).2)

/-- Bytes can be stored back to where they were read, also if two of the addresses share a cell. -/
theorem store_slice (count : Nat) : m.store address (m.slice address count) = m := by
  induction count generalizing address with
  | zero => rfl
  | succ count ih => rw [slice_succ, store, write_read, ih]

theorem read_store_of_other {m : Memory} {address a : UInt16} {bytes : List UInt8}
    (h : ∀ j < bytes.length, ¬ SameCell (address + UInt16.ofNat j) a) :
    (m.store address bytes).read a = m.read a := by
  apply store_get
  intro j hj hcell
  exact h j hj (cell_eq_iff.mp hcell.symm)

/-- The first of some bytes is read back unless it was stored at 0xFFF, where the second one replaces it. -/
theorem read_store_first (b : UInt8) {bytes : List UInt8} (h : bytes.length < memorySize) :
    (m.store address (b :: bytes)).read address =
      if address.toNat % 4096 = 4095 then bytes.headD b else b := by
  have hfirst : (m.write address b).read address = b := by
    rw [read_write]
    exact if_pos (Or.inl rfl)
  cases bytes with
  | nil => simp only [store, hfirst, List.headD_nil, ite_self]
  | cons next bytes =>
    rw [List.length_cons] at h
    have hsecond : SameCell (address + 1) address ↔ 1 = 1 ∧ address.toNat % 4096 = 4095 :=
      sameCell_offset address (by decide) (by decide)
    rw [store, store, read_store_of_other, read_write, hfirst]
    · simp only [hsecond, true_and, List.headD_cons]
    · intro j hj
      rw [← offset_succ, ← offset_succ, sameCell_offset address (by omega) (by omega)]
      omega

/-- Bytes that were stored are read back, but for the one at 0xFFF, for which the next one is read. -/
theorem read_store {bytes : List UInt8} (h : bytes.length ≤ memorySize) {r : Nat}
    (hr : r < bytes.length) :
    (m.store address bytes).read (address + UInt16.ofNat r) =
      if (address.toNat + r) % 4096 = 4095 then bytes[r + 1]?.getD bytes[r] else bytes[r] := by
  induction bytes generalizing m address r with
  | nil => simp at hr
  | cons b bytes ih =>
    rw [List.length_cons] at h
    cases r with
    | zero =>
      have hfirst := m.read_store_first address b h
      simpa [List.headD_eq_head?_getD, List.head?_eq_getElem?] using hfirst
    | succ r =>
      have hrest := ih (m.write address b) (address + 1) (by omega) (Nat.lt_of_succ_lt_succ hr)
      have hmod : ((address + 1).toNat + r) % 4096 = (address.toNat + (r + 1)) % 4096 := by
        simp only [UInt16.toNat_add, UInt16.reduceToNat]
        omega
      rw [hmod] at hrest
      rw [offset_succ, store, hrest]
      rfl

end Memory

namespace Registers
variable (v : Registers)

theorem offset_succ (first : UInt8) (j : Nat) :
    first + UInt8.ofNat (j + 1) = first + 1 + UInt8.ofNat j := by
  rw [Nat.add_comm j 1, UInt8.ofNat_add, UInt8.add_assoc]
  rfl

theorem slot_ofNat {r : Nat} (hr : r < 16) : slot (UInt8.ofNat r) = ⟨r, hr⟩ := by
  rw [Fin.ext_iff]
  simp only [slot, UInt8.toNat_ofNat']
  omega

theorem slot_offset {first : UInt8} {j : Nat} (hpos : 0 < j) (hj : j < 16) :
    slot first ≠ slot (first + UInt8.ofNat j) := by
  rw [Ne, Fin.ext_iff]
  simp only [slot, UInt8.toNat_add, UInt8.toNat_ofNat']
  omega

theorem ext_get {v w : Registers} (h : ∀ r < 16, v.get (UInt8.ofNat r) = w.get (UInt8.ofNat r)) :
    v = w := by
  apply congrArg Registers.mk
  apply Vector.ext
  intro r hr
  have hget := h r hr
  rw [get, get, slot_ofNat hr] at hget
  exact hget

theorem get_set_other {r r' : Nat} (hr : r < 16) (hr' : r' < 16) (hne : r' ≠ r) (value : UInt8) :
    (v.set (UInt8.ofNat r) value).get (UInt8.ofNat r') = v.get (UInt8.ofNat r') := by
  apply set_get
  rw [slot_ofNat hr, slot_ofNat hr']
  intro hslot
  exact hne (congrArg Fin.val hslot)

theorem get_setFrom (first : UInt8) {bytes : List UInt8} (h : bytes.length ≤ 16) {j : Nat}
    (hj : j < bytes.length) : (v.setFrom first bytes).get (first + UInt8.ofNat j) = bytes[j] := by
  induction bytes generalizing v first j with
  | nil => simp at hj
  | cons b bytes ih =>
    rw [List.length_cons] at h
    cases j with
    | zero =>
      have hlater : ((v.set first b).setFrom (first + 1) bytes).get first = (v.set first b).get first := by
        apply setFrom_get
        intro k hk
        rw [← offset_succ]
        exact slot_offset (Nat.succ_pos k) (by omega)
      have hzero : first + UInt8.ofNat 0 = first := UInt8.add_zero first
      rw [hzero, setFrom, hlater, get_set]
      rfl
    | succ j =>
      have hrest := ih (v.set first b) (first + 1) (by omega) (Nat.lt_of_succ_lt_succ hj)
      rw [offset_succ, setFrom, hrest]
      rfl

theorem get_setFrom_zero {bytes : List UInt8} (h : bytes.length ≤ 16) {r : Nat}
    (hr : r < bytes.length) : (v.setFrom 0 bytes).get (UInt8.ofNat r) = bytes[r] := by
  have hget := v.get_setFrom 0 h hr
  rwa [UInt8.zero_add] at hget

theorem get_setFrom_above {bytes : List UInt8} {r : Nat} (hr : r < 16) (h : bytes.length ≤ r) :
    (v.setFrom 0 bytes).get (UInt8.ofNat r) = v.get (UInt8.ofNat r) := by
  apply setFrom_get
  intro j hj hslot
  rw [UInt8.zero_add, slot_ofNat hr, slot_ofNat (by omega), Fin.mk.injEq] at hslot
  omega

theorem upTo_getElem {last : UInt8} {r : Nat} (hr : r < (v.upTo last).length) :
    (v.upTo last)[r] = v.get (UInt8.ofNat r) := by
  simp [upTo]

theorem upTo_next (last b : UInt8) (r : Nat) :
    (v.upTo last)[r + 1]?.getD b =
      if r < last.toNat then v.get (UInt8.ofNat (r + 1)) else b := by
  by_cases hr : r < last.toNat
  · have hnext : r + 1 < (v.upTo last).length := by
      rw [upTo_length]
      omega
    rw [if_pos hr, List.getElem?_eq_getElem hnext, Option.getD_some, upTo_getElem]
  · have hnone : (v.upTo last)[r + 1]? = none := by
      apply List.getElem?_eq_none
      rw [upTo_length]
      omega
    rw [if_neg hr, hnone, Option.getD_none]

theorem upTo_setFrom {last : UInt8} (hlast : last.toNat < 16) {bytes : List UInt8}
    (h : bytes.length = last.toNat + 1) : (v.setFrom 0 bytes).upTo last = bytes := by
  apply List.ext_getElem
  · rw [upTo_length, h]
  · intro r _ hr
    rw [upTo_getElem, v.get_setFrom_zero (by omega) hr]

end Registers

namespace Machine
variable (m : Machine) (keys keys' : Keys) (random random' : RandomBytes) {x : UInt8}

/-- The register is stored at 0xFFF, and another value at the address after it, which is the same cell. -/
def Displaced (x : UInt8) (r : Nat) : Prop :=
  r < x.toNat ∧ (m.i.toNat + r) % 4096 = 0xFFF ∧ m.v.get (UInt8.ofNat r) ≠ m.v.get (UInt8.ofNat (r + 1))

theorem load_store_memory (hx : x.toNat < 16) :
    ((m.obey keys random (.loadRegisters x)).obey keys' random' (.storeRegisters x)).memory =
      m.memory := by
  have hbytes : (m.memory.slice m.i (x.toNat + 1)).length = x.toNat + 1 := m.memory.slice_length _ _
  change m.memory.store m.i ((m.v.setFrom 0 (m.memory.slice m.i (x.toNat + 1))).upTo x) = m.memory
  rw [m.v.upTo_setFrom hx hbytes, Memory.store_slice]

/-- Registers that were stored come back as they were, but for one that went to 0xFFF: it comes back as the
register after it. -/
theorem store_load_get (hx : x.toNat < 16) {r : Nat} (hr : r < 16) :
    ((m.obey keys random (.storeRegisters x)).obey keys' random' (.loadRegisters x)).v.get
        (UInt8.ofNat r) =
      if r < x.toNat ∧ (m.i.toNat + r) % 4096 = 0xFFF then m.v.get (UInt8.ofNat (r + 1))
      else m.v.get (UInt8.ofNat r) := by
  have hslice := (m.memory.store m.i (m.v.upTo x)).slice_length m.i (x.toNat + 1)
  change (m.v.setFrom 0 ((m.memory.store m.i (m.v.upTo x)).slice m.i (x.toNat + 1))).get _ = _
  rcases Nat.lt_or_ge x.toNat r with habove | hle
  · rw [m.v.get_setFrom_above hr (by omega), if_neg (by omega)]
  · have hstored : r < (m.v.upTo x).length := by
      rw [Registers.upTo_length]
      omega
    have hfits : (m.v.upTo x).length ≤ memorySize := by
      rw [Registers.upTo_length, memorySize]
      omega
    rw [m.v.get_setFrom_zero (Nat.le_trans (Nat.le_of_eq hslice) (by omega)) (by omega),
      Memory.slice_getElem, Memory.read_store _ _ hfits hstored, Registers.upTo_next,
      Registers.upTo_getElem]
    by_cases hend : (m.i.toNat + r) % 4096 = 4095
    · simp only [hend, if_true, and_true]
    · simp only [hend, if_false, and_false]

theorem displaced_unique {r r' : Nat} (hx : x.toNat < 16) (h : m.Displaced x r) (h' : m.Displaced x r') :
    r' = r := by
  obtain ⟨hlt, hend, _⟩ := h
  obtain ⟨hlt', hend', _⟩ := h'
  omega

end Machine

/-- Loading registers and storing them again leaves memory as it is. Storing registers and loading them again
leaves the registers as they are unless one of them, and not the last, goes to 0xFFF and differs from the next
one. There is at most one such register, and it and no other becomes what the next one is. The index register
stays in either case. Two steps lead to this if they fetch the two instructions. -/
theorem transfers_round_trip (m : Machine) (keys keys' : Keys) (random random' : RandomBytes)
    {x : UInt8} (hx : x.toNat < 16) :
    let loaded := (m.obey keys random (.loadRegisters x)).obey keys' random' (.storeRegisters x)
    let stored := (m.obey keys random (.storeRegisters x)).obey keys' random' (.loadRegisters x)
    loaded.memory = m.memory ∧
    (stored.v = m.v ↔ ¬ ∃ r, m.Displaced x r) ∧
    (∀ r, m.Displaced x r → (∀ r', m.Displaced x r' → r' = r) ∧
      stored.v = m.v.set (UInt8.ofNat r) (m.v.get (UInt8.ofNat (r + 1)))) ∧
    loaded.i = m.i ∧ stored.i = m.i ∧
    (m.upcoming = some (.loadRegisters x) →
      (m.obey keys random (.loadRegisters x)).upcoming = some (.storeRegisters x) →
      ((m.step keys random).machine.step keys' random').machine = loaded) ∧
    (m.upcoming = some (.storeRegisters x) →
      (m.obey keys random (.storeRegisters x)).upcoming = some (.loadRegisters x) →
      ((m.step keys random).machine.step keys' random').machine = stored) := by
  intro loaded stored
  have hget (r : Nat) (hr : r < 16) := m.store_load_get keys keys' random random' hx hr
  refine ⟨m.load_store_memory keys keys' random random' hx, ?_, ?_, rfl, rfl,
    Machine.step_step_obeys keys random keys' random', Machine.step_step_obeys keys random keys' random'⟩
  · constructor
    · rintro hkept ⟨r, hlt, hend, hdiffer⟩
      have hr := hget r (by omega)
      rw [if_pos ⟨hlt, hend⟩] at hr
      rw [← hr] at hdiffer
      exact hdiffer (congrArg (Registers.get · _) hkept.symm)
    · intro hnone
      apply Registers.ext_get
      intro r hr
      rw [hget r hr]
      by_cases hmoved : r < x.toNat ∧ (m.i.toNat + r) % 4096 = 0xFFF
      · rw [if_pos hmoved]
        by_cases hdiffer : m.v.get (UInt8.ofNat r) = m.v.get (UInt8.ofNat (r + 1))
        · exact hdiffer.symm
        · exact absurd ⟨r, hmoved.1, hmoved.2, hdiffer⟩ hnone
      · rw [if_neg hmoved]
  · intro r hr
    refine ⟨fun r' hr' => m.displaced_unique hx hr hr', ?_⟩
    obtain ⟨hlt, hend, _⟩ := hr
    apply Registers.ext_get
    intro r' hr'
    rw [hget r' hr']
    by_cases hsame : r' = r
    · subst hsame
      rw [if_pos ⟨hlt, hend⟩, Registers.get_set]
    · rw [if_neg (by omega), m.v.get_set_other (by omega) hr' hsame]

/-- Stores its registers at 0xFFFE, 0xFFFF and, around the end of all addresses, at 0, and loads them again. -/
def spilling : Machine :=
  { Machine.start (Memory.blank.store 0x200 [0xF2, 0x55, 0xF2, 0x65]) 0 with
    v := Registers.zero.setFrom 0 [7, 8, 9]
    i := 0xFFFE }

theorem transfers_round_trip_of_spilling :
    let loaded := (spilling.obey (fun _ => false) (fun _ => 0) (.loadRegisters 2)).obey
      (fun _ => false) (fun _ => 0) (.storeRegisters 2)
    let stored := (spilling.obey (fun _ => false) (fun _ => 0) (.storeRegisters 2)).obey
      (fun _ => false) (fun _ => 0) (.loadRegisters 2)
    loaded.memory = spilling.memory ∧ spilling.Displaced 2 1 ∧ stored.v ≠ spilling.v ∧
      stored.v = spilling.v.set 1 9 ∧ loaded.i = 0xFFFE ∧ stored.i = 0xFFFE ∧
      ((spilling.step (fun _ => false) (fun _ => 0)).machine.step (fun _ => false)
        (fun _ => 0)).machine = stored := by
  intro loaded stored
  obtain ⟨hmemory, hiff, hdisplaced, hi, hi', _, hsteps⟩ := transfers_round_trip spilling (fun _ => false)
    (fun _ => false) (fun _ => 0) (fun _ => 0) (x := 2) (by decide)
  have hone : spilling.Displaced 2 1 := ⟨by decide, by decide, by decide⟩
  refine ⟨hmemory, hone, ?_, (hdisplaced 1 hone).2, hi, hi',
    hsteps (by decide +kernel) (by decide +kernel)⟩
  intro hkept
  exact hiff.mp hkept ⟨1, hone⟩

end Chip8
