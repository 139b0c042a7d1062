import Chip8.Proofs.Checked
import Chip8.Proofs.WellFormed

/-!
# Checked execution never faults

Each checked operation succeeds and agrees with the operation of the machine that it checks, whatever
words it works on. Only the call stack needs an assumption, that no more slots are in use than there
are, which every session keeps. So a step in a session has no fault, whatever it meets.
-/

namespace Chip8
set_option autoImplicit false

namespace Checked

/-! ### Words and arrays -/

theorem index_eq {α : Type} {n k : Nat} (xs : Vector α n) (h : k < n) : index xs k = .ok xs[k] := by
  simp [index, h]

theorem assign_eq {α : Type} {n k : Nat} (xs : Vector α n) (h : k < n) (value : α) :
    assign xs k value = .ok (xs.set k value h) := by
  simp [assign, h]

theorem add_eq {bits a b : Nat} (h : a + b < 1 <<< bits) : add bits a b = .ok (a + b) := by
  simp [add, h]

theorem mul_eq {bits a b : Nat} (h : a * b < 1 <<< bits) : mul bits a b = .ok (a * b) := by
  simp [mul, h]

theorem sub_eq {a b : Nat} (h : b ≤ a) : sub a b = .ok (a - b) := by
  simp [sub, h]

theorem shiftRight_eq {value : UInt8} {amount : Nat} (h : amount < 8) :
    shiftRight value amount = .ok (value >>> UInt8.ofNat amount) := by
  simp [shiftRight, h]

theorem ok_bind {ε α β : Type} (a : α) (f : α → Except ε β) : (Except.ok a >>= f) = f a := rfl

theorem foldlM_eq {α β : Type} {f : β → α → Checked β} {g : β → α → β} {xs : List α}
    (h : ∀ b, ∀ a ∈ xs, f b a = .ok (g b a)) (b : β) : xs.foldlM f b = .ok (xs.foldl g b) := by
  induction xs generalizing b with
  | nil => rfl
  | cons a xs ih =>
    rw [List.foldlM_cons, h b a List.mem_cons_self, ok_bind]
    exact ih (fun b a ha => h b a (List.mem_cons_of_mem _ ha)) (g b a)

theorem register_mask (r : UInt8) : (r &&& 0xF).toNat = r.toNat % 16 := by
  rw [UInt8.toNat_and]
  exact Nat.and_two_pow_sub_one_eq_mod r.toNat 4

theorem address_mask (a : UInt16) : (a &&& 0x0FFF).toNat = a.toNat % 0x1000 := by
  rw [UInt16.toNat_and]
  exact Nat.and_two_pow_sub_one_eq_mod a.toNat 12

theorem mask_eq (a : UInt16) : a &&& 0x0FFF = a % 0x1000 := by
  apply UInt16.toNat_inj.mp
  rw [address_mask]
  exact (UInt16.toNat_mod a 0x1000).symm

theorem key_eq (a : UInt8) : a &&& 0xF = a % 0x10 := by
  apply UInt8.toNat_inj.mp
  rw [register_mask]
  exact (UInt8.toNat_mod a 0x10).symm

theorem carry_eq (a b : UInt8) : (decide (a + b < a)) = decide (0xFF < a.toNat + b.toNat) := by
  have ha := a.toNat_lt
  have hb := b.toNat_lt
  rw [decide_eq_decide, UInt8.lt_iff_toNat_lt, UInt8.toNat_add]
  omega

theorem lowBit_eq (a : UInt8) : a &&& 1 = (a % 2 == 1).toUInt8 := by
  have h : (a % 2).toNat = a.toNat % 2 := UInt8.toNat_mod a 2
  apply UInt8.toNat_inj.mp
  rw [UInt8.toNat_and, show (1 : UInt8).toNat = 1 from rfl, Nat.and_one_is_mod, ← h]
  rcases Nat.mod_two_eq_zero_or_one a.toNat with he | ho
  · rw [UInt8.toNat_inj.mp (h.trans he : (a % 2).toNat = (0 : UInt8).toNat)]
    rfl
  · rw [UInt8.toNat_inj.mp (h.trans ho : (a % 2).toNat = (1 : UInt8).toNat)]
    rfl

theorem highBit_eq (a : UInt8) : a >>> 7 = (decide (0x80 ≤ a)).toUInt8 := by
  have ha := a.toNat_lt
  apply UInt8.toNat_inj.mp
  rw [UInt8.toNat_shiftRight, Nat.shiftRight_eq_div_pow]
  change a.toNat / 128 = _
  by_cases h : 0x80 ≤ a
  · have hn : 128 ≤ a.toNat := UInt8.le_iff_toNat_le.mp h
    rw [decide_eq_true h]
    change a.toNat / 128 = 1
    omega
  · have hn : ¬ 128 ≤ a.toNat := fun hn => h (UInt8.le_iff_toNat_le.mpr hn)
    rw [decide_eq_false h]
    change a.toNat / 128 = 0
    omega

theorem half_eq (a : UInt8) : a >>> 1 = a / 2 := by
  apply UInt8.toNat_inj.mp
  rw [UInt8.toNat_shiftRight, Nat.shiftRight_eq_div_pow, UInt8.toNat_div]
  rfl

theorem double_eq (a : UInt8) : a <<< 1 = a * 2 := by
  apply UInt8.toNat_inj.mp
  rw [UInt8.toNat_shiftLeft, Nat.shiftLeft_eq, UInt8.toNat_mul]
  rfl

/-! ### Registers and memory -/

theorem register_eq (v : Registers) (r : UInt8) : register v r = .ok (v.get r) := by
  unfold register
  rw [index_eq _ (by rw [register_mask]; exact Registers.slot_lt r)]
  simp only [register_mask]
  rfl

theorem setRegister_eq (v : Registers) (r value : UInt8) :
    setRegister v r value = .ok (v.set r value) := by
  unfold setRegister
  rw [assign_eq _ (by rw [register_mask]; exact Registers.slot_lt r)]
  simp only [register_mask]
  rfl

theorem setFlagged_eq (v : Registers) (flag : Bool) (x value : UInt8) :
    setFlagged v flag.toUInt8 x value = .ok ((v.setFlag flag).set x value) := by
  simp only [setFlagged, setRegister_eq, ok_bind]
  rfl

theorem byte_eq (m : Memory) (a : UInt16) : byte m a = .ok (m.read a) := by
  unfold byte
  rw [index_eq _ (Nat.mod_lt _ (by decide))]
  simp only [address_mask]
  rfl

theorem setByte_eq (m : Memory) (a : UInt16) (value : UInt8) :
    setByte m a value = .ok (m.write a value) := by
  unfold setByte
  rw [assign_eq _ (Nat.mod_lt _ (by decide))]
  simp only [address_mask]
  rfl

theorem word_eq (m : Memory) (a : UInt16) : word m a = .ok (m.word a) := by
  simp only [word, byte_eq, ok_bind, Memory.word]
  apply congrArg Except.ok
  apply UInt16.toNat_inj.mp
  have hlow := (m.read (a + 1)).toNat_lt
  have hhigh := (m.read a).toNat_lt
  have hor := Nat.two_pow_add_eq_or_of_lt hlow (m.read a).toNat
  simp only [UInt16.toNat_or, UInt16.toNat_shiftLeft, UInt16.toNat_add, UInt16.toNat_mul,
    UInt8.toNat_toUInt16, UInt16.toNat_ofNat, Nat.shiftLeft_eq]
  rw [Nat.mod_eq_of_lt (by simp; omega)]
  change (m.read a).toNat * 2 ^ 8 ||| _ = ((m.read a).toNat * 2 ^ 8 + _) % 2 ^ 16
  rw [Nat.mul_comm, ← hor]
  omega

theorem glyph_eq (d : UInt8) : glyph d = .ok (Memory.glyph d) := by
  have hd : d.toNat % 16 < 16 := Nat.mod_lt _ (by decide)
  unfold glyph
  rw [UInt8.toNat_toUInt16, register_mask, mul_eq (by omega), ok_bind,
    add_eq (by simp only [fontStart]; omega), ok_bind]
  apply congrArg Except.ok
  apply UInt16.toNat_inj.mp
  simp [Memory.glyph]

theorem slice_eq (m : Memory) (i : UInt16) (count : Nat) :
    slice m i count = .ok (m.slice i count) := by
  unfold slice Memory.slice
  simp only [byte_eq]
  exact List.mapM_pure

theorem storeDecimal_eq (m : Memory) (i : UInt16) (value : UInt8) :
    storeDecimal m i value = .ok (m.store i (Machine.decimalDigits value)) := by
  have h : i + 1 + 1 = i + 2 := by rw [UInt16.add_assoc]; rfl
  simp only [storeDecimal, setByte_eq, ok_bind, Machine.decimalDigits, Memory.store, h]

theorem store_range' (f : Nat → UInt8) (i : UInt16) (n k : Nat) (m : Memory) :
    (List.range' k n).foldl (fun m r => m.write (i + UInt16.ofNat r) (f r)) m =
      m.store (i + UInt16.ofNat k) ((List.range' k n).map f) := by
  induction n generalizing k m with
  | zero => rfl
  | succ n ih =>
    rw [List.range'_succ, List.foldl_cons, ih, List.map_cons, Memory.store, UInt16.add_assoc]
    simp only [UInt16.ofNat_add]
    rfl

theorem setFrom_range' (f : Nat → UInt8) (n k : Nat) (v : Registers) :
    (List.range' k n).foldl (fun v r => v.set (UInt8.ofNat r) (f r)) v =
      v.setFrom (UInt8.ofNat k) ((List.range' k n).map f) := by
  induction n generalizing k v with
  | zero => rfl
  | succ n ih =>
    rw [List.range'_succ, List.foldl_cons, ih, List.map_cons, Registers.setFrom]
    simp only [UInt8.ofNat_add]
    rfl

theorem storeRegisters_eq (v : Registers) (i : UInt16) (last : UInt8) (m : Memory) :
    storeRegisters v i last m = .ok (m.store i (v.upTo last)) := by
  have h := store_range' (fun r => v.get (UInt8.ofNat r)) i (last.toNat + 1) 0 m
  rw [show UInt16.ofNat 0 = 0 from rfl, UInt16.add_zero, ← List.range_eq_range'] at h
  simp only [storeRegisters, register_eq, setByte_eq, ok_bind]
  rw [Registers.upTo, ← h]
  exact List.foldlM_pure ..

theorem loadRegisters_eq (m : Memory) (i : UInt16) (last : UInt8) (v : Registers) :
    loadRegisters m i last v = .ok (v.setFrom 0 (m.slice i (last.toNat + 1))) := by
  have h := setFrom_range' (fun r => m.read (i + UInt16.ofNat r)) (last.toNat + 1) 0 v
  rw [← List.range_eq_range'] at h
  simp only [loadRegisters, byte_eq, setRegister_eq, ok_bind]
  change _ = Except.ok (v.setFrom (UInt8.ofNat 0) _)
  rw [Memory.slice, ← h]
  exact List.foldlM_pure ..

/-! ### The call stack -/

theorem push_eq (s : CallStack) (address : UInt16) : push s address = .ok (s.push? address) := by
  unfold push CallStack.push?
  split
  · rename_i h
    rw [dif_neg (Nat.not_lt.mpr h)]
    rfl
  · rename_i h
    have hd := Nat.not_le.mp h
    rw [dif_pos hd]
    simp only [stackSize] at hd
    simp only [assign_eq _ (Nat.not_le.mp h), add_eq (show s.depth + 1 < 1 <<< 16 by omega), ok_bind]
    rfl

theorem pop_eq {s : CallStack} (h : s.depth ≤ stackSize) : pop s = .ok s.pop? := by
  unfold pop CallStack.pop?
  split
  · rfl
  · rename_i hd
    have hk : s.depth - 1 < stackSize := by omega
    simp only [sub_eq (show 1 ≤ s.depth by omega), index_eq _ hk, ok_bind]
    rw [Vector.getElem?_eq_getElem hk]
    rfl

example : pop ⟨Vector.replicate stackSize 0, 17⟩ = .error (.outOfBounds 16 16) := rfl

/-! ### The screen -/

theorem shifted_bit (row : UInt8) {amount : Nat} (h : amount < 8) :
    row >>> UInt8.ofNat amount &&& 1 = (row.toNat.testBit amount).toUInt8 := by
  have hm : amount % 2 ^ 8 % 8 = amount := by omega
  apply UInt8.toNat_inj.mp
  rw [UInt8.toNat_and, UInt8.toNat_shiftRight, UInt8.toNat_ofNat', hm,
    show (1 : UInt8).toNat = 1 from rfl, Nat.and_one_is_mod, Nat.shiftRight_eq_div_pow,
    ← Nat.toNat_testBit]
  cases row.toNat.testBit amount <;> rfl

/-- A pixel under an unset bit is written as it was. -/
theorem drawPixel_eq {x y bit : Nat} (row : UInt8) (drawing : Vector UInt8 screenSize × Bool)
    (hx : x < 256) (hy : y < screenHeight) (hbit : bit < 8) :
    drawPixel x y row drawing bit = .ok (if row.toNat.testBit (7 - bit) then
      Screen.flip drawing (Screen.wrapped (x + bit) y) else drawing) := by
  obtain ⟨cells, collided⟩ := drawing
  have hk : y * screenWidth + (x + bit) % screenWidth = (Screen.wrapped (x + bit) y).1 := by
    simp only [Screen.wrapped, Nat.mod_eq_of_lt hy]
  have hlt := (Screen.wrapped (x + bit) y).2
  unfold drawPixel
  rw [add_eq (by omega), ok_bind, sub_eq (by omega), ok_bind, shiftRight_eq (by omega), ok_bind,
    mul_eq (by simp only [screenHeight, screenWidth] at *; omega), ok_bind,
    add_eq (by rw [hk]; simp only [screenSize] at hlt; omega), ok_bind, hk, index_eq _ hlt, ok_bind,
    assign_eq _ hlt, ok_bind, shifted_bit row (by omega)]
  cases row.toNat.testBit (7 - bit) with
  | true => rfl
  | false =>
    have hset : cells.set (Screen.wrapped (x + bit) y).1
        (cells[(Screen.wrapped (x + bit) y).1] ^^^ 0) hlt = cells := by
      rw [UInt8.xor_zero, Vector.set_getElem_self]
    exact congrArg Except.ok (Prod.ext hset (Bool.or_false collided))

theorem wrapped_mod (x y : Nat) : Screen.wrapped x (y % screenHeight) = Screen.wrapped x y := by
  simp only [Screen.wrapped, Nat.mod_mod]

theorem drawRow_eq {x y : Nat} (drawing : Vector UInt8 screenSize × Bool) (row : UInt8 × Nat)
    (hx : x < 256) (hy : y + row.2 < 1 <<< 64) :
    drawRow x y drawing row = .ok ((Screen.rowCells x (y + row.2) row.1).foldl Screen.flip drawing) := by
  unfold drawRow
  rw [add_eq hy, ok_bind, foldlM_eq (fun d bit hbit => drawPixel_eq row.1 d hx
    (Nat.mod_lt _ (by decide)) (List.mem_range.mp hbit)), Screen.rowCells, List.foldl_filterMap]
  congr 2
  funext d bit
  rw [wrapped_mod]
  cases row.1.toNat.testBit (7 - bit) <;> rfl

theorem foldl_rows (x y : Nat) (rows : List UInt8) (drawing : Vector UInt8 screenSize × Bool) (k : Nat) :
    (rows.zipIdx k).foldl (fun d row => (Screen.rowCells x (y + row.2) row.1).foldl Screen.flip d) drawing =
      (Screen.spriteCells x (y + k) rows).foldl Screen.flip drawing := by
  induction rows generalizing drawing k with
  | nil => rfl
  | cons row rows ih =>
    rw [List.zipIdx_cons, List.foldl_cons, ih, Screen.spriteCells, List.foldl_append]
    rfl

theorem draw_eq (s : Screen) (x y : UInt8) {rows : List UInt8} (h : rows.length < 256) :
    draw s x y rows = .ok (s.draw x y rows) := by
  have hx := x.toNat_lt
  have hy := y.toNat_lt
  unfold draw
  rw [foldlM_eq (fun d row hrow => drawRow_eq d row hx ?_), foldl_rows, ok_bind]
  · rfl
  · have := List.snd_lt_of_mem_zipIdx hrow
    omega

/-! ### Instructions, steps and ticks -/

theorem decode_eq (word : UInt16) : decode word = .ok (.decode word) := by
  have h := word.toNat_lt
  unfold decode
  rw [if_pos]
  rw [UInt16.toNat_shiftRight, Nat.shiftRight_eq_div_pow]
  simp
  omega

theorem skipIf_eq (m : Machine) (condition : Bool) : skipIf m condition = m.skipIf condition := by
  simp only [skipIf, Machine.skipIf, mask_eq]
  rfl

theorem setV_eq (m : Machine) (x value : UInt8) : setV m x value = .ok (m.setV x value) := by
  simp only [setV, setRegister_eq, ok_bind]
  rfl

theorem execute_eq {m : Machine} (h : m.stack.depth ≤ stackSize) (keys : Keys)
    (random : RandomBytes) (i : Instruction) :
    execute m keys random i = .ok (m.execute keys random i) := by
  cases i with
  | ret =>
    simp only [execute, pop_eq h, ok_bind, Machine.execute]
    cases m.stack.pop? <;> rfl
  | call a =>
    simp only [execute, push_eq, ok_bind, Machine.execute]
    cases m.stack.push? m.pc <;> rfl
  | skipEqByte | skipNeByte | skipEq | skipNe | skipKeyDown | skipKeyUp =>
    simp only [execute, register_eq, ok_bind, skipIf_eq, key_eq]
    rfl
  | loadByte | addByte | move | or | and | xor | readDelay =>
    simp only [execute, register_eq, setV_eq, ok_bind]
    rfl
  | add | sub | subFrom | shiftRight | shiftLeft =>
    simp only [execute, register_eq, carry_eq, lowBit_eq, highBit_eq, half_eq, double_eq,
      setFlagged_eq, ok_bind]
    rfl
  | draw x y n =>
    have hn : (m.memory.slice m.i n.toNat).length < 256 := by
      simp only [Memory.slice, List.length_map, List.length_range]
      exact n.toNat_lt
    simp only [execute, register_eq, slice_eq, draw_eq _ _ _ hn, setRegister_eq, ok_bind]
    rfl
  | jumpOffset | random | setDelay | setSound | addIndex | loadGlyph =>
    simp only [execute, register_eq, setRegister_eq, glyph_eq, mask_eq, ok_bind]
    rfl
  | storeDecimal | storeRegisters | loadRegisters =>
    simp only [execute, register_eq, storeDecimal_eq, storeRegisters_eq, loadRegisters_eq, ok_bind]
    rfl
  | clear | jump | loadIndex | awaitKey | unknown => rfl

theorem step_eq {m : Machine} (h : m.stack.depth ≤ stackSize) (keys : Keys)
    (random : RandomBytes) : step m keys random = .ok (m.step keys random) := by
  unfold step
  split
  · rename_i x hw
    rw [Machine.step_waiting keys random hw, Machine.poll]
    cases Machine.padKeys.find? keys with
    | some key =>
      simp only [setRegister_eq, ok_bind]
      rfl
    | none => rfl
  · rename_i hw
    have he := execute_eq (m := { m with pc := Machine.next m.pc }) h keys random
      (.decode (m.memory.word m.pc))
    dsimp only
    rw [word_eq, ok_bind, decode_eq, ok_bind, mask_eq]
    change (execute { m with pc := Machine.next m.pc } keys random _ >>= _) = _
    rw [he, ok_bind]
    simp only [Machine.step, hw]
    rfl

theorem countDown_eq (t : Timer) : (⟨UInt8.ofNat (t.value.toNat - 1)⟩ : Timer) = t.tick := by
  unfold Timer.tick
  split
  · rename_i h
    rw [h]
    exact congrArg Timer.mk h.symm
  · rename_i h
    have hpos : 1 ≤ t.value.toNat :=
      Nat.one_le_iff_ne_zero.mpr fun hz => h (UInt8.toNat_inj.mp hz)
    rw [UInt8.ofNat_sub hpos, UInt8.ofNat_toNat]
    rfl

theorem tick_eq (m : Machine) : tick m = .ok m.tick := by
  simp only [tick, countDown_eq]
  rfl

end Checked

/-- Wherever a session of an emulator leads, the next step and the next tick have no fault, for all
keys and random bytes, and do what the machine does. -/
theorem session_faultless {rom : Rom} {draws : Nat} {e : Emulator} {events : List Event}
    (h : Emulator.start rom draws = .ok (e, events)) (random : RandomBytes)
    (ops : List Emulator.Operation) :
    ∃ e', e.after random ops = .ok e' ∧
      (∀ keys bytes, Checked.step e'.machine keys bytes = .ok (e'.machine.step keys bytes)) ∧
      Checked.tick e'.machine = .ok e'.machine.tick := by
  obtain ⟨memory, hload, rfl, _⟩ := Emulator.start_eq_ok h
  obtain ⟨e', he', _, hmachine⟩ :=
    Emulator.after_eq_ok (e := ⟨.start memory draws, rom, true⟩) hload random ops
  have hdepth : e'.machine.stack.depth ≤ stackSize := by
    rw [hmachine]
    exact (Machine.after_wellFormed (Machine.start_wellFormed memory draws) random _).stack.depth_le
  exact ⟨e', he', fun keys bytes => Checked.step_eq hdepth keys bytes, Checked.tick_eq e'.machine⟩

/-- A ROM that stores all registers around the end of memory, over the font and itself. -/
theorem session_faultless_of_store :
    ∃ e events, Emulator.start #[0xAF, 0xFF, 0xFF, 0x1E, 0xFF, 0x55] 0 = .ok (e, events) ∧
      ∃ e', e.after (fun _ => 0) (List.replicate 3 (.step fun _ => true)) = .ok e' ∧
        (∀ keys bytes, Checked.step e'.machine keys bytes = .ok (e'.machine.step keys bytes)) ∧
        Checked.tick e'.machine = .ok e'.machine.tick :=
  ⟨_, _, rfl, @session_faultless #[0xAF, 0xFF, 0xFF, 0x1E, 0xFF, 0x55] 0 _ _ rfl (fun _ => 0) _⟩

end Chip8
