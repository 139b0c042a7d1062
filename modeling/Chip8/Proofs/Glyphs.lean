import Chip8.Proofs.Redrawing
import Chip8.Proofs.Timekeeping
import Chip8.Proofs.Transfers

/-!
# Glyphs of the font

FX29 and then DXY5 draw a digit of the font. A ROM is loaded above the font, a reset starts from a fresh memory,
and a step changes no cell but those to which it stores. So the font is as it was built in unless a program stored
to one of its cells since the last reset, and the five bytes from the index register on are a glyph. A program
that stores to the font what was there already is not considered.
-/

namespace Chip8
set_option autoImplicit false

/-- The addresses to which an instruction stores a byte each when the index register holds `index`. -/
def Instruction.stores (index : UInt16) : Instruction → List UInt16
  | storeDecimal _ => (List.range 3).map fun k => index + UInt16.ofNat k
  | storeRegisters x => (List.range (x.toNat + 1)).map fun k => index + UInt16.ofNat k
  | _ => []

theorem Instruction.cell_mem_writes_iff (i : Instruction) (index : UInt16) (k : Fin memorySize) :
    .cell k ∈ i.writes index ↔ ∃ a ∈ i.stores index, Memory.cell a = k := by
  cases i with
  | storeDecimal x => simp [writes, stores, Part.byte]
  | storeRegisters x => simp [writes, stores, Part.byte]
  | _ => simp [writes, stores, Part.v]

namespace Memory

def InFont (k : Fin memorySize) : Prop := 0x50 ≤ k.1 ∧ k.1 ≤ 0x9F

instance (k : Fin memorySize) : Decidable (InFont k) := inferInstanceAs (Decidable (_ ∧ _))

/-- The five rows of the glyph of a digit, of which the low four bits count. -/
def glyphRows (digit : UInt8) : List UInt8 := (font.drop (5 * (digit.toNat % 16))).take 5

theorem font_length : font.length = 80 := rfl

@[simp] theorem glyphRows_length (digit : UInt8) : (glyphRows digit).length = 5 := by
  rw [glyphRows, List.length_take, List.length_drop, font_length]
  omega

/-- A ROM is loaded above the font. -/
theorem load_inFont {m loaded : Memory} {rom : Rom} (h : m.load rom = .ok loaded) {k : Fin memorySize}
    (hk : InFont k) : loaded.cells.get k = m.cells.get k := by
  by_cases hsize : rom.size ≤ 3583
  · obtain ⟨fits, hload⟩ := m.load_of_size_le rom hsize
    obtain rfl := Except.ok.inj (hload.symm.trans h)
    apply overwrite_get_outside
    have hlast := hk.2
    rw [programStart]
    omega
  · rw [m.load_of_lt_size rom (Nat.lt_of_not_le hsize)] at h
    cases h

section Glyph
variable {m : Memory} (h : ∀ k, InFont k → m.cells.get k = blank.cells.get k)
include h

theorem read_font {a : UInt16} {j : Nat} (ha : a.toNat = 0x50 + j) (hj : j < font.length) :
    m.read a = font[j] := by
  rw [font_length] at hj
  have hcell : (cell a).1 = 0x50 + j := by
    simp only [cell, memorySize, ha]
    omega
  have hfont : InFont (cell a) := by
    rw [InFont, hcell]
    omega
  have hfresh : m.read a = blank.read a := h (cell a) hfont
  rw [hfresh]
  exact overwrite_get_inside _ _ _ hcell

theorem slice_glyph (digit : UInt8) : m.slice (glyph digit) 5 = glyphRows digit := by
  apply List.ext_getElem
  · rw [slice_length, glyphRows_length]
  · intro r hr _
    rw [slice_length] at hr
    have haddress : (glyph digit + UInt16.ofNat r).toNat = 0x50 + (5 * (digit.toNat % 16) + r) := by
      simp only [glyph, fontStart, UInt16.toNat_add, UInt16.toNat_mul, UInt16.toNat_ofNat',
        UInt8.toNat_toUInt16, UInt8.toNat_mod, UInt8.reduceToNat, UInt16.reduceToNat]
      omega
    have hfits : 5 * (digit.toNat % 16) + r < font.length := by
      rw [font_length]
      omega
    rw [slice_getElem, read_font h haddress hfits]
    simp [glyphRows]

end Glyph
end Memory

namespace Screen

/-- The rows of a sprite with its top left corner at `(x, y)` were added to the screen by exclusive or, with the
leftmost bit first and wrapped around both edges, and no other cell was changed. -/
structure Xored (s s' : Screen) (x y : Nat) (rows : List UInt8) : Prop where
  under : ∀ r (h : r < rows.length), ∀ b < 8, s'.cells.get (wrapped (x + b) (y + r)) =
    s.cells.get (wrapped (x + b) (y + r)) ^^^ (rows[r].toNat.testBit (7 - b)).toUInt8
  beside : ∀ p, (∀ r < rows.length, ∀ b < 8, wrapped (x + b) (y + r) ≠ p) →
    s'.cells.get p = s.cells.get p

/-- The bits of a sprite no longer than the screen land on cells of their own. -/
theorem covers_wrapped_iff {x y r b : Nat} {rows : List UInt8} (h : rows.length ≤ 32)
    (hr : r < rows.length) (hb : b < 8) :
    Covers x y rows (wrapped (x + b) (y + r)) ↔ rows[r].toNat.testBit (7 - b) = true := by
  have hrow : rows.getD r 0 = rows[r] := by simp [hr]
  rw [← hrow]
  constructor
  · rintro ⟨r', hr', b', hb', hset, hsame⟩
    have hplace := wrapped_eq_iff _ _ _ |>.mp hsame
    have hown := wrapped_eq_iff (x + b) (y + r) _ |>.mp rfl
    obtain rfl : r' = r := by omega
    obtain rfl : b' = b := by omega
    exact hset
  · intro hset
    exact ⟨r, hr, b, hb, hset, rfl⟩

theorem wrapped_mod_mod (x y b r : Nat) : wrapped (x % 64 + b) (y % 32 + r) = wrapped (x + b) (y + r) := by
  simp only [wrapped, screenWidth, screenHeight, Nat.mod_add_mod]

section Draw
variable {s : Screen} (h : s.Binary) (x y : UInt8) {rows : List UInt8} (hrows : rows.length ≤ 32)
include h hrows

theorem draw_get_covered {p : Fin screenSize} (hp : Covers x.toNat y.toNat rows p) :
    (s.draw x y rows).1.cells.get p = s.cells.get p ^^^ 1 := by
  have hdrawn := draw_toNat h x y rows p
  have hone := hits_le_one x.toNat y.toNat p hrows
  have hpos := (hits_pos_iff x.toNat y.toNat rows p).mpr hp
  have hhits : hits x.toNat y.toNat rows p = 1 := by omega
  apply UInt8.toNat_inj.mp
  rw [hdrawn, hhits]
  rcases get_eq h p with hdark | hlit
  · rw [hdark]
    rfl
  · rw [hlit]
    rfl

omit hrows in
theorem draw_get_uncovered {p : Fin screenSize} (hp : ¬ Covers x.toNat y.toNat rows p) :
    (s.draw x y rows).1.cells.get p = s.cells.get p := by
  have hdrawn := draw_toNat h x y rows p
  have hnone : hits x.toNat y.toNat rows p = 0 := by
    rw [← hits_pos_iff] at hp
    omega
  have hle := get_le h p
  apply UInt8.toNat_inj.mp
  omega

theorem draw_xored :
    Xored s (s.draw x y rows).1 (x.toNat % 64) (y.toNat % 32) rows where
  under := by
    intro r hr b hb
    rw [wrapped_mod_mod]
    have hcovers := covers_wrapped_iff (x := x.toNat) (y := y.toNat) hrows hr hb
    cases hset : rows[r].toNat.testBit (7 - b) with
    | true => exact draw_get_covered h x y hrows (hcovers.mpr hset)
    | false =>
      rw [draw_get_uncovered h x y (by simp [hcovers, hset])]
      exact (UInt8.xor_zero).symm
  beside := by
    intro p hp
    apply draw_get_uncovered h
    rintro ⟨r, hr, b, hb, _, hsame⟩
    apply hp r hr b hb
    rwa [wrapped_mod_mod]

end Draw
end Screen

namespace Machine
variable {m : Machine} (keys keys' : Keys) (random random' : RandomBytes)

theorem step_cell {k : Fin memorySize}
    (h : ∀ i, m.upcoming = some i → ∀ a ∈ i.stores m.i, Memory.cell a ≠ k) :
    (m.step keys random).machine.memory.cells.get k = m.memory.cells.get k := by
  have hsame : (Part.cell k).Same m (m.step keys random).machine := by
    apply step_same_of_upcoming
    · simp
    · simp
    · simp [Part.v]
    · intro i hi hwritten
      obtain ⟨a, ha, hcell⟩ := (i.cell_mem_writes_iff m.i k).mp hwritten
      exact h i hi a ha hcell
  exact hsame

theorem obey_glyph_draw (hscreen : m.screen.Binary)
    (hfont : ∀ k, Memory.InFont k → m.memory.cells.get k = Memory.blank.cells.get k) (x a b : UInt8) :
    m.screen.Xored ((m.obey keys random (.loadGlyph x)).obey keys' random' (.draw a b 5)).screen
      ((m.v.get a).toNat % 64) ((m.v.get b).toNat % 32) (Memory.glyphRows (m.v.get x)) := by
  have hrows : m.memory.slice (Memory.glyph (m.v.get x)) 5 = Memory.glyphRows (m.v.get x) :=
    Memory.slice_glyph hfont _
  rw [obey_draw_screen]
  change m.screen.Xored (m.screen.draw _ _ (m.memory.slice (Memory.glyph (m.v.get x)) 5)).1 _ _ _
  rw [hrows]
  apply Screen.draw_xored hscreen
  rw [Memory.glyphRows_length]
  decide

end Machine

namespace Emulator

def Moment.stores (x : Moment) : List UInt16 :=
  match x.op with
  | .step _ => (x.emulator.machine.upcoming.map (Instruction.stores x.emulator.machine.i)).getD []
  | _ => []

/-- A cell to which no step stored since the last reset holds what it held when the ROM was started. -/
structure Intact (rom : Rom) (memory : Memory) (xs : List Moment) (e : Emulator) : Prop where
  rom_eq : e.rom = rom
  wellFormed : e.machine.WellFormed
  cell_eq : ∀ k, (∀ x ∈ Moment.sinceReset xs, ∀ a ∈ x.stores, Memory.cell a ≠ k) →
    e.machine.memory.cells.get k = memory.cells.get k

theorem Intact.perform {rom : Rom} {memory : Memory} (hload : Memory.blank.load rom = .ok memory)
    {xs : List Moment} {e e' : Emulator} {random : RandomBytes} {op : Operation}
    (h : Intact rom memory xs e) (hop : e.perform random op = .ok e') :
    Intact rom memory (xs ++ [⟨e, op⟩]) e' := by
  have hwell : e'.machine.WellFormed := by
    obtain ⟨_, hmachine⟩ := perform_machine hop
    rw [hmachine]
    exact Machine.perform_wellFormed h.wellFormed random _
  cases op with
  | reset =>
    have hfits : Memory.blank.load e.rom = .ok memory := by rwa [h.rom_eq]
    rw [Emulator.perform, reset_eq_ok hfits] at hop
    obtain rfl := Except.ok.inj hop
    exact ⟨h.rom_eq, hwell, fun _ _ => rfl⟩
  | step keys =>
    obtain rfl := Except.ok.inj hop
    refine ⟨h.rom_eq, hwell, ?_⟩
    intro k hk
    rw [Moment.sinceReset_concat rfl, List.forall_mem_cons] at hk
    rw [← h.cell_eq k hk.2]
    apply Machine.step_cell
    intro i hi a ha
    apply hk.1
    simpa [Moment.stores, hi] using ha
  | tick | clearDirty =>
    obtain rfl := Except.ok.inj hop
    refine ⟨h.rom_eq, hwell, ?_⟩
    intro k hk
    rw [Moment.sinceReset_concat rfl, List.forall_mem_cons] at hk
    exact h.cell_eq k hk.2

end Emulator

/-- In every session in which no step since the start or the last reset stored to a cell of the font, FX29 and then
DAB5 add the glyph of the low digit of Vx to the screen by exclusive or, with its top left corner where Va and Vb
say, and change nothing else on it. If these are the next two instructions, this is what two steps lead to. -/
theorem glyphs_drawn_as_built_in {rom : Rom} {draws : Nat} {e : Emulator} {events : List Event}
    (h : Emulator.start rom draws = .ok (e, events)) (random : RandomBytes)
    (ops : List Emulator.Operation) :
    ∃ e', e.after random ops = .ok e' ∧
      ((∀ y ∈ Emulator.Moment.sinceReset (e.moments random ops), ∀ address ∈ y.stores,
          ¬ Memory.InFont (Memory.cell address)) →
        ∀ (keys keys' : Keys) (x a b : UInt8),
          let m := e'.machine
          let pointed := m.obey keys random (.loadGlyph x)
          let drawn := pointed.obey keys' random (.draw a b 5)
          m.screen.Xored drawn.screen ((m.v.get a).toNat % 64) ((m.v.get b).toNat % 32)
            (Memory.glyphRows (m.v.get x)) ∧
          (m.upcoming = some (.loadGlyph x) → pointed.upcoming = some (.draw a b 5) →
            e'.after random [.step keys, .step keys'] = .ok ⟨drawn, rom, false⟩)) := by
  obtain ⟨memory, hload, rfl, _⟩ := Emulator.start_eq_ok h
  have hstart : Emulator.Intact rom memory [] ⟨.start memory draws, rom, true⟩ :=
    ⟨rfl, Machine.start_wellFormed memory draws, fun _ _ => rfl⟩
  obtain ⟨e', hafter, hintact⟩ := Emulator.moments_keep random
    (fun xs e op e' hintact hop => hintact.perform hload hop) hload hstart ops
  refine ⟨e', hafter, ?_⟩
  intro hstores keys keys' x a b m pointed drawn
  have hfont : ∀ k, Memory.InFont k → m.memory.cells.get k = Memory.blank.cells.get k := by
    intro k hk
    rw [← Memory.load_inFont hload hk]
    apply hintact.cell_eq
    rintro y hy address haddress rfl
    exact hstores y hy address haddress hk
  refine ⟨Machine.obey_glyph_draw keys keys' random random hintact.wellFormed.screen hfont x a b, ?_⟩
  intro hpoint hdraw
  have hdrawn : ((m.step keys random).machine.step keys' random).machine = drawn :=
    Machine.step_step_obeys keys random keys' random hpoint hdraw
  rw [← hdrawn, ← hintact.rom_eq]
  rfl

/-- The ROM stores three digits, to the font unless a key is held, and draws a glyph around the lower right
corner. -/
def signing : Rom := #[0xE0, 0x9E, 0xA0, 0x50, 0xF0, 0x33, 0x61, 0xFF, 0xF1, 0x29, 0xD1, 0x15]

/-- The digits go to the font first, and after the reset to the first cells of memory. -/
def signingSession : List Emulator.Operation :=
  let step held := .step fun _ => held
  [step false, step false, step false, .reset, step true, step false, step false, .tick]

theorem glyphs_drawn_as_built_in_of_signing :
    ∃ e events e' drawn, Emulator.start signing 0 = .ok (e, events) ∧
      (e.moments (fun _ => 0) signingSession).flatMap Emulator.Moment.stores =
        [0x50, 0x51, 0x52, 0, 1, 2] ∧
      (∀ y ∈ Emulator.Moment.sinceReset (e.moments (fun _ => 0) signingSession),
        ∀ address ∈ y.stores, ¬ Memory.InFont (Memory.cell address)) ∧
      e.after (fun _ => 0) signingSession = .ok e' ∧
      e'.after (fun _ => 0) [.step fun _ => false, .step fun _ => true] = .ok drawn ∧
      e'.machine.screen.Xored drawn.machine.screen 63 31 [0xF0, 0x80, 0xF0, 0x80, 0x80] := by
  have hstart : ∃ e events, Emulator.start signing 0 = .ok (e, events) := ⟨_, _, rfl⟩
  obtain ⟨e, events, he⟩ := hstart
  obtain ⟨e', hafter, hglyphs⟩ := glyphs_drawn_as_built_in he (fun _ => 0) signingSession
  have hstores : (e.moments (fun _ => 0) signingSession).flatMap Emulator.Moment.stores =
      [0x50, 0x51, 0x52, 0, 1, 2] := by
    cases he
    decide +kernel
  have hrecent : (Emulator.Moment.sinceReset (e.moments (fun _ => 0) signingSession)).flatMap
      Emulator.Moment.stores = [0, 1, 2] := by
    cases he
    decide +kernel
  have hbeside : ∀ y ∈ Emulator.Moment.sinceReset (e.moments (fun _ => 0) signingSession),
      ∀ address ∈ y.stores, ¬ Memory.InFont (Memory.cell address) := by
    intro y hy address haddress
    have hmem := List.mem_flatMap.mpr ⟨y, hy, haddress⟩
    rw [hrecent, List.mem_cons, List.mem_cons, List.mem_singleton] at hmem
    rcases hmem with rfl | rfl | rfl <;> decide
  have hfacts : (e.after (fun _ => 0) signingSession).toOption.map (fun e =>
      let m := e.machine
      (m.v.get 1, m.upcoming, (m.obey (fun _ => false) (fun _ => 0) (.loadGlyph 1)).upcoming)) =
      some (0xFF, some (.loadGlyph 1), some (.draw 1 1 5)) := by
    cases he
    decide +kernel
  rw [hafter] at hfacts
  simp only [Except.toOption, Option.map_some, Option.some.injEq, Prod.mk.injEq] at hfacts
  obtain ⟨hregister, hpoint, hdraw⟩ := hfacts
  obtain ⟨hxored, hsteps⟩ := hglyphs hbeside (fun _ => false) (fun _ => true) 1 1 1
  rw [hregister] at hxored
  exact ⟨e, events, e', _, he, hstores, hbeside, hafter, hsteps hpoint hdraw, hxored⟩

end Chip8
