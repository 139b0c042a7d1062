import Chip8.Proofs.Footprint
import Chip8.Proofs.Sprites

/-!
# A sprite drawn twice

DXYN twice in a row takes back what it did. A sprite of at most fifteen rows names each cell once, so the first
drawing collides where a set bit meets a lit cell and the second where the cell was dark before: one of the two
collides unless the sprite has no set bit at all. VF tells of either in turn, which is why it must not be one of
the coordinates.
-/

namespace Chip8
set_option autoImplicit false

namespace Screen

/-- A set bit of a sprite with its top left corner at `(x, y)` lands on the cell. -/
def Covers (x y : Nat) (rows : List UInt8) (p : Fin screenSize) : Prop :=
  ∃ r < rows.length, ∃ b < 8,
    (rows.getD r 0).toNat.testBit (7 - b) = true ∧ wrapped (x + b) (y + r) = p

section Hits
variable (x y : Nat) (rows : List UInt8) (p : Fin screenSize)

theorem hits_pos_iff : 0 < hits x y rows p ↔ Covers x y rows p := by
  rw [hits, Finset.card_pos]
  constructor
  · rintro ⟨⟨r, b⟩, hmem⟩
    rw [Finset.mem_filter, Finset.mem_product, Finset.mem_range, Finset.mem_range] at hmem
    obtain ⟨⟨hr, hb⟩, hset, hplace⟩ := hmem
    exact ⟨r, hr, b, hb, hset, wrapped_eq_iff _ _ _ |>.mpr hplace⟩
  · rintro ⟨r, hr, b, hb, hset, hplace⟩
    refine ⟨(r, b), ?_⟩
    rw [Finset.mem_filter, Finset.mem_product, Finset.mem_range, Finset.mem_range]
    exact ⟨⟨hr, hb⟩, hset, wrapped_eq_iff _ _ _ |>.mp hplace⟩

/-- A sprite no longer than the screen does not come round to itself. -/
theorem hits_le_one {rows : List UInt8} (h : rows.length ≤ 32) : hits x y rows p ≤ 1 := by
  apply Finset.card_le_one.mpr
  rintro ⟨r, b⟩ hmem ⟨r', b'⟩ hmem'
  rw [Finset.mem_filter, Finset.mem_product, Finset.mem_range, Finset.mem_range] at hmem hmem'
  obtain ⟨⟨hr, hb⟩, _, hcolumn, hrow⟩ := hmem
  obtain ⟨⟨hr', hb'⟩, _, hcolumn', hrow'⟩ := hmem'
  rw [Prod.mk.injEq]
  omega

end Hits

section Twice
variable {s : Screen} (h : s.Binary) (x y : UInt8) (rows : List UInt8)
include h

theorem draw_draw_cells : ((s.draw x y rows).1.draw x y rows).1.cells = s.cells := by
  apply Vector.ext
  intro k hk
  have htwice := draw_toNat (draw_binary h x y rows) x y rows ⟨k, hk⟩
  have hle := get_le h ⟨k, hk⟩
  rw [draw_toNat h] at htwice
  apply UInt8.toNat_inj.mp
  change (((s.draw x y rows).1.draw x y rows).1.cells.get ⟨k, hk⟩).toNat = (s.cells.get ⟨k, hk⟩).toNat
  omega

variable {rows} (hrows : rows.length ≤ 32)
include hrows

theorem draw_collided_lit : (s.draw x y rows).2 = true ↔
    ∃ p, Covers x.toNat y.toNat rows p ∧ s.cells.get p = 1 := by
  rw [draw_collided_iff h]
  apply exists_congr
  intro p
  have hle := get_le h p
  have hone := hits_le_one x.toNat y.toNat p hrows
  have hlit : s.cells.get p = 1 ↔ (s.cells.get p).toNat = 1 := UInt8.toNat_inj.symm
  rw [← hits_pos_iff, hlit]
  omega

/-- Drawn again, a sprite puts out the cells that were dark before. -/
theorem redraw_collided_dark : ((s.draw x y rows).1.draw x y rows).2 = true ↔
    ∃ p, Covers x.toNat y.toNat rows p ∧ s.cells.get p = 0 := by
  rw [draw_collided_iff (draw_binary h x y rows)]
  apply exists_congr
  intro p
  have hle := get_le h p
  have hone := hits_le_one x.toNat y.toNat p hrows
  have hdark : s.cells.get p = 0 ↔ (s.cells.get p).toNat = 0 := UInt8.toNat_inj.symm
  rw [draw_toNat h, ← hits_pos_iff, hdark]
  omega

end Twice
end Screen

theorem exists_bit_iff (byte : UInt8) : (∃ b < 8, byte.toNat.testBit (7 - b) = true) ↔ byte ≠ 0 := by
  constructor
  · rintro ⟨b, _, hset⟩ rfl
    simp at hset
  · intro hne
    have hpos : byte.toNat ≠ 0 := fun hzero => hne (UInt8.toNat_inj.mp hzero)
    obtain ⟨k, hk⟩ := Nat.exists_testBit_of_ne_zero hpos
    have hlarge : 2 ^ k ≤ byte.toNat := Nat.ge_two_pow_of_testBit hk
    have hlt : k < 8 := (Nat.pow_lt_pow_iff_right (by decide)).mp (Nat.lt_of_le_of_lt hlarge byte.toNat_lt)
    refine ⟨7 - k, by omega, ?_⟩
    rwa [Nat.sub_sub_self (Nat.le_of_lt_succ hlt)]

namespace Machine
variable (m : Machine)

/-- A set bit of the sprite that DXYN draws lands on a cell that shows `cell`. The sprite lies in the `n` bytes
from the index register on. -/
def SpriteMeets (x y n cell : UInt8) : Prop :=
  ∃ r < n.toNat, ∃ b < 8,
    (m.memory.read (m.i + UInt16.ofNat r)).toNat.testBit (7 - b) = true ∧
      m.screen.cells.get (Screen.wrapped ((m.v.get x).toNat + b) ((m.v.get y).toNat + r)) = cell

theorem spriteMeets_iff (x y n cell : UInt8) : m.SpriteMeets x y n cell ↔
    ∃ p, Screen.Covers (m.v.get x).toNat (m.v.get y).toNat (m.memory.slice m.i n.toNat) p ∧
      m.screen.cells.get p = cell := by
  have hrow (r : Nat) (hr : r < n.toNat) :
      (m.memory.slice m.i n.toNat).getD r 0 = m.memory.read (m.i + UInt16.ofNat r) := by
    simp [Memory.slice, hr]
  constructor
  · rintro ⟨r, hr, b, hb, hset, hcell⟩
    refine ⟨_, ⟨r, ?_, b, hb, ?_, rfl⟩, hcell⟩
    · rwa [Memory.slice_length]
    · rwa [hrow r hr]
  · rintro ⟨p, ⟨r, hr, b, hb, hset, rfl⟩, hcell⟩
    rw [Memory.slice_length] at hr
    rw [hrow r hr] at hset
    exact ⟨r, hr, b, hb, hset, hcell⟩

theorem spriteMeets_lit_or_dark {m : Machine} (h : m.screen.Binary) (x y n : UInt8) :
    m.SpriteMeets x y n 1 ∨ m.SpriteMeets x y n 0 ↔
      ∃ r < n.toNat, m.memory.read (m.i + UInt16.ofNat r) ≠ 0 := by
  constructor
  · rintro (⟨r, hr, b, hb, hset, _⟩ | ⟨r, hr, b, hb, hset, _⟩)
    · exact ⟨r, hr, (exists_bit_iff _).mp ⟨b, hb, hset⟩⟩
    · exact ⟨r, hr, (exists_bit_iff _).mp ⟨b, hb, hset⟩⟩
  · rintro ⟨r, hr, hbyte⟩
    obtain ⟨b, hb, hset⟩ := (exists_bit_iff _).mpr hbyte
    rcases Screen.get_eq h (Screen.wrapped ((m.v.get x).toNat + b) ((m.v.get y).toNat + r)) with
      hdark | hlit
    · exact Or.inr ⟨r, hr, b, hb, hset, hdark⟩
    · exact Or.inl ⟨r, hr, b, hb, hset, hlit⟩

variable (keys : Keys) (random : RandomBytes) (x y n : UInt8)

theorem obey_draw_screen : (m.obey keys random (.draw x y n)).screen =
    (m.screen.draw (m.v.get x) (m.v.get y) (m.memory.slice m.i n.toNat)).1 :=
  rfl

theorem obey_draw_flag : (m.obey keys random (.draw x y n)).v.get 0xF = 1 ↔
    (m.screen.draw (m.v.get x) (m.v.get y) (m.memory.slice m.i n.toNat)).2 = true := by
  have hone (flag : Bool) : flag.toUInt8 = 1 ↔ flag = true := by
    cases flag <;> decide
  rw [← hone, ← m.v.get_set 0xF (Bool.toUInt8 _)]
  rfl

theorem obey_draw_get {r : UInt8} (hr : r.toNat < 15) :
    (m.obey keys random (.draw x y n)).v.get r = m.v.get r := by
  apply Registers.set_get
  intro hslot
  have hlast := Registers.slot_inj (by omega) (by decide) hslot
  subst hlast
  exact absurd hr (by decide)

theorem obey_draw_same {part : Part} (hpc : part ≠ .pc) (hscreen : part ≠ .screen)
    (hflag : part ≠ .v 0xF) : part.Same m (m.obey keys random (.draw x y n)) := by
  apply obey_same keys random hpc
  simp [Instruction.writes, hscreen, hflag]

end Machine

/-- A sprite drawn twice at the same place leaves every cell as it was. The first drawing collides exactly if one
of its set bits lands on a lit cell, the second if one lands on a cell that was dark at first, and so one of them
does unless all bytes of the sprite are zero. Apart from VF, the screen's mark and the program counter, nothing
else changes. Two steps lead to this if they fetch the two instructions. -/
theorem redrawing_restores {m : Machine} (h : m.screen.Binary) (keys keys' : Keys)
    (random random' : RandomBytes) {x y n : UInt8} (hx : x.toNat < 15) (hy : y.toNat < 15)
    (hn : n.toNat < 16) :
    let once := m.obey keys random (.draw x y n)
    let twice := once.obey keys' random' (.draw x y n)
    (∀ p, twice.screen.cells.get p = m.screen.cells.get p) ∧
    (once.v.get 0xF = 1 ↔ m.SpriteMeets x y n 1) ∧
    (twice.v.get 0xF = 1 ↔ m.SpriteMeets x y n 0) ∧
    (once.v.get 0xF = 1 ∨ twice.v.get 0xF = 1 ↔
      ∃ r < n.toNat, m.memory.read (m.i + UInt16.ofNat r) ≠ 0) ∧
    (∀ part : Part, part ≠ .pc → part ≠ .screen → part ≠ .v 0xF →
      part.Same m once ∧ part.Same m twice) ∧
    (m.upcoming = some (.draw x y n) → once.upcoming = some (.draw x y n) →
      ((m.step keys random).machine.step keys' random').machine = twice) := by
  intro once twice
  have hrows : (m.memory.slice m.i n.toNat).length ≤ 32 := by
    rw [Memory.slice_length]
    omega
  have hvx : once.v.get x = m.v.get x := m.obey_draw_get keys random x y n hx
  have hvy : once.v.get y = m.v.get y := m.obey_draw_get keys random x y n hy
  have hagain := once.obey_draw_screen keys' random' x y n
  have hflag := once.obey_draw_flag keys' random' x y n
  rw [hvx, hvy] at hagain hflag
  have hfirst : once.v.get 0xF = 1 ↔ m.SpriteMeets x y n 1 := by
    rw [m.spriteMeets_iff, ← Screen.draw_collided_lit h _ _ hrows]
    exact m.obey_draw_flag keys random x y n
  have hsecond : twice.v.get 0xF = 1 ↔ m.SpriteMeets x y n 0 := by
    rw [m.spriteMeets_iff, ← Screen.redraw_collided_dark h _ _ hrows]
    exact hflag
  refine ⟨?_, hfirst, hsecond, ?_, ?_, Machine.step_step_obeys keys random keys' random'⟩
  · intro p
    have hcells := Screen.draw_draw_cells h (m.v.get x) (m.v.get y) (m.memory.slice m.i n.toNat)
    rw [← hcells]
    exact congrArg (fun screen => screen.cells.get p) hagain
  · rw [hfirst, hsecond, Machine.spriteMeets_lit_or_dark h]
  · intro part hpc hscreen hflag
    have honce : part.Same m once := m.obey_draw_same keys random x y n hpc hscreen hflag
    have hagain : part.Same once twice := once.obey_draw_same keys' random' x y n hpc hscreen hflag
    exact ⟨honce, part.same_trans honce hagain⟩

/-- Draws three bytes twice, the last two of which share a cell, over the lower corner of a screen with a bar in
it. -/
def stamping : Machine :=
  { Machine.start ((Memory.blank.store 0xFFFE [0x81, 0x00, 0x3C]).store 0x200
      [0xD1, 0x23, 0xD1, 0x23]) 0 with
    v := (Registers.zero.set 1 60).set 2 30
    i := 0xFFFE
    screen := (Screen.blank.draw 62 31 [0xFF]).1 }

theorem redrawing_restores_of_stamping :
    let once := stamping.obey (fun _ => false) (fun _ => 0) (.draw 1 2 3)
    let twice := once.obey (fun _ => false) (fun _ => 0) (.draw 1 2 3)
    stamping.screen.Binary ∧ (∀ p, twice.screen.cells.get p = stamping.screen.cells.get p) ∧
      once.v.get 0xF = 1 ∧ twice.v.get 0xF = 1 ∧ twice.i = 0xFFFE ∧
      ((stamping.step (fun _ => false) (fun _ => 0)).machine.step (fun _ => false)
        (fun _ => 0)).machine = twice := by
  have hblank : Screen.blank.Binary := Screen.dark_binary true
  have hbar := Screen.draw_binary hblank 62 31 [0xFF]
  have hbinary : stamping.screen.Binary := hbar
  have hlit : stamping.SpriteMeets 1 2 3 1 :=
    ⟨1, by decide, 2, by decide, by decide +kernel, by decide +kernel⟩
  have hdark : stamping.SpriteMeets 1 2 3 0 :=
    ⟨2, by decide, 2, by decide, by decide +kernel, by decide +kernel⟩
  obtain ⟨hcells, hfirst, hsecond, _, hsame, hsteps⟩ := redrawing_restores hbinary (fun _ => false)
    (fun _ => false) (fun _ => 0) (fun _ => 0) (x := 1) (y := 2) (n := 3) (by decide) (by decide)
    (by decide)
  refine ⟨hbinary, hcells, hfirst.mpr hlit, hsecond.mpr hdark, ?_,
    hsteps (by decide +kernel) (by decide +kernel)⟩
  exact (hsame .index (by decide) (by decide) (by decide)).2

end Chip8
