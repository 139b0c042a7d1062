import Chip8.Screen

/-!
# Single pixels

Coordinates of 64 bits and the cells that they name. A pair names the cell of its number, and pairs of one number name
one cell. A pair whose number is beyond the screen is refused, for one of three reasons that exact arithmetic tells
apart, and a refused call leaves the screen as it was.
-/

namespace Chip8.Screen
set_option autoImplicit false

def number (x y : UInt64) : Nat := 64 * y.toNat + x.toNat

inductive Misses (x y : UInt64) : PixelError → Prop where
  | product (row : UInt64.size ≤ 64 * y.toNat) : Misses x y .productOverflow
  | sum (row : 64 * y.toNat < UInt64.size) (cell : UInt64.size ≤ number x y) : Misses x y .sumOverflow
  | bounds (word : number x y < UInt64.size) (cell : 2048 ≤ number x y) : Misses x y (.outOfBounds (number x y))

section Index
variable {x y : UInt64}

theorem row_eq : y.toNat * screenWidth = 64 * y.toNat := Nat.mul_comm _ _

theorem index_of_lt (h : number x y < 2048) : index x y = .ok ⟨number x y, h⟩ := by
  have hcell : 64 * y.toNat + x.toNat < screenSize := h
  have hproduct : ¬ UInt64.size ≤ 64 * y.toNat := by
    simp only [UInt64.size, screenSize] at *
    omega
  have hsum : ¬ UInt64.size ≤ 64 * y.toNat + x.toNat := by
    simp only [UInt64.size, screenSize] at *
    omega
  simp only [index, row_eq, if_neg hproduct, if_neg hsum, dif_pos hcell]
  rfl

theorem index_of_misses {e : PixelError} (h : Misses x y e) : index x y = .error e := by
  cases h with
  | product row => simp only [index, row_eq, if_pos row]
  | sum row cell =>
    have hsum : UInt64.size ≤ 64 * y.toNat + x.toNat := cell
    simp only [index, row_eq, if_neg (Nat.not_le_of_lt row), if_pos hsum]
  | bounds word cell =>
    have hsum : ¬ UInt64.size ≤ 64 * y.toNat + x.toNat := Nat.not_le_of_lt word
    have hproduct : ¬ UInt64.size ≤ 64 * y.toNat := mt (Nat.le_add_right_of_le ·) hsum
    have hcell : ¬ 64 * y.toNat + x.toNat < screenSize := Nat.not_lt_of_le cell
    simp only [index, row_eq, if_neg hproduct, if_neg hsum, dif_neg hcell]
    rfl

theorem lt_of_misses {e : PixelError} (h : Misses x y e) : 2048 ≤ number x y := by
  have hsize : 2048 ≤ UInt64.size := by decide
  cases h with
  | product row =>
    unfold number
    omega
  | sum row cell => omega
  | bounds word cell => exact cell

theorem exists_misses_iff : (∃ e, Misses x y e) ↔ 2048 ≤ number x y := by
  constructor
  · rintro ⟨e, he⟩
    exact lt_of_misses he
  · intro hcell
    by_cases hproduct : UInt64.size ≤ 64 * y.toNat
    · exact ⟨_, .product hproduct⟩
    by_cases hsum : UInt64.size ≤ number x y
    · exact ⟨_, .sum (Nat.lt_of_not_le hproduct) hsum⟩
    · exact ⟨_, .bounds (Nat.lt_of_not_le hsum) hcell⟩

theorem index_cases : (∃ h : number x y < 2048, index x y = .ok ⟨number x y, h⟩) ∨
    (∃ e, Misses x y e ∧ index x y = .error e) := by
  rcases Nat.lt_or_ge (number x y) 2048 with hcell | hcell
  · exact Or.inl ⟨hcell, index_of_lt hcell⟩
  · obtain ⟨e, he⟩ := exists_misses_iff.mpr hcell
    exact Or.inr ⟨e, he, index_of_misses he⟩

end Index

def look (x y : UInt64) : EStateM PixelError Screen UInt8 := do
  MonadExcept.ofExcept ((← get).pixel x y)

/-- Sets a pixel statement by statement: the cell is looked up, written, and then the screen is marked. What fails
leaves the screen as it is by then. -/
def put (x y : UInt64) (on : Bool) : EStateM PixelError Screen Unit := do
  let k ← MonadExcept.ofExcept (index x y)
  modify fun s => { s with cells := s.cells.set k.1 on.toUInt8 k.2 }
  modify fun s => { s with dirty := true }

/-- The screen that a call leaves, be it answered or refused. -/
def left {α : Type} : EStateM.Result PixelError Screen α → Screen
  | .ok _ s => s
  | .error _ s => s

inductive Call where
  | look (x y : UInt64)
  | put (x y : UInt64) (on : Bool)

def afterCall (s : Screen) : Call → Screen
  | .look x y => left ((look x y).run s)
  | .put x y on => left ((put x y on).run s)

def afterCalls (s : Screen) (calls : List Call) : Screen := calls.foldl afterCall s

/-- What a call sets the cell of a number to, if it does. -/
def Call.value? (k : Nat) : Call → Option Bool
  | look _ _ => none
  | put x y on => if number x y = k then some on else none

def Call.sets : Call → Bool
  | look _ _ => false
  | put x y _ => number x y < 2048

/-- What the last of the calls that set the cell of a number set it to. -/
def lastSet (k : Nat) (calls : List Call) : Option Bool := calls.reverse.findSome? (Call.value? k)

section Access
variable {s : Screen} {x y : UInt64} {on : Bool}

theorem pixel_of_misses {e : PixelError} (h : Misses x y e) : s.pixel x y = .error e := by
  unfold pixel
  rw [index_of_misses h]
  rfl

theorem pixel_of_lt (h : number x y < 2048) : s.pixel x y = .ok (s.cells.get ⟨number x y, h⟩) := by
  unfold pixel
  rw [index_of_lt h]
  rfl

theorem pixel_eq_error_iff {e : PixelError} : s.pixel x y = .error e ↔ Misses x y e := by
  constructor
  · intro h
    rcases Nat.lt_or_ge (number x y) 2048 with hcell | hcell
    · rw [pixel_of_lt hcell] at h
      contradiction
    · obtain ⟨e', he'⟩ := exists_misses_iff.mpr hcell
      rw [pixel_of_misses he'] at h
      exact Except.error.inj h ▸ he'
  · exact pixel_of_misses

theorem put_of_misses {e : PixelError} (h : Misses x y e) : (put x y on).run s = .error e s := by
  unfold put
  rw [index_of_misses h]
  rfl

theorem put_of_lt (h : number x y < 2048) : (put x y on).run s =
    .ok () ⟨s.cells.set (number x y) on.toUInt8 h, true⟩ := by
  unfold put
  rw [index_of_lt h]
  rfl

theorem put_eq_error_iff {e : PixelError} {t : Screen} :
    (put x y on).run s = .error e t ↔ Misses x y e ∧ t = s := by
  constructor
  · intro h
    rcases Nat.lt_or_ge (number x y) 2048 with hcell | hcell
    · rw [put_of_lt hcell] at h
      contradiction
    · obtain ⟨e', he'⟩ := exists_misses_iff.mpr hcell
      rw [put_of_misses he'] at h
      cases h
      exact ⟨he', rfl⟩
  · rintro ⟨he, rfl⟩
    exact put_of_misses he

/-- Statement by statement or at once, a pixel is set to the same. -/
theorem put_eq_setPixel : (put x y on).run s =
    match s.setPixel x y on with
    | .ok t => .ok () t
    | .error e => .error e s := by
  unfold setPixel
  rcases index_cases (x := x) (y := y) with ⟨hcell, hok⟩ | ⟨e, he, herror⟩
  · rw [put_of_lt hcell, hok]
    rfl
  · rw [put_of_misses he, herror]
    rfl

theorem set_get (h : number x y < 2048) (value : UInt8) (k : Fin screenSize) :
    (s.cells.set (number x y) value h).get k = if k.1 = number x y then value else s.cells.get k := by
  split
  · rename_i hk
    obtain ⟨k, hlt⟩ := k
    obtain rfl : k = number x y := hk
    exact Vector.getElem_set_self hlt
  · rename_i hk
    exact Vector.getElem_set_ne h k.2 (Ne.symm hk)

theorem pixel_set (h : number x y < 2048) (value : UInt8) (dirty : Bool) (x' y' : UInt64) :
    pixel ⟨s.cells.set (number x y) value h, dirty⟩ x' y' =
      if number x' y' = number x y then .ok value else s.pixel x' y' := by
  rcases Nat.lt_or_ge (number x' y') 2048 with hcell | hcell
  · rw [pixel_of_lt hcell, pixel_of_lt hcell, set_get]
    exact apply_ite Except.ok _ _ _
  · obtain ⟨e, he⟩ := exists_misses_iff.mpr hcell
    rw [if_neg (by omega), pixel_of_misses he, pixel_of_misses he]

end Access

section Calls
variable {s : Screen}

theorem left_look (x y : UInt64) : left ((look x y).run s) = s := by
  have hrun : (look x y).run s = (MonadExcept.ofExcept (s.pixel x y) : EStateM PixelError Screen UInt8).run s := rfl
  rw [hrun]
  cases s.pixel x y with
  | ok value => rfl
  | error e => rfl

theorem left_put_of_lt {x y : UInt64} {on : Bool} (h : number x y < 2048) :
    left ((put x y on).run s) = ⟨s.cells.set (number x y) on.toUInt8 h, true⟩ := by
  rw [put_of_lt h, left]

theorem left_put_of_le {x y : UInt64} {on : Bool} (h : 2048 ≤ number x y) :
    left ((put x y on).run s) = s := by
  obtain ⟨e, he⟩ := exists_misses_iff.mpr h
  rw [put_of_misses he, left]

theorem afterCall_get (c : Call) (k : Fin screenSize) :
    (s.afterCall c).cells.get k = ((c.value? k.1).map Bool.toUInt8).getD (s.cells.get k) := by
  cases c with
  | look x y => rw [afterCall, left_look, Call.value?, Option.map_none, Option.getD_none]
  | put x y on =>
    rw [afterCall, Call.value?]
    rcases Nat.lt_or_ge (number x y) 2048 with hcell | hcell
    · rw [left_put_of_lt hcell, set_get]
      by_cases hk : k.1 = number x y
      · rw [if_pos hk, if_pos hk.symm]
        rfl
      · rw [if_neg hk, if_neg (Ne.symm hk)]
        rfl
    · have hk : number x y ≠ k.1 := Nat.ne_of_gt (Nat.lt_of_lt_of_le k.2 hcell)
      rw [left_put_of_le hcell, if_neg hk]
      rfl

theorem afterCall_dirty (c : Call) : (s.afterCall c).dirty = (s.dirty || c.sets) := by
  cases c with
  | look x y => rw [afterCall, left_look, Call.sets, Bool.or_false]
  | put x y on =>
    rw [afterCall, Call.sets]
    rcases Nat.lt_or_ge (number x y) 2048 with hcell | hcell
    · rw [left_put_of_lt hcell, decide_eq_true hcell, Bool.or_true]
    · rw [left_put_of_le hcell, decide_eq_false (Nat.not_lt_of_le hcell), Bool.or_false]

theorem lastSet_cons (k : Nat) (c : Call) (calls : List Call) :
    lastSet k (c :: calls) = (lastSet k calls).or (c.value? k) := by
  simp [lastSet]

theorem afterCalls_get (calls : List Call) (k : Fin screenSize) :
    (s.afterCalls calls).cells.get k = ((lastSet k.1 calls).map Bool.toUInt8).getD (s.cells.get k) := by
  induction calls generalizing s with
  | nil => rfl
  | cons c calls ih =>
    rw [lastSet_cons]
    refine (ih (s := s.afterCall c)).trans ?_
    rw [afterCall_get]
    cases lastSet k.1 calls with
    | none => rfl
    | some on => rfl

theorem afterCalls_dirty (calls : List Call) :
    (s.afterCalls calls).dirty = (s.dirty || calls.any Call.sets) := by
  induction calls generalizing s with
  | nil => exact (Bool.or_false _).symm
  | cons c calls ih =>
    refine (ih (s := s.afterCall c)).trans ?_
    rw [afterCall_dirty, List.any_cons, Bool.or_assoc]

end Calls

end Chip8.Screen

namespace Chip8

open Screen

/-- Looking at a pixel and setting one are refused exactly beyond the screen, for the first thing that goes wrong in
exact arithmetic, and a refused setting leaves the screen as it was. Any other setting writes the one cell that all
coordinates of this number name, and marks the screen. After calls of any kind every cell has what it was last set to,
by a call that was not refused. -/
theorem pixels_named_exactly (s : Screen) (x y : UInt64) (on : Bool) (calls : List Call) :
    ((∃ e, Misses x y e) ↔ 2048 ≤ 64 * y.toNat + x.toNat) ∧
    (∀ e, s.pixel x y = .error e ↔ Misses x y e) ∧
    (∀ e t, (put x y on).run s = .error e t ↔ Misses x y e ∧ t = s) ∧
    ((∃ e, Misses x y e) ∨ ∃ (h : 64 * y.toNat + x.toNat < 2048) (t : Screen),
      s.pixel x y = .ok (s.cells.get ⟨64 * y.toNat + x.toNat, h⟩) ∧
      (put x y on).run s = .ok () t ∧ t.dirty = true ∧
      (∀ x' y', t.pixel x' y' =
        if 64 * y'.toNat + x'.toNat = 64 * y.toNat + x.toNat then .ok on.toUInt8 else s.pixel x' y') ∧
      ∀ k : Fin screenSize, t.cells.get k =
        if k.1 = 64 * y.toNat + x.toNat then on.toUInt8 else s.cells.get k) ∧
    ((put x y on).run s = match s.setPixel x y on with
      | .ok t => .ok () t
      | .error e => .error e s) ∧
    (s.afterCalls calls).dirty = (s.dirty || calls.any Call.sets) ∧
    ∀ k : Fin screenSize, (s.afterCalls calls).cells.get k =
      ((lastSet k.1 calls).map Bool.toUInt8).getD (s.cells.get k) := by
  refine ⟨exists_misses_iff, fun e => pixel_eq_error_iff, fun e t => put_eq_error_iff, ?_,
    put_eq_setPixel, afterCalls_dirty calls, afterCalls_get calls⟩
  rcases Nat.lt_or_ge (number x y) 2048 with hcell | hcell
  · exact Or.inr ⟨hcell, _, pixel_of_lt hcell, put_of_lt hcell, rfl, pixel_set hcell _ _, set_get hcell _⟩
  · exact Or.inl (exists_misses_iff.mpr hcell)

end Chip8
