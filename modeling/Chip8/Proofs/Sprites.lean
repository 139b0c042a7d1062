import Chip8.Proofs.WellFormed
import Mathlib.Algebra.BigOperators.Intervals
import Mathlib.Data.Nat.Count

/-!
# Sprites

What drawing a sprite comes to, whatever the order in which its bits are drawn. Every set bit flips the cell
that it lands on, so the number of bits that land there decides what becomes of a cell; and a lit cell is put
out if that number is two or more, or one where the cell was lit before. A sprite of more rows than the screen
has comes round to its own first rows. Which of the cells was put out is not told.
-/

namespace Chip8.Screen
set_option autoImplicit false

/-- How many set bits of a sprite with its top left corner at `(x, y)` land on a cell: pairs of a row and a
place in it, counted from the left. -/
def hits (x y : Nat) (rows : List UInt8) (p : Fin screenSize) : Nat :=
  ((Finset.range rows.length ×ˢ Finset.range 8).filter fun (r, b) =>
    (rows.getD r 0).toNat.testBit (7 - b) = true ∧
      (x + b) % 64 = p.1 % 64 ∧ (y + r) % 32 = p.1 / 64).card

section Flip
variable {cells : Vector UInt8 screenSize} {collided dirty : Bool}

theorem get_eq (h : Binary ⟨cells, dirty⟩) (p : Fin screenSize) :
    cells.get p = 0 ∨ cells.get p = 1 := h p.1 p.2

theorem get_le (h : Binary ⟨cells, dirty⟩) (p : Fin screenSize) : (cells.get p).toNat ≤ 1 := by
  rcases get_eq h p with hp | hp
  · simp [hp]
  · simp [hp]

theorem flip_get (k p : Fin screenSize) :
    (flip (cells, collided) k).1.get p = if k = p then cells.get p ^^^ 1 else cells.get p := by
  by_cases hk : k = p
  · subst hk
    rw [if_pos rfl]
    exact Vector.getElem_set_self k.2
  · rw [if_neg hk]
    exact Vector.getElem_set_ne k.2 p.2 fun he => hk (Fin.ext he)

theorem flip_toNat (h : Binary ⟨cells, dirty⟩) (k p : Fin screenSize) :
    ((flip (cells, collided) k).1.get p).toNat =
      ((cells.get p).toNat + if k = p then 1 else 0) % 2 := by
  rw [flip_get]
  rcases get_eq h p with hp | hp
  · rw [hp]
    split <;> rfl
  · rw [hp]
    split <;> rfl

/-- Flips one after the other add to each cell how often it is named. -/
theorem foldl_flip_toNat (h : Binary ⟨cells, dirty⟩) (ks : List (Fin screenSize))
    (p : Fin screenSize) :
    ((ks.foldl flip (cells, collided)).1.get p).toNat = ((cells.get p).toNat + ks.count p) % 2 := by
  induction ks generalizing cells collided with
  | nil =>
    rcases get_eq h p with hp | hp
    · simp [hp]
    · simp [hp]
  | cons k ks ih =>
    have hflipped : Binary ⟨(flip (cells, collided) k).1, dirty⟩ := flip_binary k _ _ _ h
    rw [List.foldl_cons, ih hflipped, flip_toNat h, List.count_cons]
    simp only [beq_iff_eq]
    omega

/-- A lit cell is put out by the first flip that names a cell again, or that names one which was lit. -/
theorem foldl_flip_collided (h : Binary ⟨cells, dirty⟩) (ks : List (Fin screenSize)) :
    (ks.foldl flip (cells, collided)).2 = true ↔
      collided = true ∨ ∃ p, 2 ≤ (cells.get p).toNat + ks.count p := by
  induction ks generalizing cells collided with
  | nil =>
    have hdim : ¬ ∃ p, 2 ≤ (cells.get p).toNat := by
      rintro ⟨p, hp⟩
      have hle := get_le h p
      omega
    simp [hdim]
  | cons k ks ih =>
    have hflipped : Binary ⟨(flip (cells, collided) k).1, dirty⟩ := flip_binary k _ _ _ h
    have hout : (flip (cells, collided) k).2 = true ↔
        collided = true ∨ (cells.get k).toNat = 1 := by
      simp [flip, ← UInt8.toNat_inj]
    rw [List.foldl_cons, ih hflipped, hout, or_assoc]
    apply or_congr_right
    simp only [flip_toNat h, List.count_cons, beq_iff_eq]
    constructor
    · rintro (hlit | ⟨p, hp⟩)
      · refine ⟨k, ?_⟩
        rw [if_pos rfl]
        omega
      · exact ⟨p, by omega⟩
    · rintro ⟨p, hp⟩
      by_cases hlit : (cells.get k).toNat = 1
      · exact Or.inl hlit
      · refine Or.inr ⟨p, ?_⟩
        have hle := get_le h p
        by_cases hkp : k = p
        · subst hkp
          simp only [if_true] at hp ⊢
          omega
        · simp only [hkp, if_false] at hp ⊢
          omega

end Flip

section Count
variable (x y : Nat) (p : Fin screenSize)

theorem wrapped_eq_iff : wrapped x y = p ↔ x % 64 = p.1 % 64 ∧ y % 32 = p.1 / 64 := by
  have hval : (wrapped x y).1 = y % 32 * 64 + x % 64 := rfl
  have hp : p.1 < 2048 := p.2
  rw [Fin.ext_iff, hval]
  omega

theorem count_rowCells (row : UInt8) : (rowCells x y row).count p =
    ((Finset.range 8).filter fun b => row.toNat.testBit (7 - b) = true ∧
      (x + b) % 64 = p.1 % 64 ∧ y % 32 = p.1 / 64).card := by
  rw [← Nat.count_eq_card_filter_range, Nat.count, rowCells, List.count, List.countP_filterMap]
  apply List.countP_congr
  intro b _
  simp only [← wrapped_eq_iff]
  cases row.toNat.testBit (7 - b) <;> simp

theorem hits_eq_sum (rows : List UInt8) : hits x y rows p =
    ∑ r ∈ Finset.range rows.length, ((Finset.range 8).filter fun b =>
      (rows.getD r 0).toNat.testBit (7 - b) = true ∧
        (x + b) % 64 = p.1 % 64 ∧ (y + r) % 32 = p.1 / 64).card := by
  simp only [hits, Finset.card_filter, Finset.sum_product]

theorem count_spriteCells (rows : List UInt8) :
    (spriteCells x y rows).count p = hits x y rows p := by
  induction rows generalizing y with
  | nil => rfl
  | cons row rows ih =>
    rw [spriteCells, List.count_append, ih, count_rowCells, hits_eq_sum, hits_eq_sum, List.length_cons,
      Finset.sum_range_succ', Nat.add_comm]
    simp [Nat.add_assoc, Nat.add_comm 1]

end Count

section Draw
variable {s : Screen} (h : s.Binary) (x y : UInt8) (rows : List UInt8)
include h

theorem draw_toNat (p : Fin screenSize) : ((s.draw x y rows).1.cells.get p).toNat =
    ((s.cells.get p).toNat + hits x.toNat y.toNat rows p) % 2 := by
  rw [← count_spriteCells]
  exact foldl_flip_toNat h _ p

theorem draw_collided_iff : (s.draw x y rows).2 = true ↔
    ∃ p, 2 ≤ (s.cells.get p).toNat + hits x.toNat y.toNat rows p := by
  simp only [← count_spriteCells]
  have hcollided : (s.draw x y rows).2 = true ↔ false = true ∨
      ∃ p, 2 ≤ (s.cells.get p).toNat + (spriteCells x.toNat y.toNat rows).count p :=
    foldl_flip_collided h _
  rwa [Bool.false_eq_true, false_or] at hcollided

end Draw

end Chip8.Screen

namespace Chip8

/-- Drawing a sprite of any length leaves a cell as it was if an even number of set bits land on it and changes it
otherwise. It tells of a collision exactly if some cell comes to two or more, its own light counted with the set
bits that land on it. The screen is marked as drawn on, also by a sprite without rows. -/
theorem draw_counts_hits {s : Screen} (h : s.Binary) (x y : UInt8) (rows : List UInt8) :
    (∀ p, ((s.draw x y rows).1.cells.get p).toNat =
      ((s.cells.get p).toNat + Screen.hits x.toNat y.toNat rows p) % 2) ∧
    ((s.draw x y rows).2 = true ↔
      ∃ p, 2 ≤ (s.cells.get p).toNat + Screen.hits x.toNat y.toNat rows p) ∧
    (s.draw x y rows).1.dirty = true := by
  exact ⟨Screen.draw_toNat h x y rows, Screen.draw_collided_iff h x y rows, rfl⟩

/-- Dark but for the last cell, and shown. -/
def cornerLit : Screen := ⟨(Vector.replicate screenSize 0).set 2047 1, false⟩

/-- Two cells wide, and one row longer than the screen. -/
def longSprite : List UInt8 := .replicate 33 0xC0

/-- The last row of the sprite comes back to the first, over both edges: two bits land on the lit cell in the
corner, and two on the dark one at the other end of its row. -/
theorem draw_counts_hits_of_long :
    let drawn := cornerLit.draw 63 31 longSprite
    cornerLit.Binary ∧ (drawn.1.cells.get (Screen.wrapped 63 31)).toNat = (1 + 2) % 2 ∧
      (drawn.1.cells.get (Screen.wrapped 64 31)).toNat = (0 + 2) % 2 ∧
      drawn.2 = true ∧ drawn.1.dirty = true := by
  intro drawn
  have hlit : Screen.setPixel ⟨Vector.replicate screenSize 0, true⟩ 63 31 true =
      .ok ⟨cornerLit.cells, true⟩ := rfl
  have hmarked := Screen.setPixel_binary (Screen.dark_binary true) hlit
  have hbinary : cornerLit.Binary := hmarked
  have hcorner : (cornerLit.cells.get (Screen.wrapped 63 31)).toNat = 1 ∧
      Screen.hits (63 : UInt8).toNat (31 : UInt8).toNat longSprite (Screen.wrapped 63 31) = 2 := by
    decide +kernel
  have hend : (cornerLit.cells.get (Screen.wrapped 64 31)).toNat = 0 ∧
      Screen.hits (63 : UInt8).toNat (31 : UInt8).toNat longSprite (Screen.wrapped 64 31) = 2 := by
    decide +kernel
  obtain ⟨hcells, hcollided, hdirty⟩ := draw_counts_hits hbinary 63 31 longSprite
  refine ⟨hbinary, ?_, ?_, hcollided.mpr ⟨Screen.wrapped 63 31, ?_⟩, hdirty⟩
  · rw [hcells, hcorner.1, hcorner.2]
  · rw [hcells, hend.1, hend.2]
  · rw [hcorner.1, hcorner.2]
    decide

end Chip8
