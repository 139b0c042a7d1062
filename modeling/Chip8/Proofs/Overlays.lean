import Chip8.Proofs.Sprites
import Mathlib.Algebra.BigOperators.Group.List.Basic

/-!
# Sprites over sprites

Several sprites drawn one after the other. What is left of a cell, and whether any of the sprites put out a lit
one, follow from how many of their set bits land on each cell, so neither depends on the order in which the
sprites are drawn. Which of the sprites reports a collision does depend on it.
-/

namespace Chip8
set_option autoImplicit false

structure Sprite where
  x : UInt8
  y : UInt8
  rows : List UInt8
  deriving DecidableEq

namespace Screen

/-- Draws one sprite after the other, and tells of each whether it put out a lit cell. -/
def drawAll (s : Screen) : List Sprite → Screen × List Bool
  | [] => (s, [])
  | sprite :: sprites =>
    let (drawn, collided) := s.draw sprite.x sprite.y sprite.rows
    let (last, collisions) := drawn.drawAll sprites
    (last, collided :: collisions)

/-- How many set bits of all the sprites land on a cell. -/
def totalHits (sprites : List Sprite) (p : Fin screenSize) : Nat :=
  (sprites.map fun sprite => hits sprite.x.toNat sprite.y.toNat sprite.rows p).sum

theorem totalHits_cons (sprite : Sprite) (sprites : List Sprite) (p : Fin screenSize) :
    totalHits (sprite :: sprites) p =
      hits sprite.x.toNat sprite.y.toNat sprite.rows p + totalHits sprites p :=
  rfl

theorem totalHits_perm {sprites sprites' : List Sprite} (h : sprites.Perm sprites')
    (p : Fin screenSize) : totalHits sprites p = totalHits sprites' p :=
  (h.map _).sum_eq

section DrawAll
variable {s : Screen} (h : s.Binary) (sprites : List Sprite)

theorem drawAll_dirty (s : Screen) :
    (s.drawAll sprites).1.dirty = (s.dirty || !sprites.isEmpty) := by
  induction sprites generalizing s with
  | nil => simp [drawAll]
  | cons sprite sprites ih =>
    have hmarked : (s.draw sprite.x sprite.y sprite.rows).1.dirty = true := rfl
    simp [drawAll, ih, hmarked]

include h

theorem drawAll_toNat (p : Fin screenSize) :
    ((s.drawAll sprites).1.cells.get p).toNat = ((s.cells.get p).toNat + totalHits sprites p) % 2 := by
  induction sprites generalizing s with
  | nil =>
    have hle := get_le h p
    change (s.cells.get p).toNat = ((s.cells.get p).toNat + 0) % 2
    omega
  | cons sprite sprites ih =>
    have hdrawn := draw_binary h sprite.x sprite.y sprite.rows
    simp only [drawAll]
    rw [ih hdrawn, draw_toNat h, totalHits_cons]
    omega

/-- Some sprite put out a lit cell exactly if some cell comes to two or more over all of them. -/
theorem drawAll_collided_iff : (s.drawAll sprites).2.any id = true ↔
    ∃ p, 2 ≤ (s.cells.get p).toNat + totalHits sprites p := by
  induction sprites generalizing s with
  | nil =>
    have hnone : ¬ ∃ p, 2 ≤ (s.cells.get p).toNat + totalHits [] p := by
      rintro ⟨p, hp⟩
      have hle := get_le h p
      change 2 ≤ (s.cells.get p).toNat + 0 at hp
      omega
    simp [drawAll, hnone]
  | cons sprite sprites ih =>
    have hdrawn := draw_binary h sprite.x sprite.y sprite.rows
    simp only [drawAll, List.any_cons, id_eq, Bool.or_eq_true, totalHits_cons]
    rw [ih hdrawn, draw_collided_iff h]
    simp only [draw_toNat h]
    constructor
    · rintro (⟨p, hp⟩ | ⟨p, hp⟩)
      · exact ⟨p, by omega⟩
      · exact ⟨p, by omega⟩
    · rintro ⟨p, hp⟩
      by_cases hfirst : 2 ≤ (s.cells.get p).toNat + hits sprite.x.toNat sprite.y.toNat sprite.rows p
      · exact Or.inl ⟨p, hfirst⟩
      · exact Or.inr ⟨p, by omega⟩

end DrawAll

theorem eq_of_toNat {s t : Screen} (hdirty : s.dirty = t.dirty)
    (hcells : ∀ p, (s.cells.get p).toNat = (t.cells.get p).toNat) : s = t := by
  obtain ⟨cells, dirty⟩ := s
  obtain ⟨cells', dirty'⟩ := t
  obtain rfl := hdirty
  congr 1
  apply Vector.ext
  intro k hk
  exact UInt8.toNat_inj.mp (hcells ⟨k, hk⟩)

end Screen

/-- Sprites drawn in any order leave the same screen, and some of them report a collision in one order exactly
if some of them do in the other. -/
theorem draws_commute {s : Screen} (h : s.Binary) {sprites sprites' : List Sprite}
    (hperm : sprites.Perm sprites') :
    (s.drawAll sprites).1 = (s.drawAll sprites').1 ∧
    (s.drawAll sprites).2.any id = (s.drawAll sprites').2.any id := by
  constructor
  · apply Screen.eq_of_toNat
    · rw [Screen.drawAll_dirty, Screen.drawAll_dirty, hperm.isEmpty_eq]
    · intro p
      rw [Screen.drawAll_toNat h, Screen.drawAll_toNat h, Screen.totalHits_perm hperm]
  · rw [Bool.eq_iff_iff, Screen.drawAll_collided_iff h, Screen.drawAll_collided_iff h]
    simp only [Screen.totalHits_perm hperm]

/-- A bar over the right edge, a dot on its wrapped end, and a stroke over the lower edge apart from both. -/
def crossing : List Sprite := [⟨60, 5, [0xFF]⟩, ⟨0, 5, [0x80]⟩, ⟨0, 31, [0x80, 0x80]⟩]

/-- Of the bar and the dot the later one collides. -/
theorem draws_commute_of_crossing :
    Screen.blank.Binary ∧ crossing.Perm crossing.reverse ∧
      (Screen.blank.drawAll crossing).1 = (Screen.blank.drawAll crossing.reverse).1 ∧
      (Screen.blank.drawAll crossing).2 = [false, true, false] ∧
      (Screen.blank.drawAll crossing.reverse).2 = [false, false, true] ∧
      (Screen.blank.drawAll crossing.reverse).2.any id = (Screen.blank.drawAll crossing).2.any id := by
  have hbinary : Screen.blank.Binary := Screen.dark_binary true
  have hperm : crossing.Perm crossing.reverse := (List.reverse_perm crossing).symm
  obtain ⟨hscreen, hcollisions⟩ := draws_commute hbinary hperm
  exact ⟨hbinary, hperm, hscreen, by decide +kernel, by decide +kernel, hcollisions.symm⟩

end Chip8
