import Chip8.Proofs.Footprint

/-!
# The latest write

Memory as a store. What is read at an address is what was last put there, by a write or by a ROM that was
loaded, and what memory held at first if nothing was. Two addresses are one place if their low twelve bits
are the same, or if these are all zeros or all ones in both. Whether an instruction writes is not considered.
-/

namespace Chip8.Memory
set_option autoImplicit false

inductive Change where
  | write (address : UInt16) (value : UInt8)
  | load (rom : Rom)

/-- A ROM that is refused leaves memory as it was. -/
def change (m : Memory) : Change → Memory
  | .write address value => m.write address value
  | .load rom =>
    match m.load rom with
    | .ok loaded => loaded
    | .error _ => m

def after (m : Memory) (changes : List Change) : Memory := changes.foldl change m

structure Put where
  address : UInt16
  value : UInt8

def Change.puts : Change → List Put
  | write address value => [⟨address, value⟩]
  | load rom =>
    if rom.size ≤ 3583 then rom.toList.mapIdx fun k byte => ⟨UInt16.ofNat (0x200 + k), byte⟩
    else []

/-- The addresses are the same in twelve bits, or in these all zeros or all ones. -/
def SameCell (a b : UInt16) : Prop :=
  a % 0x1000 = b % 0x1000 ∨
    (a % 0x1000 = 0 ∨ a % 0x1000 = 0xFFF) ∧ (b % 0x1000 = 0 ∨ b % 0x1000 = 0xFFF)

instance (a b : UInt16) : Decidable (SameCell a b) := inferInstanceAs (Decidable (_ ∨ _))

/-- The byte last put where an address points to. -/
def latest (puts : List Put) (address : UInt16) : Option UInt8 :=
  (puts.reverse.find? fun put => SameCell put.address address).map Put.value

/-- The font from 0x50 to 0x9F, and zeros. -/
def initial (address : UInt16) : UInt8 :=
  let k := (address % 0x1000).toNat
  if 0x50 ≤ k ∧ k ≤ 0x9F then font[k - 0x50]?.getD 0 else 0

theorem cell_eq_iff {a b : UInt16} : cell a = cell b ↔ SameCell a b := by
  rw [Fin.ext_iff]
  simp only [cell, SameCell, memorySize, ← UInt16.toNat_inj, UInt16.toNat_mod, UInt16.reduceToNat]
  omega

theorem cells_getElem? (m : Memory) (k : Fin memorySize) :
    m.cells.toList[k.1]? = some (m.cells.get k) := by
  simp [Vector.get]

section Overwrite
variable (m : Memory) {start : Nat} {bytes : List UInt8}
  (fits : start + bytes.length ≤ memorySize) {k : Fin memorySize}

theorem overwrite_toList : (m.overwrite start bytes fits).cells.toList =
    m.cells.toList.take start ++ bytes ++ m.cells.toList.drop (start + bytes.length) := by
  simp [overwrite]

theorem overwrite_get_inside {j : Nat} (hj : j < bytes.length) (hk : k.1 = start + j) :
    (m.overwrite start bytes fits).cells.get k = bytes[j] := by
  have hstart : (m.cells.toList.take start).length = start := by simp; omega
  apply Option.some.inj
  rw [← cells_getElem?, overwrite_toList, hk, List.getElem?_append_left (by simp; omega),
    List.getElem?_append_right (by omega), hstart, Nat.add_sub_cancel_left,
    List.getElem?_eq_getElem hj]

theorem overwrite_get_outside (hk : k.1 < start ∨ start + bytes.length ≤ k.1) :
    (m.overwrite start bytes fits).cells.get k = m.cells.get k := by
  have hstart : (m.cells.toList.take start).length = start := by simp; omega
  apply Option.some.inj
  rw [← cells_getElem?, ← cells_getElem?, overwrite_toList]
  rcases hk with hk | hk
  · rw [List.append_assoc, List.getElem?_append_left (by omega), List.getElem?_take_of_lt hk]
  · have hlength : (m.cells.toList.take start ++ bytes).length = start + bytes.length := by
      rw [List.length_append, hstart]
    rw [List.getElem?_append_right (by omega), hlength, List.getElem?_drop, Nat.add_sub_cancel' hk]

end Overwrite

section Load
variable (m : Memory) (rom : Rom)

theorem load_of_size_le (h : rom.size ≤ 3583) :
    ∃ fits, m.load rom = .ok (m.overwrite programStart rom.toList fits) := by
  have hfits : rom.size ≤ Rom.capacity := h
  rw [load, dif_pos hfits]
  exact ⟨_, rfl⟩

theorem load_of_lt_size (h : 3583 < rom.size) : m.load rom = .error (.tooLarge rom.size 3583) := by
  have hfits : ¬ rom.size ≤ Rom.capacity := Nat.not_le.mpr h
  rw [load, dif_neg hfits]
  rfl

end Load

section Latest
variable {puts : List Put} {address : UInt16}

theorem latest_append (more : List Put) :
    latest (puts ++ more) address = (latest more address).or (latest puts address) := by
  simp [latest, Option.map_or]

theorem latest_eq_none (h : ∀ put ∈ puts, ¬ SameCell put.address address) :
    latest puts address = none := by
  rw [latest, Option.map_eq_none_iff, List.find?_eq_none]
  intro put hput
  simpa using h put (List.mem_reverse.mp hput)

/-- If all that was put there is one byte, it does not matter what came last. -/
theorem latest_eq_some {value : UInt8} (hput : ∃ put ∈ puts, SameCell put.address address)
    (h : ∀ put ∈ puts, SameCell put.address address → put.value = value) :
    latest puts address = some value := by
  cases hfind : puts.reverse.find? fun put => SameCell put.address address with
  | none =>
    obtain ⟨put, hmem, hsame⟩ := hput
    have hother := List.find?_eq_none.mp hfind put (List.mem_reverse.mpr hmem)
    simp [hsame] at hother
  | some put =>
    have hsame : SameCell put.address address := by simpa using List.find?_some hfind
    have hmem := List.mem_reverse.mp (List.mem_of_find?_eq_some hfind)
    rw [latest, hfind, Option.map_some, h put hmem hsame]

end Latest

/-- The addresses of a program that fits are cells of their own. -/
theorem cell_program {k : Nat} (h : k < 3583) : (cell (UInt16.ofNat (0x200 + k))).1 = 0x200 + k := by
  simp only [cell, memorySize, UInt16.toNat_ofNat']
  omega

theorem read_write (m : Memory) (address : UInt16) (value : UInt8) (a : UInt16) :
    (m.write address value).read a = if SameCell address a then value else m.read a := by
  split
  · rename_i hsame
    have hcell : cell address = cell a := cell_eq_iff.mpr hsame
    rw [read, ← hcell]
    exact Vector.getElem_set_self (cell address).2
  · rename_i hother
    apply write_get
    intro hcell
    exact hother (cell_eq_iff.mp hcell.symm)

section Program
variable {rom : Rom} (h : rom.size ≤ 3583) {a : UInt16}
include h

theorem puts_load : (Change.load rom).puts =
    rom.toList.mapIdx fun k byte => ⟨UInt16.ofNat (0x200 + k), byte⟩ :=
  if_pos h

/-- A byte of a ROM that is seen at an address is the one whose place the address points to. -/
theorem put_of_load {put : Put} (hput : put ∈ (Change.load rom).puts) (hsame : SameCell put.address a) :
    ∃ i, ∃ hi : i < rom.toList.length, put.value = rom.toList[i] ∧ (cell a).1 = 0x200 + i := by
  rw [puts_load h] at hput
  obtain ⟨i, hi, rfl⟩ := List.mem_mapIdx.mp hput
  have hcell := congrArg Fin.val (cell_eq_iff.mpr hsame)
  rw [Array.length_toList] at hi
  rw [cell_program (Nat.lt_of_lt_of_le hi h)] at hcell
  exact ⟨i, hi, rfl, hcell.symm⟩

theorem latest_load_inside {j : Nat} (hj : j < rom.toList.length) (hcell : (cell a).1 = 0x200 + j) :
    latest (Change.load rom).puts a = some rom.toList[j] := by
  apply latest_eq_some
  · rw [puts_load h]
    refine ⟨_, List.mem_mapIdx.mpr ⟨j, hj, rfl⟩, cell_eq_iff.mp (Fin.ext ?_)⟩
    rw [Array.length_toList] at hj
    rw [cell_program (Nat.lt_of_lt_of_le hj h), hcell]
  · intro put hput hsame
    obtain ⟨i, hi, hvalue, hcell'⟩ := put_of_load h hput hsame
    obtain rfl := Nat.add_left_cancel (hcell'.symm.trans hcell)
    exact hvalue

theorem latest_load_outside (hcell : (cell a).1 < 0x200 ∨ 0x200 + rom.size ≤ (cell a).1) :
    latest (Change.load rom).puts a = none := by
  apply latest_eq_none
  intro put hput hsame
  obtain ⟨i, hi, _, hcell'⟩ := put_of_load h hput hsame
  rw [Array.length_toList] at hi
  omega

theorem read_load (m : Memory) :
    (m.change (.load rom)).read a = (latest (Change.load rom).puts a).getD (m.read a) := by
  obtain ⟨fits, hload⟩ := m.load_of_size_le rom h
  rw [change, hload]
  by_cases hk : (cell a).1 < 0x200 ∨ 0x200 + rom.size ≤ (cell a).1
  · rw [latest_load_outside h hk]
    apply overwrite_get_outside m fits
    rwa [Array.length_toList]
  · obtain ⟨j, hj⟩ := Nat.exists_eq_add_of_le (show 0x200 ≤ (cell a).1 by omega)
    have hlt : j < rom.toList.length := by
      rw [Array.length_toList]
      omega
    rw [latest_load_inside h hlt hj]
    exact overwrite_get_inside m fits hlt hj

end Program

theorem read_change (m : Memory) (c : Change) (a : UInt16) :
    (m.change c).read a = (latest c.puts a).getD (m.read a) := by
  cases c with
  | write address value =>
    rw [change, read_write, latest, Change.puts]
    split
    · rename_i hsame
      simp [hsame]
    · rename_i hother
      simp [hother]
  | load rom =>
    by_cases h : rom.size ≤ 3583
    · exact read_load h m
    · rw [change, m.load_of_lt_size rom (Nat.lt_of_not_le h), Change.puts, if_neg h]
      rfl

theorem read_after (m : Memory) (changes : List Change) (a : UInt16) :
    (m.after changes).read a = (latest (changes.flatMap Change.puts) a).getD (m.read a) := by
  induction changes generalizing m with
  | nil => rfl
  | cons c changes ih =>
    rw [List.flatMap_cons, latest_append]
    have hrest := ih (m.change c)
    rw [read_change] at hrest
    rw [Option.getD_or]
    exact hrest

theorem read_blank (a : UInt16) : blank.read a = initial a := by
  have hcell : (cell a).1 = (a % 0x1000).toNat % memorySize := rfl
  have hlt : (a % 0x1000).toNat < 0x1000 := UInt16.toNat_mod_lt a (by decide)
  by_cases hk : 0x50 ≤ (a % 0x1000).toNat ∧ (a % 0x1000).toNat ≤ 0x9F
  · have hglyphs : (a % 0x1000).toNat - 0x50 < font.length := by
      change (a % 0x1000).toNat - 0x50 < 80
      omega
    rw [initial, if_pos hk, List.getElem?_eq_getElem hglyphs]
    apply overwrite_get_inside _ _ hglyphs
    rw [hcell, fontStart, memorySize]
    omega
  · rw [initial, if_neg hk]
    have hdark : blank.read a = (Vector.replicate memorySize 0).get (cell a) := by
      apply overwrite_get_outside
      rw [hcell, fontStart, memorySize]
      change _ ∨ 0x50 + 80 ≤ _
      omega
    rw [hdark]
    simp [Vector.get]

end Chip8.Memory

namespace Chip8
open Memory

/-- In a store that started with the font, an address reads as the byte last put into its cell, by a write or
by a load that was not refused, and if there is none as what the cell held at first. Addresses share a cell if
they are the same in twelve bits, or in these all zeros or all ones. A load is refused exactly if the ROM has
more than 3583 bytes, and then changes nothing; any other leaves all cells below 0x200 and after the ROM
alone. -/
theorem reads_latest_write (changes : List Change) :
    let m := blank.after changes
    (∀ a, m.read a = (latest (changes.flatMap Change.puts) a).getD (initial a)) ∧
    (∀ a b, cell a = cell b ↔ SameCell a b) ∧
    ∀ rom : Rom,
      (3583 < rom.size ∧ m.load rom = .error (.tooLarge rom.size 3583) ∧ m.change (.load rom) = m) ∨
      (rom.size ≤ 3583 ∧ ∃ loaded, m.load rom = .ok loaded ∧ m.change (.load rom) = loaded ∧
        ∀ k : Fin memorySize, k.1 < 0x200 ∨ 0x200 + rom.size ≤ k.1 →
          loaded.cells.get k = m.cells.get k) := by
  intro m
  refine ⟨?_, fun a b => cell_eq_iff, ?_⟩
  · intro a
    rw [read_after, read_blank]
  · intro rom
    by_cases hsize : rom.size ≤ 3583
    · obtain ⟨fits, hload⟩ := m.load_of_size_le rom hsize
      refine Or.inr ⟨hsize, _, hload, ?_, ?_⟩
      · rw [change, hload]
      · intro k hk
        apply overwrite_get_outside m fits
        rwa [Array.length_toList]
    · have hload := m.load_of_lt_size rom (Nat.lt_of_not_le hsize)
      refine Or.inl ⟨Nat.lt_of_not_le hsize, hload, ?_⟩
      rw [change, hload]

/-- Writes under two names of cells that also lie in a ROM or at the end of memory, and a load that is refused. -/
def overlapping : List Change :=
  [.load #[1, 2, 3], .write 0xFFF 7, .write 0x1201 9, .load (Array.replicate 3584 5), .load #[4]]

theorem reads_latest_write_of_overlapping :
    let m := blank.after overlapping
    m.read 0xF000 = 7 ∧ m.read 0x201 = 9 ∧ m.read 0x200 = 4 ∧ m.read 0xF056 = 0x60 ∧
      m.load (Array.replicate 3584 0) = .error (.tooLarge 3584 3583) ∧
      ∃ loaded, m.load #[8] = .ok loaded ∧
        loaded.cells.get ⟨0x201, by decide⟩ = m.cells.get ⟨0x201, by decide⟩ := by
  intro m
  obtain ⟨hread, _, hload⟩ := reads_latest_write overlapping
  have hrefused : m.load (Array.replicate 3584 0) = .error (.tooLarge 3584 3583) := by
    rcases hload (Array.replicate 3584 0) with ⟨_, herror, _⟩ | ⟨hfits, _⟩
    · simpa using herror
    · simp at hfits
  refine ⟨(hread _).trans (by decide +kernel), (hread _).trans (by decide +kernel),
    (hread _).trans (by decide +kernel), (hread _).trans (by decide +kernel), hrefused, ?_⟩
  rcases hload #[8] with ⟨hlarge, _⟩ | ⟨_, loaded, hok, _, hkept⟩
  · exact absurd hlarge (by decide)
  · exact ⟨loaded, hok, hkept ⟨0x201, by decide⟩ (Or.inr (by decide))⟩

end Chip8
