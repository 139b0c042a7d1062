import Chip8.Files
import Chip8.Proofs.LatestWrite
import Chip8.Proofs.Sounding

/-!
# The size of a ROM

The file reader, the loader and the reset hold a ROM against the same size. A file that is read without
complaint therefore starts, and can be started again at any later time, as nothing but the ROM that it was
started with is ever loaded; so the program does not end on account of its ROM. A file that is refused would
not have started, for the same reason. Files that cannot be read at all are left out.
-/

namespace Chip8
set_option autoImplicit false

theorem Rom.ofFile_of_size_le (path : String) {bytes : Array UInt8} (h : bytes.size ≤ 3583) :
    ofFile path (.ok bytes) = .ok bytes := by
  have hfits : bytes.size ≤ capacity := h
  simp only [ofFile, hfits, if_true]

theorem Rom.ofFile_of_lt_size (path : String) {bytes : Array UInt8} (h : 3583 < bytes.size) :
    ofFile path (.ok bytes) = .error (.tooLarge bytes.size 3583) := by
  have hfits : ¬ bytes.size ≤ capacity := Nat.not_le.mpr h
  simp only [ofFile, hfits, if_false]
  rfl

theorem Emulator.start_of_lt_size {rom : Rom} (h : 3583 < rom.size) (draws : Nat) :
    start rom draws = .error (.tooLarge rom.size 3583) := by
  simp only [start, Memory.load_of_lt_size _ rom h]
  rfl

/-- The ROM is kept in every session, so that it loads again. -/
theorem Emulator.reset_after {e : Emulator} {memory : Memory}
    (h : Memory.blank.load e.rom = .ok memory) (random : RandomBytes) (ops : List Operation) :
    ∃ e' again, e.after random ops = .ok e' ∧ e'.rom = e.rom ∧
      e'.reset = .ok (again, [.romLoaded e.rom.size, .machineReset]) := by
  obtain ⟨e', hafter, hrom, _⟩ := after_eq_ok h random ops
  rw [← hrom] at h
  have hreset := reset_eq_ok h
  rw [hrom] at hreset
  exact ⟨e', _, hafter, hrom, hreset⟩

/-- The run goes on with the same ROM, or ends, but not on account of the ROM. -/
def Verdict.KeepsRom (rom : Rom) : Verdict → Prop
  | .goesOn q => q.emulator.rom = rom
  | .failed (.rom _) => False
  | .failed (.window _) | .closed => True

variable {σ : Type} {d : Desktop (StateM σ)} {s : Stage}

namespace Player
variable {p : Player} {r r₁ : σ} {memory : Memory}

theorem Resets.keepsRom {v : Verbosity} {verdict : Verdict} (h : p.Resets d v r verdict r₁)
    (hload : Memory.blank.load p.emulator.rom = .ok memory) :
    verdict.KeepsRom p.emulator.rom := by
  have hreset := Emulator.reset_eq_ok hload
  cases h with
  | refused fails =>
    rw [hreset] at fails
    cases fails
  | done restarts =>
    rw [hreset] at restarts
    cases restarts
    rfl

theorem Passes.keepsRom {a : Account} {verdict : Verdict} (h : p.Passes d s r a verdict r₁)
    (hload : Memory.blank.load p.emulator.rom = .ok memory) :
    verdict.KeepsRom p.emulator.rom := by
  cases h with
  | closed => trivial
  | reset _ _ resets => exact resets.keepsRom hload
  | goesOn _ ticks catchesUp shows =>
    exact shows.emulator_eq.1.trans (catchesUp.rom_eq.trans ticks.rom_eq)
  | failed => trivial

theorem plays_rom {accounts : List Account} {ending : Ending} (h : Plays d s p r accounts ending r₁)
    (hload : Memory.blank.load p.emulator.rom = .ok memory) (cause : RomError) :
    ending ≠ .failed (.rom cause) := by
  induction h with
  | suspended => exact Ending.noConfusion
  | @goesOn p q r _ _ _ _ _ pass _ ih =>
    have hrom := (p.pass_passes d s r).keepsRom hload
    rw [pass] at hrom
    exact ih (hrom.symm ▸ hload)
  | closed => exact Ending.noConfusion
  | @failed p r _ _ error pass =>
    have hrom := (p.pass_passes d s r).keepsRom hload
    rw [pass] at hrom
    rintro ⟨⟩
    exact hrom

theorem run_rom {α : Type} (hload : Memory.blank.load p.emulator.rom = .ok memory)
    (note : α → Account → α) (n : Nat) (notes : α) (cause : RomError) :
    ((run d s note n p notes).run r).1.2 ≠ .failed (.rom cause) := by
  obtain ⟨accounts, ending, r', hplays, hnotes⟩ := run_plays d s n p r
  rw [hnotes]
  exact plays_rom hplays hload cause

end Player

/-- A file either fits everywhere or nowhere. If it fits, it is read as it is, starts, and is started again by a
reset after any session; no run of the main loop, however long and on whatever desktop, ends with an error
about the ROM. If it does not, reading and starting fail with the same error. -/
theorem rom_sizes_agree (path : String) (bytes : Array UInt8) :
    (bytes.size ≤ 3583 ∧ Rom.ofFile path (.ok bytes) = .ok bytes ∧
      ∀ draws, ∃ e, Emulator.start bytes draws = .ok (e, [.romLoaded bytes.size]) ∧
        (∀ random ops, ∃ e' again, e.after random ops = .ok e' ∧ e'.rom = bytes ∧
          e'.reset = .ok (again, [.romLoaded bytes.size, .machineReset])) ∧
        ∀ (σ α : Type) (d : Desktop (StateM σ)) (s : Stage) (note : α → Account → α) (n : Nat)
          (p : Player) (notes : α) (r : σ) (cause : RomError),
          ((Player.run d s note n { p with emulator := e } notes).run r).1.2 ≠
            .failed (.rom cause)) ∨
    (3583 < bytes.size ∧ Rom.ofFile path (.ok bytes) = .error (.tooLarge bytes.size 3583) ∧
      ∀ draws, Emulator.start bytes draws = .error (.tooLarge bytes.size 3583)) := by
  rcases Nat.lt_or_ge 3583 bytes.size with hlarge | hfits
  · exact Or.inr ⟨hlarge, Rom.ofFile_of_lt_size path hlarge, Emulator.start_of_lt_size hlarge⟩
  · refine Or.inl ⟨hfits, Rom.ofFile_of_size_le path hfits, ?_⟩
    intro draws
    obtain ⟨_, hload⟩ := Memory.load_of_size_le Memory.blank bytes hfits
    refine ⟨_, Emulator.start_of_load hload draws, ?_, ?_⟩
    · exact Emulator.reset_after (e := ⟨.start _ draws, bytes, true⟩) hload
    · intro σ α d s note n p notes r cause
      exact Player.run_rom hload note n notes cause

end Chip8
