import Chip8.Instruction.Mnemonic
import Mathlib.Data.List.Basic

/-!
# Mnemonics read back

The assembly text of an instruction names no other instruction: an assembler that splits a line into words and
looks at each word by its first letters reads back every text that is written, whatever the operands are. What it
makes of other texts does not matter.
-/

namespace Chip8
set_option autoImplicit false

namespace Hexadecimal

/-- The value of a hexadecimal digit in either case. -/
def digitValue (c : Char) : Nat := if c.isDigit then c.toNat - 48 else c.toLower.toNat - 87

def value (digits : List Char) : Nat := digits.foldl (fun n c => n * 16 + digitValue c) 0

theorem value_append_digit (digits : List Char) (c : Char) :
    value (digits ++ [c]) = value digits * 16 + digitValue c := by
  simp only [value, List.foldl_append, List.foldl_cons, List.foldl_nil]

theorem value_zeros (k : Nat) (digits : List Char) : value (List.replicate k '0' ++ digits) = value digits := by
  induction k with
  | zero => rfl
  | succ k ih => exact ih

theorem digitValue_digitChar : ∀ d < 16, digitValue (Nat.digitChar d) = d := by decide

theorem digitValue_toUpper : ∀ d < 16, digitValue (Nat.digitChar d).toUpper = d := by decide

theorem value_map_toDigits {f : Char → Char} (hf : ∀ d < 16, digitValue (f (Nat.digitChar d)) = d) (n : Nat) :
    value ((Nat.toDigits 16 n).map f) = n := by
  induction n using Nat.strongRecOn with
  | ind n ih =>
    have hlast := hf (n % 16) (Nat.mod_lt n (by decide))
    rcases Nat.lt_or_ge n 16 with hsmall | hlarge
    · rw [Nat.toDigits_of_lt_base hsmall, List.map_singleton, ← List.nil_append [f _], value_append_digit,
        hf n hsmall]
      exact Nat.zero_add n
    · rw [Nat.toDigits_of_base_le (by decide) hlarge, List.map_append, List.map_singleton, value_append_digit,
        ih (n / 16) (by omega), hlast]
      omega

theorem value_upper (n : Nat) : value (upper n).toList = n := by
  rw [upper, String.toList_ofList]
  exact value_map_toDigits digitValue_toUpper n

theorem value_padded (width n : Nat) : value (padded width n).toList = n := by
  have hdigits := value_map_toDigits (f := id) digitValue_digitChar n
  rw [List.map_id] at hdigits
  rw [padded, String.toList_ofList, List.leftpad, value_zeros, hdigits]

theorem mem_toDigits {n : Nat} {c : Char} (h : c ∈ Nat.toDigits 16 n) : ∃ d < 16, c = Nat.digitChar d := by
  induction n using Nat.strongRecOn with
  | ind n ih =>
    rcases Nat.lt_or_ge n 16 with hsmall | hlarge
    · rw [Nat.toDigits_of_lt_base hsmall, List.mem_singleton] at h
      exact ⟨n, hsmall, h⟩
    · rw [Nat.toDigits_of_base_le (by decide) hlarge, List.mem_append, List.mem_singleton] at h
      rcases h with h | h
      · exact ih (n / 16) (by omega) h
      · exact ⟨n % 16, Nat.mod_lt n (by decide), h⟩

end Hexadecimal

namespace Mnemonic

def isGap (c : Char) : Bool := c == ' ' || c == ','

/-- The words of a line, between which there are blanks and commas. -/
def words (line : String) : List String :=
  ((line.toList.splitOnP isGap).filter fun cs => !cs.isEmpty).map String.ofList

def isWord (text : String) : Bool := !text.toList.isEmpty && text.toList.all fun c => !isGap c

theorem isWord_iff {text : String} :
    isWord text = true ↔ text.toList ≠ [] ∧ ∀ c ∈ text.toList, isGap c = false := by
  simp only [isWord, Bool.and_eq_true, Bool.not_eq_true', List.isEmpty_eq_false_iff, List.all_eq_true]

theorem words_word {text : String} (h : isWord text = true) : words text = [text] := by
  obtain ⟨hne, hword⟩ := isWord_iff.mp h
  have hkept : [text.toList].filter (fun cs => !cs.isEmpty) = [text.toList] := by simpa using hne
  rw [words, List.splitOnP_eq_singleton hword, hkept, List.map_singleton, String.ofList_toList]

theorem words_gap {gap : Char} (hgap : isGap gap = true) (a b : List Char) :
    words (String.ofList (a ++ gap :: b)) = words (String.ofList a) ++ words (String.ofList b) := by
  simp only [words, String.toList_ofList, List.splitOnP_append_cons a b hgap, List.filter_append, List.map_append]

theorem words_blank (a b : String) : words (a ++ " " ++ b) = words a ++ words b := by
  have hline : a ++ " " ++ b = String.ofList (a.toList ++ ' ' :: b.toList) := by
    simp [← String.toList_inj]
  rw [hline, words_gap rfl, String.ofList_toList, String.ofList_toList]

theorem words_comma (a b : String) : words (a ++ ", " ++ b) = words a ++ words b := by
  have hline : a ++ ", " ++ b = String.ofList (a.toList ++ ',' :: (" " ++ b).toList) := by
    simp [← String.toList_inj]
  have hblank : words (" " ++ b) = words b := words_blank "" b
  rw [hline, words_gap rfl, String.ofList_toList, String.ofList_toList, hblank]

/-- What a word behind the first one stands for. -/
inductive Operand
  | register (r : UInt8)
  | number (n : Nat)
  | name (text : String)
  deriving DecidableEq, Repr

/-- Registers and marked numbers are known by their first letters, and other numbers consist of decimal digits. -/
def Operand.ofText (text : String) : Operand :=
  if text.toList.all Char.isDigit then .number (Nat.ofDigitChars 10 text.toList 0)
  else
    match text.toList with
    | 'V' :: digits => .register (UInt8.ofNat (Hexadecimal.value digits))
    | '0' :: 'x' :: digits => .number (Hexadecimal.value digits)
    | _ => .name text

/-- The text is one word and stands for the operand. -/
structure Writes (text : String) (operand : Operand) : Prop where
  word : isWord text = true
  ofText_eq : Operand.ofText text = operand

theorem writes_name (text : String) (hword : isWord text = true) (hname : Operand.ofText text = .name text) :
    Writes text (.name text) := ⟨hword, hname⟩

theorem isGap_of_isDigit {c : Char} (h : c.isDigit = true) : isGap c = false := by
  rw [isGap, Bool.or_eq_false_iff, beq_eq_false_iff_ne, beq_eq_false_iff_ne]
  constructor
  · rintro rfl
    exact absurd h (by decide)
  · rintro rfl
    exact absurd h (by decide)

theorem isGap_digitChar : ∀ d < 16, isGap (Nat.digitChar d) = false := by decide

theorem isGap_toUpper : ∀ d < 16, isGap (Nat.digitChar d).toUpper = false := by decide

theorem isGap_upper (n : Nat) : ∀ c ∈ (Hexadecimal.upper n).toList, isGap c = false := by
  intro c hc
  rw [Hexadecimal.upper, String.toList_ofList] at hc
  obtain ⟨digit, hdigit, rfl⟩ := List.mem_map.mp hc
  obtain ⟨d, hd, rfl⟩ := Hexadecimal.mem_toDigits hdigit
  exact isGap_toUpper d hd

theorem isGap_padded (width n : Nat) : ∀ c ∈ (Hexadecimal.padded width n).toList, isGap c = false := by
  intro c hc
  rw [Hexadecimal.padded, String.toList_ofList, List.leftpad, List.mem_append] at hc
  rcases hc with hzero | hdigit
  · rw [List.eq_of_mem_replicate hzero]
    rfl
  · obtain ⟨d, hd, rfl⟩ := Hexadecimal.mem_toDigits hdigit
    exact isGap_digitChar d hd

theorem writes_reg (r : UInt8) : Writes (reg r) (.register r) := by
  have htext : (reg r).toList = 'V' :: (Hexadecimal.upper r.toNat).toList := String.toList_append
  refine ⟨isWord_iff.mpr ⟨?_, ?_⟩, ?_⟩
  · rw [htext]
    exact List.cons_ne_nil _ _
  · rw [htext, List.forall_mem_cons]
    exact ⟨rfl, isGap_upper _⟩
  · have hread : Operand.ofText (reg r) =
        .register (UInt8.ofNat (Hexadecimal.value (Hexadecimal.upper r.toNat).toList)) := by
      rw [Operand.ofText, htext]
      rfl
    rw [hread, Hexadecimal.value_upper, UInt8.ofNat_toNat]

theorem writes_marked (width n : Nat) : Writes (Hexadecimal.marked width n) (.number n) := by
  have htext : (Hexadecimal.marked width n).toList = '0' :: 'x' :: (Hexadecimal.padded width n).toList :=
    String.toList_append
  refine ⟨isWord_iff.mpr ⟨?_, ?_⟩, ?_⟩
  · rw [htext]
    exact List.cons_ne_nil _ _
  · rw [htext, List.forall_mem_cons, List.forall_mem_cons]
    exact ⟨rfl, rfl, isGap_padded _ _⟩
  · have hread : Operand.ofText (Hexadecimal.marked width n) =
        .number (Hexadecimal.value (Hexadecimal.padded width n).toList) := by
      rw [Operand.ofText, htext]
      rfl
    rw [hread, Hexadecimal.value_padded]

theorem writes_decimal (n : Nat) : Writes (toString n) (.number n) := by
  have htext : (toString n).toList = Nat.toDigits 10 n := String.toList_ofList
  have hdigits : ∀ c ∈ Nat.toDigits 10 n, c.isDigit = true := fun c hc =>
    Nat.isDigit_of_mem_toDigits (by decide) (by decide) hc
  refine ⟨isWord_iff.mpr ⟨?_, ?_⟩, ?_⟩
  · rw [htext]
    exact Nat.toDigits_ne_nil
  · intro c hc
    rw [htext] at hc
    exact isGap_of_isDigit (hdigits c hc)
  · rw [Operand.ofText, htext, if_pos (List.all_eq_true.mpr hdigits), Nat.ofDigitChars_ten_toDigits]

end Mnemonic

open Mnemonic in
/-- The instruction of a known first word, among those with operands of these kinds. -/
def Instruction.ofOperands? (stem : String) : List Operand → Option Instruction
  | [] => [("CLS", .clear), ("RET", .ret)].lookup stem
  | [.number n] => [("JP", .jump (.ofNat n)), ("CALL", .call (.ofNat n)), ("DW", .unknown (.ofNat n))].lookup stem
  | [.register x] => [("SKP", .skipKeyDown x), ("SKNP", .skipKeyUp x)].lookup stem
  | [.register x, .number n] =>
    [("SE", .skipEqByte x (.ofNat n)), ("SNE", .skipNeByte x (.ofNat n)), ("LD", .loadByte x (.ofNat n)),
      ("ADD", .addByte x (.ofNat n)), ("RND", .random x (.ofNat n)), ("JP", .jumpOffset (.ofNat n))].lookup stem
  | [.register x, .register y] =>
    [("SE", .skipEq x y), ("SNE", .skipNe x y), ("LD", .move x y), ("OR", .or x y), ("AND", .and x y),
      ("XOR", .xor x y), ("ADD", .add x y), ("SUB", .sub x y), ("SUBN", .subFrom x y), ("SHR", .shiftRight x y),
      ("SHL", .shiftLeft x y)].lookup stem
  | [.register x, .name source] =>
    [(("LD", "DT"), .readDelay x), (("LD", "K"), .awaitKey x), (("LD", "[I]"), .loadRegisters x)].lookup (stem, source)
  | [.name target, .register x] =>
    [(("LD", "DT"), .setDelay x), (("LD", "ST"), .setSound x), (("ADD", "I"), .addIndex x), (("LD", "F"), .loadGlyph x),
      (("LD", "B"), .storeDecimal x), (("LD", "[I]"), .storeRegisters x)].lookup (stem, target)
  | [.name target, .number n] => [(("LD", "I"), .loadIndex (.ofNat n))].lookup (stem, target)
  | [.register x, .register y, .number n] => [("DRW", .draw x y (.ofNat n))].lookup stem
  | _ => none

def Instruction.ofMnemonic? (line : String) : Option Instruction :=
  match Mnemonic.words line with
  | [] => none
  | stem :: operands => Instruction.ofOperands? stem (operands.map Mnemonic.Operand.ofText)

namespace Instruction
open Mnemonic

section Lines
variable {line a b c : String} {i j k : Operand} {instruction : Instruction} (stem : String)
  (hstem : isWord stem = true)
include hstem

theorem reads_alone (hread : ofOperands? stem [] = some instruction) : ofMnemonic? stem = some instruction := by
  rw [ofMnemonic?, words_word hstem]
  exact hread

theorem reads_one (hline : line = stem ++ " " ++ a) (ha : Writes a i)
    (hread : ofOperands? stem [i] = some instruction) : ofMnemonic? line = some instruction := by
  rw [hline, ofMnemonic?, words_blank, words_word hstem, words_word ha.word]
  rw [← ha.ofText_eq] at hread
  exact hread

theorem reads_two (hline : line = stem ++ " " ++ a ++ ", " ++ b) (ha : Writes a i) (hb : Writes b j)
    (hread : ofOperands? stem [i, j] = some instruction) : ofMnemonic? line = some instruction := by
  rw [hline, ofMnemonic?, words_comma, words_blank, words_word hstem, words_word ha.word, words_word hb.word]
  rw [← ha.ofText_eq, ← hb.ofText_eq] at hread
  exact hread

theorem reads_named (name : String) (hline : line = stem ++ " " ++ a ++ (", " ++ name)) (ha : Writes a i)
    (hname : Writes name j) (hread : ofOperands? stem [i, j] = some instruction) :
    ofMnemonic? line = some instruction :=
  reads_two stem hstem (hline.trans String.append_assoc.symm) ha hname hread

theorem reads_three (hline : line = stem ++ " " ++ a ++ ", " ++ b ++ ", " ++ c) (ha : Writes a i) (hb : Writes b j)
    (hc : Writes c k) (hread : ofOperands? stem [i, j, k] = some instruction) :
    ofMnemonic? line = some instruction := by
  rw [hline, ofMnemonic?, words_comma, words_comma, words_blank, words_word hstem, words_word ha.word,
    words_word hb.word, words_word hc.word]
  rw [← ha.ofText_eq, ← hb.ofText_eq, ← hc.ofText_eq] at hread
  exact hread

end Lines

theorem ofMnemonic?_mnemonic (i : Instruction) : ofMnemonic? i.mnemonic = some i := by
  cases i with
  | clear =>
    exact reads_alone "CLS" rfl rfl
  | ret =>
    exact reads_alone "RET" rfl rfl
  | jump address =>
    exact reads_one "JP" rfl rfl (writes_marked 3 _) (by simp [ofOperands?])
  | call address =>
    exact reads_one "CALL" rfl rfl (writes_marked 3 _) (by simp [ofOperands?, List.lookup_cons])
  | skipEqByte x kk =>
    exact reads_two "SE" rfl rfl (writes_reg x) (writes_marked 2 _) (by simp [ofOperands?])
  | skipNeByte x kk =>
    exact reads_two "SNE" rfl rfl (writes_reg x) (writes_marked 2 _) (by simp [ofOperands?, List.lookup_cons])
  | skipEq x y =>
    exact reads_two "SE" rfl rfl (writes_reg x) (writes_reg y) rfl
  | loadByte x kk =>
    exact reads_two "LD" rfl rfl (writes_reg x) (writes_marked 2 _) (by simp [ofOperands?, List.lookup_cons])
  | addByte x kk =>
    exact reads_two "ADD" rfl rfl (writes_reg x) (writes_marked 2 _) (by simp [ofOperands?, List.lookup_cons])
  | move x y =>
    exact reads_two "LD" rfl rfl (writes_reg x) (writes_reg y) rfl
  | or x y =>
    exact reads_two "OR" rfl rfl (writes_reg x) (writes_reg y) rfl
  | and x y =>
    exact reads_two "AND" rfl rfl (writes_reg x) (writes_reg y) rfl
  | xor x y =>
    exact reads_two "XOR" rfl rfl (writes_reg x) (writes_reg y) rfl
  | add x y =>
    exact reads_two "ADD" rfl rfl (writes_reg x) (writes_reg y) rfl
  | sub x y =>
    exact reads_two "SUB" rfl rfl (writes_reg x) (writes_reg y) rfl
  | shiftRight x y =>
    exact reads_two "SHR" rfl rfl (writes_reg x) (writes_reg y) rfl
  | subFrom x y =>
    exact reads_two "SUBN" rfl rfl (writes_reg x) (writes_reg y) rfl
  | shiftLeft x y =>
    exact reads_two "SHL" rfl rfl (writes_reg x) (writes_reg y) rfl
  | skipNe x y =>
    exact reads_two "SNE" rfl rfl (writes_reg x) (writes_reg y) rfl
  | loadIndex address =>
    exact reads_two "LD" rfl rfl (writes_name "I" rfl rfl) (writes_marked 3 _) (by simp [ofOperands?])
  | jumpOffset address =>
    exact reads_two "JP" rfl rfl (writes_reg 0) (writes_marked 3 _) (by simp [ofOperands?, List.lookup_cons])
  | random x kk =>
    exact reads_two "RND" rfl rfl (writes_reg x) (writes_marked 2 _) (by simp [ofOperands?, List.lookup_cons])
  | draw x y n =>
    exact reads_three "DRW" rfl rfl (writes_reg x) (writes_reg y) (writes_decimal _) (by simp [ofOperands?])
  | skipKeyDown x =>
    exact reads_one "SKP" rfl rfl (writes_reg x) rfl
  | skipKeyUp x =>
    exact reads_one "SKNP" rfl rfl (writes_reg x) rfl
  | readDelay x =>
    exact reads_named "LD" rfl "DT" rfl (writes_reg x) (writes_name "DT" rfl rfl) rfl
  | awaitKey x =>
    exact reads_named "LD" rfl "K" rfl (writes_reg x) (writes_name "K" rfl rfl) rfl
  | setDelay x =>
    exact reads_two "LD" rfl rfl (writes_name "DT" rfl rfl) (writes_reg x) rfl
  | setSound x =>
    exact reads_two "LD" rfl rfl (writes_name "ST" rfl rfl) (writes_reg x) rfl
  | addIndex x =>
    exact reads_two "ADD" rfl rfl (writes_name "I" rfl rfl) (writes_reg x) rfl
  | loadGlyph x =>
    exact reads_two "LD" rfl rfl (writes_name "F" rfl rfl) (writes_reg x) rfl
  | storeDecimal x =>
    exact reads_two "LD" rfl rfl (writes_name "B" rfl rfl) (writes_reg x) rfl
  | storeRegisters x =>
    exact reads_two "LD" rfl rfl (writes_name "[I]" rfl rfl) (writes_reg x) rfl
  | loadRegisters x =>
    exact reads_named "LD" rfl "[I]" rfl (writes_reg x) (writes_name "[I]" rfl rfl) rfl
  | unknown word =>
    exact reads_one "DW" rfl rfl (writes_marked 4 _) (by simp [ofOperands?, List.lookup_cons])

/-- Two instructions are written alike only if they are the same, whatever their operands are, so that the lines of
a trace tell apart any two words that are decoded to different instructions. -/
theorem mnemonic_unambiguous :
    (∀ i j : Instruction, i.mnemonic = j.mnemonic ↔ i = j) ∧
    ∀ a b : UInt16, (decode a).mnemonic = (decode b).mnemonic ↔ decode a = decode b := by
  have hread : ∀ i j : Instruction, i.mnemonic = j.mnemonic ↔ i = j := by
    intro i j
    constructor
    · intro htext
      have hsome := congrArg ofMnemonic? htext
      rw [ofMnemonic?_mnemonic, ofMnemonic?_mnemonic] at hsome
      exact Option.some.inj hsome
    · rintro rfl
      rfl
  exact ⟨hread, fun a b => hread (decode a) (decode b)⟩

end Instruction

end Chip8
