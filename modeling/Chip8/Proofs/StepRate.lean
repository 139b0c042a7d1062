import Chip8.CommandLine.Usage
import Chip8.Player.Loop
import Chip8.Proofs.Spellings

/-!
# The rate that is set

What becomes of the text that is given for the rate of steps. It has to be a positive number, which is found first, and
then a whole number of 32 bits; a rate that is set is what the text writes, so it is never zero.
-/

namespace Chip8
set_option autoImplicit false

namespace CommandLine
namespace Arguments
variable {a b : Arguments} {o p : ValuedOption} {text : String}

def withText (a : Arguments) (o : ValuedOption) (text : String) : Arguments :=
  { a with given := a.given.map fun (p, value) => if p = o then (p, some text) else (p, value) }

theorem told_withText (h : p ≠ o) : (a.withText o text).told p = a.told p := by
  unfold told withText
  induction a.given with
  | nil => rfl
  | cons given rest ih =>
    obtain ⟨q, value⟩ := given
    by_cases hq : q = o
    · have hqp : q ≠ p := fun hqp => h (hqp.symm.trans hq)
      simpa [hq, hqp, h.symm] using ih
    · by_cases hqp : q = p
      · simpa [hq, hqp, h] using ih
      · simpa [hq, hqp] using ih

theorem problem?_congr (h : a.told o = b.told o) : a.problem? o = b.problem? o := by
  rw [problem?, problem?, values, values, filterMap_told, filterMap_told, occurrences_eq, occurrences_eq, h]

theorem problem?_of_told (h : a.told o = [some text]) : a.problem? o = refusal? o text := by
  rw [problem?, values_of_told h, occurrences_eq, h, List.findSome?_singleton]
  cases refusal? o text with
  | none => rfl
  | some stop => rfl

theorem check_of_others {rom : String} (hrom : a.rom = some rom) (hothers : ∀ p, p ≠ o → a.problem? p = none)
    (hmutes : a.mutes ≤ 1) :
    a.check = match a.problem? o with
      | some stop => .error stop
      | none => .ok rom := by
  cases hproblem : a.problem? o with
  | none =>
    refine check_eq_ok_iff.mpr ⟨hrom, fun p => ?_, hmutes⟩
    by_cases hp : p = o
    · exact hp ▸ hproblem
    · exact hothers p hp
  | some stop =>
    have hfirst : ValuedOption.all.findSome? a.problem? = some stop := by
      cases hfound : ValuedOption.all.findSome? a.problem? with
      | none =>
        have hnone := List.findSome?_eq_none_iff.mp hfound o o.mem_all
        rw [hproblem] at hnone
        contradiction
      | some found =>
        obtain ⟨p, -, hp⟩ := List.exists_of_findSome?_eq_some hfound
        by_cases hpo : p = o
        · exact hp.symm.trans (hpo ▸ hproblem)
        · rw [hothers p hpo] at hp
          contradiction
    simp only [check, hrom, hfirst]

end Arguments

/-- The line gives an option once, with this text, and with some other text in its place it would be accepted. -/
def Carries (args : List String) (o : ValuedOption) (text : String) : Prop :=
  ∃ a, Arguments.read {} none args = .ok a ∧ a.told o = [some text] ∧
    ∃ other settings, (a.withText o other).settings = .ok settings

section Carries
variable {args : List String} {o : ValuedOption} {text : String}

theorem Carries.judged (h : Carries args o text) : ∃ a rom, Arguments.read {} none args = .ok a ∧
    a.value o = text ∧ a.check = match Arguments.refusal? o text with
      | some stop => .error stop
      | none => .ok rom := by
  obtain ⟨a, hread, htold, other, settings, hsettings⟩ := h
  obtain ⟨rom, hcheck⟩ := Arguments.check_of_settings hsettings
  obtain ⟨hrom, hproblems, hmutes⟩ := Arguments.check_eq_ok_iff.mp hcheck
  have hothers (p : ValuedOption) (hp : p ≠ o) : a.problem? p = none :=
    (Arguments.problem?_congr (Arguments.told_withText hp)).symm.trans (hproblems p)
  refine ⟨a, rom, hread, Arguments.value_of_values (Arguments.values_of_told htold), ?_⟩
  rw [← Arguments.problem?_of_told htold]
  exact Arguments.check_of_others hrom hothers hmutes

theorem carries_of_read (h : Arguments.read {} none args =
    .ok { rom := some "rom.ch8", given := [(.cyclesPerSecond, some text)] }) :
    Carries args .cyclesPerSecond text := by
  have hother : ∃ settings, Arguments.settings { rom := some "rom.ch8", given := [(.cyclesPerSecond, some "1000")] } =
      .ok settings := ⟨_, rfl⟩
  exact ⟨_, h, rfl, "1000", hother⟩

/-- A text that starts with a dash is given behind an equals sign, and any other text by itself. -/
theorem exists_carries (text : String) : ∃ args, Carries args .cyclesPerSecond text := by
  by_cases hdash : ∃ cs, text.toList = '-' :: cs
  · obtain ⟨cs, hdash⟩ := hdash
    have hequals (rest : List Char) : text.toList ≠ '=' :: rest := by
      rw [hdash]
      exact fun h => absurd (List.cons.inj h).1 (by decide)
    exact ⟨[_, "rom.ch8"], carries_of_read (Arguments.read_attached
      (Token.ofText_longEquals .cyclesPerSecond hequals))⟩
  · have hplain (rest : List Char) : text.toList ≠ '-' :: rest := fun h => hdash ⟨rest, h⟩
    exact ⟨[_, text, "rom.ch8"], carries_of_read ((Arguments.read_option (Token.ofText_long .cyclesPerSecond)).trans
      (Arguments.read_value hplain))⟩

theorem refusal?_rate (text : String) : Arguments.refusal? .cyclesPerSecond text =
    if Numeral.WritesPositive text then none else some (.notPositive .cyclesPerSecond text) := by
  have hpositive : ValuedOption.isPositiveNumber text = true ↔ Numeral.WritesPositive text :=
    Numeral.isPositive_any_iff text
  simp only [Arguments.refusal?, ValuedOption.fault?, hpositive]
  split
  · rfl
  · rfl

/-- The three things that can become of a text. -/
theorem Carries.outcome (h : Carries args .cyclesPerSecond text) :
    (¬ Numeral.WritesPositive text ∧ parse args = .error (.notPositive .cyclesPerSecond text)) ∨
    (Numeral.WritesPositive text ∧ (¬ ∃ n < 2 ^ 32, Numeral.Writes text n) ∧
      parse args = .error (.notConvertible text)) ∨
    (Numeral.WritesPositive text ∧ ∃ settings, Numeral.Writes text settings.cyclesPerSecond.toNat ∧
      parse args = .ok settings) := by
  obtain ⟨a, rom, hread, hvalue, hcheck⟩ := h.judged
  have hparse : parse args = a.settings := by
    rw [parse, hread]
    rfl
  by_cases hpositive : Numeral.WritesPositive text
  · rw [refusal?_rate, if_pos hpositive] at hcheck
    obtain ⟨tone, -, -, hsettings⟩ := Arguments.settings_of_check hcheck
    rw [← hparse, hvalue] at hsettings
    cases hwhole : Numeral.whole? text with
    | none =>
      rw [hwhole] at hsettings
      exact Or.inr (Or.inl ⟨hpositive, Numeral.whole?_eq_none_iff.mp hwhole, hsettings⟩)
    | some n =>
      rw [hwhole] at hsettings
      exact Or.inr (Or.inr ⟨hpositive, _, Numeral.writes_of_whole? hwhole, hsettings⟩)
  · rw [refusal?_rate, if_neg hpositive] at hcheck
    refine Or.inl ⟨hpositive, hparse.trans ?_⟩
    rw [Arguments.settings, hcheck]
    rfl

end Carries

theorem one_le_rate {args : List String} {settings : Settings} (h : parse args = .ok settings) :
    1 ≤ settings.cyclesPerSecond.toNat := by
  unfold parse at h
  cases hread : Arguments.read {} none args with
  | error stop =>
    rw [hread] at h
    contradiction
  | ok a =>
    rw [hread] at h
    replace h : a.settings = .ok settings := h
    obtain ⟨rom, hcheck⟩ := Arguments.check_of_settings h
    obtain ⟨tone, -, -, hsettings⟩ := Arguments.settings_of_check hcheck
    have hpositive : Numeral.WritesPositive (a.value .cyclesPerSecond) := (Numeral.isPositive_any_iff _).mp
      (ValuedOption.fault?_eq_none_iff.mp (Arguments.fault?_value hcheck .cyclesPerSecond))
    rw [hsettings] at h
    split at h
    · contradiction
    · rename_i n hwhole
      rw [← Except.ok.inj h]
      exact (Numeral.writesPositive_iff (Numeral.writes_of_whole? hwhole)).mp hpositive

end CommandLine

open CommandLine

/-- Any text at all can be given for the rate, and on a line that is otherwise accepted it is refused unless it is a
positive number, then fails to convert unless it writes a whole number of 32 bits, and then is that number. So no
accepted line, with or without a rate, has a rate of zero, and two steps are between one microsecond and a second
apart. -/
theorem rate_outcomes :
    (∀ text, ∃ args, Carries args .cyclesPerSecond text) ∧
    (∀ args text, Carries args .cyclesPerSecond text →
      (parse args = .error (.notPositive .cyclesPerSecond text) ↔ ¬ Numeral.WritesPositive text) ∧
      (parse args = .error (.notConvertible text) ↔
        Numeral.WritesPositive text ∧ ¬ ∃ n < 2 ^ 32, Numeral.Writes text n) ∧
      (∀ n, (∃ settings, parse args = .ok settings ∧ settings.cyclesPerSecond.toNat = n) ↔
        Numeral.WritesPositive text ∧ n < 2 ^ 32 ∧ Numeral.Writes text n) ∧
      ∀ stop, parse args = .error stop → stop.exitCode = 1) ∧
    ∀ args settings, parse args = .ok settings → 1 ≤ settings.cyclesPerSecond.toNat ∧
      1 ≤ stepPeriod settings.cyclesPerSecond ∧ stepPeriod settings.cyclesPerSecond ≤ 1000000 := by
  refine ⟨exists_carries, fun args text hcarries => ?_, fun args settings hparse => ?_⟩
  · rcases hcarries.outcome with ⟨hrefused, hparse⟩ | ⟨hpositive, hwhole, hparse⟩ |
      ⟨hpositive, settings, hwrites, hparse⟩
    · simp [hparse, hrefused, Stop.exitCode]
    · refine ⟨?_, iff_of_true hparse ⟨hpositive, hwhole⟩, fun n => ?_, ?_⟩
      · simp [hparse, hpositive]
      · refine iff_of_false ?_ fun h => hwhole ⟨n, h.2⟩
        simp [hparse]
      · simp [hparse, Stop.exitCode]
    · have hlt := settings.cyclesPerSecond.toNat_lt
      refine ⟨?_, ?_, fun n => ?_, ?_⟩
      · simp [hparse, hpositive]
      · refine iff_of_false ?_ fun h => h.2 ⟨_, hlt, hwrites⟩
        simp [hparse]
      · constructor
        · rintro ⟨settings', hsettings, rfl⟩
          rw [hparse] at hsettings
          obtain rfl := Except.ok.inj hsettings
          exact ⟨hpositive, hlt, hwrites⟩
        · rintro ⟨-, -, hn⟩
          exact ⟨settings, hparse, Numeral.writes_unique hn hwrites⟩
      · simp [hparse]
  · exact ⟨one_le_rate hparse, Nat.le_max_right _ _, Nat.max_le.mpr ⟨Nat.div_le_self _ _, by decide⟩⟩

theorem rate_outcomes_of_three :
    (Carries ["-c", "+0", "rom.ch8"] .cyclesPerSecond "+0" ∧
      parse ["-c", "+0", "rom.ch8"] = .error (.notPositive .cyclesPerSecond "+0")) ∧
    (Carries ["-c", "1e3", "rom.ch8"] .cyclesPerSecond "1e3" ∧
      parse ["-c", "1e3", "rom.ch8"] = .error (.notConvertible "1e3")) ∧
    (Carries ["-c", "+060", "rom.ch8"] .cyclesPerSecond "+060" ∧
      ∃ settings, parse ["-c", "+060", "rom.ch8"] = .ok settings ∧ settings.cyclesPerSecond.toNat = 60 ∧
        stepPeriod settings.cyclesPerSecond ≤ 1000000) := by
  obtain ⟨-, houtcomes, hperiod⟩ := rate_outcomes
  have hzero : Carries ["-c", "+0", "rom.ch8"] .cyclesPerSecond "+0" := carries_of_read rfl
  have hthousand : Carries ["-c", "1e3", "rom.ch8"] .cyclesPerSecond "1e3" := carries_of_read rfl
  have hsixty : Carries ["-c", "+060", "rom.ch8"] .cyclesPerSecond "+060" := carries_of_read rfl
  have hnothing : Numeral.Writes "+0" 0 :=
    ⟨['0'], List.cons_ne_nil _ _, List.all_eq_true.mp rfl, Or.inr rfl, rfl⟩
  have hnegative : ¬ Numeral.WritesPositive "+0" := mt (Numeral.writesPositive_iff hnothing).mp (Nat.lt_irrefl 0)
  have hpositive : Numeral.WritesPositive "1e3" := (Numeral.isPositive_any_iff _).mp rfl
  have hwrites : Numeral.Writes "+060" 60 :=
    ⟨['0', '6', '0'], List.cons_ne_nil _ _, List.all_eq_true.mp rfl, Or.inr rfl, rfl⟩
  obtain ⟨settings, hparse, hrate⟩ := ((houtcomes _ _ hsixty).2.2.1 60).mpr
    ⟨(Numeral.writesPositive_iff hwrites).mpr (by decide), by decide, hwrites⟩
  exact ⟨⟨hzero, (houtcomes _ _ hzero).1.mpr hnegative⟩,
    ⟨hthousand, (houtcomes _ _ hthousand).2.1.mpr ⟨hpositive, Numeral.whole?_eq_none_iff.mp rfl⟩⟩,
    hsixty, settings, hparse, hrate, (hperiod _ _ hparse).2.2⟩

end Chip8
