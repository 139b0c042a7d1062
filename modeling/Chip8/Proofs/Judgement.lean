import Chip8.CommandLine.Arguments

/-!
# How arguments are judged

When the settings of arguments are accepted: if there is a ROM, every option has good values and was given at most once,
and sound was switched off at most once. Only what was given for an option itself decides about it. An accepted pace
may still be no whole number, and that is found last.
-/

namespace Chip8.CommandLine
set_option autoImplicit false

theorem ValuedOption.mem_all (o : ValuedOption) : o ∈ all := by
  cases o <;> decide

theorem ValuedOption.fault?_eq_none_iff {o : ValuedOption} {text : String} : o.fault? text = none ↔
    match o with
    | cyclesPerSecond | tone => isPositiveNumber text = true
    | scale => (Scale.ofText? text).isSome = true
    | logLevel => (Verbosity.ofText? text).isSome = true := by
  cases o <;> simp [fault?, Option.isSome_iff_ne_none]

namespace Arguments
variable {a : Arguments} {o : ValuedOption}

/-- What was given for an option, one entry for each time. -/
def told (a : Arguments) (o : ValuedOption) : List (Option String) :=
  (a.given.filter fun given => given.1 = o).map Prod.snd

theorem filterMap_told : (a.given.filterMap fun (p, value) => if p = o then value else none) =
    (a.told o).filterMap id := by
  rw [told, List.filterMap_map, List.filterMap_filter]
  simp

theorem values_of_told_nil (h : a.told o = []) : a.values o = [o.byDefault] := by
  rw [values, filterMap_told, h]
  rfl

theorem values_of_told {text : String} (h : a.told o = [some text]) : a.values o = [text] := by
  rw [values, filterMap_told, h]
  rfl

theorem value_of_values {text : String} (h : a.values o = [text]) : a.value o = text :=
  congrArg (List.headD · o.byDefault) h

theorem occurrences_eq : a.occurrences o = (a.told o).length := by
  rw [occurrences, told, List.length_map, List.countP_eq_length_filter]

theorem problem?_eq_none_iff :
    a.problem? o = none ↔ (∀ v ∈ a.values o, o.fault? v = none) ∧ a.occurrences o ≤ 1 := by
  have hrefusals : (a.values o).findSome? (refusal? o) = none ↔ ∀ v ∈ a.values o, o.fault? v = none := by
    simp only [List.findSome?_eq_none_iff, refusal?, Option.map_eq_none_iff]
  rw [← hrefusals]
  unfold problem?
  cases (a.values o).findSome? (refusal? o) with
  | some stop => simp
  | none => simp

theorem check_eq_ok_iff {rom : String} :
    a.check = .ok rom ↔ a.rom = some rom ∧ (∀ o, a.problem? o = none) ∧ a.mutes ≤ 1 := by
  have hproblems : ValuedOption.all.findSome? a.problem? = none ↔ ∀ o, a.problem? o = none := by
    rw [List.findSome?_eq_none_iff]
    exact ⟨fun h o => h o o.mem_all, fun h o _ => h o⟩
  rw [← hproblems]
  unfold check
  cases a.rom with
  | none => simp
  | some given =>
    cases ValuedOption.all.findSome? a.problem? with
    | some stop => simp
    | none =>
      rcases Nat.lt_or_ge 1 a.mutes with hmutes | hmutes
      · simp [hmutes]
      · simp [Nat.not_lt_of_le hmutes, hmutes]

theorem value_mem (o : ValuedOption) : a.value o ∈ a.values o := by
  have hvalues : a.values o ≠ [] := by
    unfold values
    split
    · exact List.cons_ne_nil _ _
    · assumption
  obtain ⟨first, rest, hsplit⟩ := List.exists_cons_of_ne_nil hvalues
  rw [value, hsplit]
  exact List.mem_cons_self

theorem fault?_value {rom : String} (h : a.check = .ok rom) (o : ValuedOption) :
    o.fault? (a.value o) = none := by
  obtain ⟨_, hproblems, _⟩ := check_eq_ok_iff.mp h
  exact (problem?_eq_none_iff.mp (hproblems o)).1 _ (value_mem o)

/-- Accepted arguments say the settings, unless the pace is no whole number. -/
theorem settings_of_check {rom : String} (h : a.check = .ok rom) :
    ∃ n, Numeral.parse? (a.value .tone) = some n ∧ n.isPositive = true ∧
      a.settings = match Numeral.whole? (a.value .cyclesPerSecond) with
        | none => .error (.notConvertible (a.value .cyclesPerSecond))
        | some cycles => .ok {
            rom := rom
            cyclesPerSecond := cycles
            scale := (Scale.ofText? (a.value .scale)).getD .x16
            tone := n.toFloat32
            mute := 0 < a.mutes
            verbosity := (Verbosity.ofText? (a.value .logLevel)).getD (.upTo .info) } := by
  have haccepted := ValuedOption.fault?_eq_none_iff.mp (fault?_value h .tone)
  obtain ⟨n, hparse, hpositive⟩ := (Option.any_eq_true _ _).mp haccepted
  refine ⟨n, hparse, hpositive, ?_⟩
  unfold settings
  rw [h, hparse]
  cases Numeral.whole? (a.value .cyclesPerSecond) with
  | none => rfl
  | some cycles => rfl

theorem check_of_settings {settings : Settings} (h : a.settings = .ok settings) : ∃ rom, a.check = .ok rom := by
  unfold Arguments.settings at h
  cases hcheck : a.check with
  | error stop =>
    rw [hcheck] at h
    contradiction
  | ok rom => exact ⟨rom, rfl⟩

end Arguments
end Chip8.CommandLine
