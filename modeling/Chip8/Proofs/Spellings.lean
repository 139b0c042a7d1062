import Chip8.Proofs.Judgement
import Chip8.Proofs.Numerals
import Mathlib.Data.List.Nodup

/-!
# Spellings of a command line

A command line says the same in any order and in any spelling of its options: what was given is set, everything else
has its default, and behind two dashes any text at all is the ROM. Since no value that an option accepts starts with a
dash or an equals sign, none is taken for another argument, and each can be given in every spelling.
-/

namespace Chip8
set_option autoImplicit false

namespace CommandLine

inductive Spelling where
  | long
  | longEquals
  | short (letter : Char)
  | shortAttached (letter : Char)
  | shortEquals (letter : Char)

namespace Spelling

def args (o : ValuedOption) (value : String) : Spelling → List String
  | long => ["--" ++ o.name, value]
  | longEquals => ["--" ++ o.name ++ "=" ++ value]
  | short letter => [String.ofList ['-', letter], value]
  | shortAttached letter => [String.ofList ['-', letter] ++ value]
  | shortEquals letter => [String.ofList ['-', letter] ++ ("=" ++ value)]

/-- A letter is the option's own. -/
def Fits (o : ValuedOption) : Spelling → Prop
  | long | longEquals => True
  | short letter | shortAttached letter | shortEquals letter => o.letter? = some letter

end Spelling

namespace Token

theorem ofText_long (o : ValuedOption) : ofText ("--" ++ o.name) = .option o none := by
  cases o <;> rfl

theorem ofText_letter {o : ValuedOption} {letter : Char} (h : o.letter? = some letter) (text : String) :
    ofText (String.ofList ['-', letter] ++ text) =
      .option o (if text.toList.isEmpty then none else some (attachedValue text.toList)) := by
  have htext : (String.ofList ['-', letter] ++ text).toList = '-' :: letter :: text.toList := by
    rw [String.toList_append, String.toList_ofList]
    rfl
  unfold ofText
  rw [htext]
  cases o with
  | cyclesPerSecond =>
    obtain rfl : 'c' = letter := Option.some.inj h
    rfl
  | scale =>
    obtain rfl : 's' = letter := Option.some.inj h
    rfl
  | tone => contradiction
  | logLevel => contradiction

section Values
variable {value : String}

theorem ofText_operand (hdash : ∀ cs, value.toList ≠ '-' :: cs) : ofText value = .operand value := by
  unfold ofText
  split
  · rename_i htext
    exact absurd htext (hdash _)
  · rename_i htext
    exact absurd htext (hdash _)
  · rename_i htext
    exact absurd htext (hdash _)
  · rfl

theorem attachedValue_toList (hequals : ∀ cs, value.toList ≠ '=' :: cs) : attachedValue value.toList = value := by
  unfold attachedValue
  cases htext : value.toList with
  | nil => exact (congrArg String.ofList htext.symm).trans String.ofList_toList
  | cons c cs =>
    have hc : (c == '=') = false := by
      apply beq_eq_false_iff_ne.mpr
      rintro rfl
      exact hequals cs htext
    rw [List.dropWhile_cons_of_neg (by simp [hc]), ← htext, String.ofList_toList]

theorem ofText_longEquals (o : ValuedOption) (hequals : ∀ cs, value.toList ≠ '=' :: cs) :
    ofText ("--" ++ o.name ++ "=" ++ value) = .option o (some value) := by
  have htext : ("--" ++ o.name ++ "=" ++ value).toList = '-' :: '-' :: (o.name.toList ++ '=' :: value.toList) := by
    simp
  have hattached : ofText ("--" ++ o.name ++ "=" ++ value) =
      .option o (some (attachedValue ('=' :: value.toList))) := by
    unfold ofText
    rw [htext]
    cases o <;> rfl
  exact hattached.trans (congrArg (fun text => Token.option o (some text)) (attachedValue_toList hequals))

end Values
end Token

/-- A text that can be given in every spelling. -/
structure Plain (text : String) : Prop where
  some_character : text.toList ≠ []
  no_dash : ∀ cs, text.toList ≠ '-' :: cs
  no_equals : ∀ cs, text.toList ≠ '=' :: cs

namespace Plain
variable {text : String}

theorem of_cons {c : Char} {cs : List Char} (htext : text.toList = c :: cs) (hdash : c ≠ '-')
    (hequals : c ≠ '=') : Plain text where
  some_character := by
    rw [htext]
    exact List.cons_ne_nil c cs
  no_dash rest := by
    rw [htext]
    exact fun h => hdash (List.cons.inj h).1
  no_equals rest := by
    rw [htext]
    exact fun h => hequals (List.cons.inj h).1

theorem of_writesPositive (h : Numeral.WritesPositive text) : Plain text where
  some_character := Numeral.ne_nil_of_writesPositive h
  no_dash _ := Numeral.no_dash_of_writesPositive h
  no_equals _ := Numeral.no_equals_of_writesPositive h

end Plain

namespace Arguments
variable {a : Arguments} {o : ValuedOption} {value : String} {rest : List String}

theorem read_option (h : Token.ofText value = .option o none) :
    a.read none (value :: rest) = a.read (some o) rest := by
  simp only [read, h, settle]

theorem read_attached {text : String} (h : Token.ofText text = .option o (some value)) :
    a.read none (text :: rest) = (a.give o (some value)).read none rest := by
  simp only [read, h, settle]

theorem read_value (hdash : ∀ cs, value.toList ≠ '-' :: cs) :
    a.read (some o) (value :: rest) = (a.give o (some value)).read none rest := by
  simp only [read, Token.ofText_operand hdash]

theorem read_spelling {spelling : Spelling} (hfits : spelling.Fits o) (hplain : Plain value) :
    a.read none (spelling.args o value ++ rest) = (a.give o (some value)).read none rest := by
  have hfull : value.toList.isEmpty = false := List.isEmpty_eq_false_iff.mpr hplain.some_character
  cases spelling with
  | long => exact (read_option (Token.ofText_long o)).trans (read_value hplain.no_dash)
  | longEquals => exact read_attached (Token.ofText_longEquals o hplain.no_equals)
  | short letter =>
    have htoken := Token.ofText_letter hfits ""
    rw [String.append_empty] at htoken
    exact (read_option htoken).trans (read_value hplain.no_dash)
  | shortAttached letter =>
    have htoken := Token.ofText_letter hfits value
    rw [hfull, Token.attachedValue_toList hplain.no_equals] at htoken
    exact read_attached htoken
  | shortEquals letter =>
    have htoken := Token.ofText_letter hfits ("=" ++ value)
    have htext : ("=" ++ value).toList = '=' :: value.toList := by simp
    have hdropped : Token.attachedValue ('=' :: value.toList) = value :=
      Token.attachedValue_toList hplain.no_equals
    rw [htext, hdropped] at htoken
    exact read_attached htoken

end Arguments

inductive Setting where
  | cycles (n : UInt32)
  | scale (s : Scale)
  | tone (text : String) (n : Numeral)
  | logLevel (v : Verbosity)

namespace Setting

def option : Setting → ValuedOption
  | cycles _ => .cyclesPerSecond
  | scale _ => .scale
  | tone _ _ => .tone
  | logLevel _ => .logLevel

def text : Setting → String
  | cycles n => toString n.toNat
  | scale s => toString s.factor
  | tone text _ => text
  | logLevel .off => "off"
  | logLevel (.upTo .error) => "error"
  | logLevel (.upTo .warn) => "warn"
  | logLevel (.upTo .info) => "info"
  | logLevel (.upTo .debug) => "debug"
  | logLevel (.upTo .trace) => "trace"

/-- The pace is at least one, and the tone is accepted. -/
def Allowed : Setting → Prop
  | cycles n => 1 ≤ n.toNat
  | tone text n => Numeral.parse? text = some n ∧ ValuedOption.isPositiveNumber text = true
  | scale _ | logLevel _ => True

def HoldsIn (s : Settings) : Setting → Prop
  | cycles n => s.cyclesPerSecond = n
  | scale x => s.scale = x
  | tone _ n => s.tone = n.toFloat32
  | logLevel v => s.verbosity = v

def usual : ValuedOption → Setting
  | .cyclesPerSecond => cycles 1000
  | .scale => scale .x16
  | .tone => tone "1000" (.finite false 1000 0)
  | .logLevel => logLevel (.upTo .info)

theorem usual_option (o : ValuedOption) : (usual o).option = o := by
  cases o <;> rfl

theorem usual_text (o : ValuedOption) : (usual o).text = o.byDefault := by
  cases o <;> rfl

theorem usual_allowed (o : ValuedOption) : (usual o).Allowed := by
  cases o with
  | cyclesPerSecond => exact (by decide : 1 ≤ (1000 : UInt32).toNat)
  | scale => trivial
  | tone => exact ⟨rfl, rfl⟩
  | logLevel => trivial

example : (Numeral.finite false 1000 0).toFloat32 = 1000 := by decide

section Allowed
variable {v : Setting} (h : v.Allowed)
include h

theorem fault?_text : v.option.fault? v.text = none := by
  cases v with
  | cycles n =>
    have hpositive : Numeral.WritesPositive (toString n.toNat) := Numeral.writesPositive_toString.mpr h
    exact ValuedOption.fault?_eq_none_iff.mpr ((Numeral.isPositive_any_iff _).mpr hpositive)
  | scale s => cases s <;> rfl
  | tone text n => exact ValuedOption.fault?_eq_none_iff.mpr h.2
  | logLevel v =>
    rcases v with _ | level
    · rfl
    · cases level <;> rfl

theorem plain_text : Plain v.text := by
  cases v with
  | cycles n => exact .of_writesPositive (Numeral.writesPositive_toString.mpr h)
  | scale s => cases s <;> exact .of_cons rfl (by decide) (by decide)
  | tone text n => exact .of_writesPositive ((Numeral.isPositive_any_iff text).mp h.2)
  | logLevel v =>
    rcases v with _ | level
    · exact .of_cons rfl (by decide) (by decide)
    · cases level <;> exact .of_cons rfl (by decide) (by decide)

theorem holdsIn_of_settings {a : Arguments} {settings : Settings} (hsettings : a.settings = .ok settings)
    (hvalue : a.value v.option = v.text) : v.HoldsIn settings := by
  obtain ⟨rom, hcheck⟩ := Arguments.check_of_settings hsettings
  obtain ⟨n, hparse, -, hsaid⟩ := Arguments.settings_of_check hcheck
  rw [hsaid] at hsettings
  cases hcycles : Numeral.whole? (a.value .cyclesPerSecond) with
  | none =>
    rw [hcycles] at hsettings
    contradiction
  | some cycles =>
    rw [hcycles] at hsettings
    obtain rfl := Except.ok.inj hsettings
    cases v with
    | cycles m =>
      have hwhole := (congrArg Numeral.whole? hvalue).trans (Numeral.whole?_toString m)
      exact Option.some.inj (hcycles.symm.trans hwhole)
    | scale s =>
      have hscale : (Scale.ofText? (toString s.factor)).getD .x16 = s := by
        cases s <;> rfl
      exact (congrArg (fun text => (Scale.ofText? text).getD .x16) hvalue).trans hscale
    | tone text m =>
      obtain rfl := Option.some.inj (hparse.symm.trans ((congrArg Numeral.parse? hvalue).trans h.1))
      rfl
    | logLevel v =>
      have hverbosity : (Verbosity.ofText? (text (.logLevel v))).getD (.upTo .info) = v := by
        rcases v with _ | level
        · rfl
        · cases level <;> rfl
      exact (congrArg (fun text => (Verbosity.ofText? text).getD (.upTo .info)) hvalue).trans hverbosity

end Allowed
end Setting

/-- One piece of a command line: the flag that switches sound off, or an option with its value. -/
inductive Group where
  | mute
  | setting (v : Setting) (spelling : Spelling)

namespace Group

def kind : Group → Option ValuedOption
  | mute => none
  | setting v _ => some v.option

def text? : Group → Option String
  | mute => none
  | setting v _ => some v.text

def args : Group → List String
  | mute => ["--mute"]
  | setting v spelling => spelling.args v.option v.text

def Allowed : Group → Prop
  | mute => True
  | setting v spelling => v.Allowed ∧ spelling.Fits v.option

end Group

namespace Arguments
variable {groups : List Group}

def hear (a : Arguments) (groups : List Group) : Arguments where
  rom := a.rom
  mutes := a.mutes + (groups.map Group.kind).count none
  given := a.given ++ groups.filterMap fun g => g.kind.map fun o => (o, g.text?)

theorem read_groups (hallowed : ∀ g ∈ groups, g.Allowed) (rest : List String) (a : Arguments) :
    a.read none (groups.flatMap Group.args ++ rest) = (a.hear groups).read none rest := by
  induction groups generalizing a with
  | nil => simp [hear]
  | cons g groups ih =>
    have htail := ih fun g' hg' => hallowed g' (List.mem_cons_of_mem g hg')
    have hhead := hallowed g List.mem_cons_self
    rw [List.flatMap_cons, List.append_assoc]
    cases g with
    | mute =>
      refine Eq.trans (htail { a with mutes := a.mutes + 1 }) (congrArg (read · none rest) ?_)
      simp [hear, Group.kind, Nat.add_assoc, Nat.add_comm 1]
    | setting v spelling =>
      refine (read_spelling hhead.2 (Setting.plain_text hhead.1)).trans ((htail _).trans ?_)
      simp [hear, give, Group.kind, Group.text?]

theorem read_line (hallowed : ∀ g ∈ groups, g.Allowed) (rom : String) :
    read {} none (groups.flatMap Group.args ++ ["--", rom]) = .ok (hear { rom := some rom } groups) := by
  rw [read_groups hallowed]
  simp only [read, show Token.ofText "--" = .separator from rfl, settle, readOperands]
  rfl

theorem told_hear (rom : Option String) (o : ValuedOption) : (hear { rom := rom } groups).told o =
    (groups.filter fun g => g.kind = some o).map Group.text? := by
  have hgiven : (hear { rom := rom } groups).given =
      groups.filterMap fun g => g.kind.map fun o => (o, g.text?) := List.nil_append _
  rw [told, hgiven]
  induction groups with
  | nil => rfl
  | cons g groups ih =>
    cases g with
    | mute => simpa [Group.kind] using ih rfl
    | setting v spelling =>
      by_cases ho : v.option = o
      · simpa [Group.kind, ho] using ih rfl
      · simpa [Group.kind, ho] using ih rfl

end Arguments

/-- The value of its option on a command line: given, or the usual one if none is. -/
def Chosen (groups : List Group) (v : Setting) : Prop :=
  (∃ spelling, .setting v spelling ∈ groups) ∨
    (v = .usual v.option ∧ ∀ w spelling, .setting w spelling ∈ groups → w.option ≠ v.option)

section Chosen
variable {groups : List Group} (hallowed : ∀ g ∈ groups, g.Allowed) (hkinds : (groups.map Group.kind).Nodup)

theorem exists_chosen (groups : List Group) (o : ValuedOption) : ∃ v, Chosen groups v ∧ v.option = o := by
  by_cases hgiven : ∃ v spelling, .setting v spelling ∈ groups ∧ v.option = o
  · obtain ⟨v, spelling, hmem, ho⟩ := hgiven
    exact ⟨v, Or.inl ⟨spelling, hmem⟩, ho⟩
  · have ho := Setting.usual_option o
    refine ⟨.usual o, Or.inr ⟨congrArg Setting.usual ho.symm, fun w spelling hmem hw => ?_⟩, ho⟩
    exact hgiven ⟨w, spelling, hmem, hw.trans ho⟩

include hallowed in
theorem allowed_of_chosen {v : Setting} (h : Chosen groups v) : v.Allowed := by
  rcases h with ⟨spelling, hmem⟩ | ⟨husual, -⟩
  · exact (hallowed _ hmem).1
  · exact husual ▸ Setting.usual_allowed v.option

include hkinds in
theorem filter_kind_of_mem {g : Group} (hg : g ∈ groups) :
    (groups.filter fun g' => g'.kind = g.kind) = [g] := by
  induction groups with
  | nil => contradiction
  | cons first rest ih =>
    rw [List.map_cons, List.nodup_cons] at hkinds
    obtain ⟨hfirst, hrest⟩ := hkinds
    rcases List.mem_cons.mp hg with rfl | hg
    · have hnone : (rest.filter fun g' => g'.kind = g.kind) = [] := by
        refine List.filter_eq_nil_iff.mpr fun g' hg' hkind => hfirst ?_
        exact of_decide_eq_true hkind ▸ List.mem_map_of_mem hg'
      rw [List.filter_cons_of_pos (by simp), hnone]
    · have hne : first.kind ≠ g.kind := fun hkind => hfirst (hkind ▸ List.mem_map_of_mem hg)
      rw [List.filter_cons_of_neg (by simpa using hne), ih hrest hg]

include hkinds in
theorem told_chosen {v : Setting} (h : Chosen groups v) (rom : Option String) :
    (Arguments.hear { rom := rom } groups).told v.option = [some v.text] ∨
      (Arguments.hear { rom := rom } groups).told v.option = [] ∧ v.text = v.option.byDefault := by
  rw [Arguments.told_hear]
  rcases h with ⟨spelling, hmem⟩ | ⟨husual, hnone⟩
  · have hfilter := filter_kind_of_mem hkinds hmem
    exact Or.inl (congrArg (List.map Group.text?) hfilter)
  · refine Or.inr ⟨?_, (congrArg Setting.text husual).trans (Setting.usual_text v.option)⟩
    rw [List.map_eq_nil_iff, List.filter_eq_nil_iff]
    intro g hg hkind
    cases g with
    | mute => contradiction
    | setting w spelling => exact hnone w spelling hg (Option.some.inj (of_decide_eq_true hkind))

include hkinds in
theorem values_chosen {v : Setting} (h : Chosen groups v) (rom : Option String) :
    (Arguments.hear { rom := rom } groups).values v.option = [v.text] := by
  rcases told_chosen hkinds h rom with htold | ⟨htold, husual⟩
  · exact Arguments.values_of_told htold
  · rw [Arguments.values_of_told_nil htold, husual]

include hallowed hkinds in
theorem check_hear (rom : String) : (Arguments.hear { rom := some rom } groups).check = .ok rom := by
  rw [Arguments.check_eq_ok_iff]
  refine ⟨rfl, fun o => ?_, ?_⟩
  · obtain ⟨v, hv, rfl⟩ := exists_chosen groups o
    rw [Arguments.problem?_eq_none_iff, values_chosen hkinds hv, Arguments.occurrences_eq]
    constructor
    · intro text htext
      rw [List.mem_singleton.mp htext]
      exact Setting.fault?_text (allowed_of_chosen hallowed hv)
    · rcases told_chosen hkinds hv (some rom) with htold | ⟨htold, -⟩
      · rw [htold]
        exact Nat.le_refl 1
      · rw [htold]
        exact Nat.zero_le 1
  · show 0 + (groups.map Group.kind).count none ≤ 1
    rw [Nat.zero_add]
    exact List.nodup_iff_count_le_one.mp hkinds none

theorem mutes_hear_pos_iff (rom : Option String) :
    0 < (Arguments.hear { rom := rom } groups).mutes ↔ .mute ∈ groups := by
  have hmutes : (Arguments.hear { rom := rom } groups).mutes = (groups.map Group.kind).count none :=
    Nat.zero_add _
  rw [hmutes, List.count_pos_iff, List.mem_map]
  constructor
  · rintro ⟨g, hg, hkind⟩
    cases g with
    | mute => exact hg
    | setting => contradiction
  · exact fun hg => ⟨.mute, hg, rfl⟩

include hallowed hkinds in
theorem settings_hear (rom : String) : ∃ settings,
    (Arguments.hear { rom := some rom } groups).settings = .ok settings ∧ settings.rom = rom ∧
      (settings.mute = true ↔ .mute ∈ groups) ∧ ∀ v, Chosen groups v → v.HoldsIn settings := by
  have hvalue {v : Setting} (hv : Chosen groups v) :
      (Arguments.hear { rom := some rom } groups).value v.option = v.text :=
    Arguments.value_of_values (values_chosen hkinds hv (some rom))
  obtain ⟨v, hv, hpace⟩ := exists_chosen groups .cyclesPerSecond
  cases v with
  | scale | tone | logLevel => contradiction
  | cycles n =>
    have hwhole : Numeral.whole? ((Arguments.hear { rom := some rom } groups).value .cyclesPerSecond) = some n :=
      (congrArg Numeral.whole? (hvalue hv)).trans (Numeral.whole?_toString n)
    obtain ⟨m, -, -, hsettings⟩ := Arguments.settings_of_check (check_hear hallowed hkinds rom)
    rw [hwhole] at hsettings
    exact ⟨_, hsettings, rfl, decide_eq_true_iff.trans (mutes_hear_pos_iff (some rom)), fun w hw =>
      Setting.holdsIn_of_settings (allowed_of_chosen hallowed hw) hsettings (hvalue hw)⟩

end Chosen
end CommandLine

open CommandLine

/-- Groups of allowed values in any order and spelling, of each kind at most one, and behind two dashes any ROM: all
that is given is set, and every option that is not given has its default. -/
theorem settings_read_back (rom : String) (groups : List Group) (hallowed : ∀ g ∈ groups, g.Allowed)
    (hkinds : (groups.map Group.kind).Nodup) :
    ∃ settings, parse (groups.flatMap Group.args ++ ["--", rom]) = .ok settings ∧
      settings.rom = rom ∧ (settings.mute = true ↔ .mute ∈ groups) ∧
      (∀ v spelling, .setting v spelling ∈ groups → v.HoldsIn settings) ∧
      ∀ o, (∀ v spelling, .setting v spelling ∈ groups → v.option ≠ o) →
        (Setting.usual o).HoldsIn settings := by
  obtain ⟨settings, hsettings, hrom, hmute, hchosen⟩ := settings_hear hallowed hkinds rom
  refine ⟨settings, ?_, hrom, hmute, fun v spelling hmem => hchosen v (Or.inl ⟨spelling, hmem⟩), ?_⟩
  · rw [parse, Arguments.read_line hallowed]
    exact hsettings
  · intro o hnone
    have ho := Setting.usual_option o
    exact hchosen _ (Or.inr ⟨congrArg Setting.usual ho.symm, fun w spelling hmem =>
      ho.symm ▸ hnone w spelling hmem⟩)

/-- Three of the options in three spellings, sound off in between, and a ROM that looks like a flag. -/
def quiet : List Group := [
  .setting (.cycles 4294967295) (.shortEquals 'c'),
  .setting (.tone "440.5" (.finite false 4405 (-1))) .long,
  .mute,
  .setting (.logLevel .off) .longEquals]

theorem settings_read_back_of_quiet :
    (∀ g ∈ quiet, g.Allowed) ∧ (quiet.map Group.kind).Nodup ∧
      ∃ settings, parse ["-c=4294967295", "--tone", "440.5", "--mute", "--log-level=off", "--", "--help"] =
          .ok settings ∧
        settings.rom = "--help" ∧ settings.mute = true ∧ settings.cyclesPerSecond = 4294967295 ∧
        settings.tone = (Numeral.finite false 4405 (-1)).toFloat32 ∧ settings.verbosity = .off ∧
        settings.scale = .x16 := by
  have hallowed : ∀ g ∈ quiet, g.Allowed := by
    simp only [quiet, List.forall_mem_cons]
    have hpace : (Setting.cycles 4294967295).Allowed := (by decide : 1 ≤ (4294967295 : UInt32).toNat)
    have htone : (Setting.tone "440.5" (.finite false 4405 (-1))).Allowed := ⟨rfl, rfl⟩
    exact ⟨⟨hpace, rfl⟩, ⟨htone, trivial⟩, trivial, ⟨trivial, trivial⟩, List.forall_mem_nil _⟩
  have hkinds : (quiet.map Group.kind).Nodup := by decide
  obtain ⟨settings, hparse, hrom, hmute, hgiven, husual⟩ := settings_read_back "--help" quiet hallowed hkinds
  refine ⟨hallowed, hkinds, settings, hparse, hrom, hmute.mpr (by simp [quiet]), ?_, ?_, ?_, ?_⟩
  · exact hgiven (.cycles 4294967295) (.shortEquals 'c') (by simp [quiet])
  · exact hgiven (.tone "440.5" (.finite false 4405 (-1))) .long (by simp [quiet])
  · exact hgiven (.logLevel .off) .longEquals (by simp [quiet])
  · refine husual .scale fun v spelling hmem => ?_
    simp only [quiet, List.mem_cons, Group.setting.injEq, reduceCtorEq, List.not_mem_nil, or_false, false_or] at hmem
    rcases hmem with ⟨rfl, -⟩ | ⟨rfl, -⟩ | ⟨rfl, -⟩ <;> decide

end Chip8
