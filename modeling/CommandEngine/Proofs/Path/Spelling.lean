import CommandEngine.Path
import Mathlib.Data.List.Forall2
import Mathlib.Data.List.TakeWhile
/-!
# How paths are spelled

The texts of paths have a grammar: parts with slashes between them, each part a name, alone or with
a number in brackets behind it (`PathStep.Spells`). A text is read exactly when it follows the
grammar, and otherwise the first part that does not is reported (`Path.ofText_grammar`).

Writing is not careful about names: a name that holds a slash or a bracket, or none at all, is
written as it stands. Yet no such path is ever read back by chance, for whatever is read has proper
names only. So a path survives being written and read exactly when the grammar has a text for it.
-/

namespace CommandEngine

namespace PathStep

/-- A name holds at least one character, and none that divides a path or a step. -/
structure IsName (name : List Char) : Prop where
  nonempty : name ≠ []
  no_opening : '[' ∉ name
  no_closing : ']' ∉ name
  no_slash : '/' ∉ name

/-- The part of a path that spells a step: its name, and behind it in brackets a decimal number
below `2 ^ 64`, which a step that passes over nothing may go without. -/
inductive Spells : List Char → PathStep → Prop
  | alone {name : List Char} (hname : IsName name) : Spells name ⟨String.ofList name, 0⟩
  | /-- The number may begin with zeros. -/
    numbered {name digits : List Char} (hname : IsName name) (nonempty : digits ≠ [])
    (decimal : ∀ c ∈ digits, c.isDigit = true) (fits : Nat.ofDigitChars 10 digits 0 < UInt64.size) :
    Spells (name ++ '[' :: (digits ++ [']']))
      ⟨String.ofList name, UInt64.ofNat (Nat.ofDigitChars 10 digits 0)⟩

private theorem isNameChar_iff {c : Char} : isNameChar c = true ↔ c ≠ '[' ∧ c ≠ ']' ∧ c ≠ '/' := by
  simp [isNameChar, and_assoc]

theorem isName_iff {name : List Char} :
    IsName name ↔ name ≠ [] ∧ ∀ c ∈ name, isNameChar c = true := by
  constructor
  · intro hname
    refine ⟨hname.nonempty, fun c here => isNameChar_iff.2 ⟨?_, ?_, ?_⟩⟩
    · exact fun same => hname.no_opening (same ▸ here)
    · exact fun same => hname.no_closing (same ▸ here)
    · exact fun same => hname.no_slash (same ▸ here)
  · rintro ⟨nonempty, hchars⟩
    have absent (c : Char) (other : isNameChar c = false) : c ∉ name := by
      intro here
      rw [hchars c here] at other
      cases other
    exact ⟨nonempty, absent '[' rfl, absent ']' rfl, absent '/' rfl⟩

theorem Spells.isName {part : List Char} {step : PathStep} (spells : Spells part step) :
    IsName step.name.toList := by
  cases spells <;> simpa

theorem Spells.ne_nil {part : List Char} {step : PathStep} (spells : Spells part step) :
    part ≠ [] := by
  cases spells with
  | alone hname => exact hname.nonempty
  | numbered => simp

theorem Spells.no_slash {part : List Char} {step : PathStep} (spells : Spells part step) :
    '/' ∉ part := by
  cases spells with
  | alone hname => exact hname.no_slash
  | numbered hname _ decimal _ =>
      intro here
      simp only [List.mem_append, List.mem_cons, List.not_mem_nil, or_false] at here
      rcases here with here | here | here | here
      · exact hname.no_slash here
      · cases here
      · have digit := decimal _ here
        cases digit
      · cases here

/-- Characters of a class before one that is not in it are taken up to there. -/
theorem takeWhile_append_cons {p : Char → Bool} {front : List Char} {c : Char} (back : List Char)
    (inside : ∀ c ∈ front, p c = true) (outside : p c = false) :
    (front ++ c :: back).takeWhile p = front ∧ (front ++ c :: back).dropWhile p = c :: back := by
  rw [List.takeWhile_append_of_pos inside, List.dropWhile_append_of_pos inside]
  simp [outside]

private theorem skipOfChars?_eq_some_iff {rest : List Char} {skip : UInt64} :
    skipOfChars? rest = some skip ↔ ∃ digits, rest = '[' :: (digits ++ [']']) ∧ digits ≠ [] ∧
      (∀ c ∈ digits, c.isDigit = true) ∧ Nat.ofDigitChars 10 digits 0 < UInt64.size ∧
      skip = UInt64.ofNat (Nat.ofDigitChars 10 digits 0) := by
  constructor
  · intro hskip
    unfold skipOfChars? at hskip
    split at hskip
    case h_1 rest =>
      dsimp only at hskip
      split at hskip
      case isTrue => cases hskip
      case isFalse sound =>
        simp only [Bool.or_eq_true, not_or, List.isEmpty_iff, bne_iff_ne, ne_eq,
          Decidable.not_not, decide_eq_true_eq, Nat.not_le] at sound
        obtain ⟨⟨nonempty, closed⟩, fits⟩ := sound
        refine ⟨rest.takeWhile Char.isDigit, ?_, nonempty, ?_, fits, (Option.some.inj hskip).symm⟩
        · rw [← closed, List.takeWhile_append_dropWhile]
        · exact fun c here => List.mem_takeWhile_imp here
    case h_2 => cases hskip
  · rintro ⟨digits, rfl, nonempty, decimal, fits, rfl⟩
    obtain ⟨htake, hdrop⟩ := takeWhile_append_cons [] decimal
      (show Char.isDigit ']' = false from rfl)
    simp [skipOfChars?, htake, hdrop, nonempty, fits]

/-- A part is read as the step it spells, and a part that spells none is refused. -/
theorem ofChars?_eq_some_iff {part : List Char} {step : PathStep} :
    ofChars? part = some step ↔ Spells part step := by
  constructor
  · intro hread
    have hpart := List.takeWhile_append_dropWhile (p := isNameChar) (l := part)
    have hchars : ∀ c ∈ part.takeWhile isNameChar, isNameChar c = true :=
      fun c here => List.mem_takeWhile_imp here
    unfold ofChars? at hread
    generalize part.takeWhile isNameChar = name at hread hpart hchars
    generalize part.dropWhile isNameChar = rest at hread hpart
    subst hpart
    dsimp only at hread
    split at hread
    case isTrue => cases hread
    case isFalse nonempty =>
      have hname : IsName name := isName_iff.2 ⟨by simpa using nonempty, hchars⟩
      split at hread
      case isTrue hempty =>
        rw [List.isEmpty_iff.1 hempty, List.append_nil, ← Option.some.inj hread]
        exact .alone hname
      case isFalse =>
        obtain ⟨skip, hskip, rfl⟩ := Option.map_eq_some_iff.1 hread
        obtain ⟨digits, rfl, nonempty, decimal, fits, rfl⟩ := skipOfChars?_eq_some_iff.1 hskip
        exact .numbered hname nonempty decimal fits
  · intro spells
    cases spells with
    | alone hname =>
        obtain ⟨nonempty, hchars⟩ := isName_iff.1 hname
        have htake := List.takeWhile_eq_self_iff.2 hchars
        have hdrop := List.dropWhile_eq_nil_iff.2 hchars
        simp [ofChars?, htake, hdrop, nonempty]
    | @numbered name digits hname nonempty decimal fits =>
        obtain ⟨named, hchars⟩ := isName_iff.1 hname
        obtain ⟨htake, hdrop⟩ := takeWhile_append_cons (digits ++ [']']) hchars
          (show isNameChar '[' = false from rfl)
        have hskip := skipOfChars?_eq_some_iff.2 ⟨digits, rfl, nonempty, decimal, fits, rfl⟩
        simp [ofChars?, htake, hdrop, named, hskip]

/-- A pattern of a name, alone or with digits in brackets behind it, for some class of digits: the
part it matches, the name and the digits that it finds. -/
inductive Matches (isDecimal : Char → Bool) : List Char → List Char → Option (List Char) → Prop
  | alone {name : List Char} (hname : IsName name) : Matches isDecimal name name none
  | numbered {name digits : List Char} (hname : IsName name) (nonempty : digits ≠ [])
    (decimal : ∀ c ∈ digits, isDecimal c = true) :
    Matches isDecimal (name ++ '[' :: (digits ++ [']'])) name (some digits)

/-- The machine word that digits found by the pattern spell: there may be none, but if there are
any, they are from `0` to `9`, and their value fits into the word. -/
inductive Counts : Option (List Char) → UInt64 → Prop
  | absent : Counts none 0
  | present {digits : List Char} (decimal : ∀ c ∈ digits, c.isDigit = true)
    (fits : Nat.ofDigitChars 10 digits 0 < UInt64.size) :
    Counts (some digits) (UInt64.ofNat (Nat.ofDigitChars 10 digits 0))

/-- It makes no difference whether the pattern takes further characters for digits, such as those of
other scripts, because no number is read from them. -/
theorem spells_iff_matches (further : Char → Bool) {part : List Char} {step : PathStep} :
    Spells part step ↔ ∃ count,
      Matches (fun c => c.isDigit || further c) part step.name.toList count ∧
        Counts count step.skip := by
  constructor
  · intro spells
    cases spells with
    | alone hname =>
        refine ⟨none, ?_, .absent⟩
        rw [String.toList_ofList]
        exact .alone hname
    | @numbered name digits hname nonempty decimal fits =>
        refine ⟨some digits, ?_, .present decimal fits⟩
        rw [String.toList_ofList]
        exact .numbered hname nonempty fun c here => by rw [decimal c here, Bool.true_or]
  · rintro ⟨count, found, counts⟩
    obtain ⟨name, skip⟩ := step
    generalize hname' : name.toList = chars at found
    rw [← String.ofList_toList (s := name), hname']
    cases found with
    | alone hname =>
        cases counts
        exact .alone hname
    | numbered hname nonempty _ =>
        cases counts with
        | present decimal fits => exact .numbered hname nonempty decimal fits

/-- A step with a proper name is written as the grammar has it. -/
theorem spells_text {step : PathStep} (hname : IsName step.name.toList) :
    Spells step.text.toList step := by
  obtain ⟨name, skip⟩ := step
  unfold text
  by_cases hskip : skip = 0
  · subst hskip
    simpa using Spells.alone hname
  · have hvalue : Nat.ofDigitChars 10 (Nat.toDigits 10 skip.toNat) 0 = skip.toNat :=
      Nat.ofDigitChars_ten_toDigits
    have spelled := Spells.numbered hname Nat.toDigits_ne_nil
      (fun c here => Nat.isDigit_of_mem_toDigits (by decide) (by decide) here)
      (hvalue ▸ UInt64.toNat_lt_size skip)
    rw [hvalue, String.ofList_toList, UInt64.ofNat_toNat] at spelled
    simpa [hskip] using spelled

end PathStep

namespace Path

/-! ## The grammar of a path -/

/-- The parts of a text are what stands between its slashes. -/
structure HasParts (text : String) (parts : List (List Char)) : Prop where
  nonempty : parts ≠ []
  no_slash : ∀ part ∈ parts, '/' ∉ part
  text_eq : text.toList = ['/'].intercalate parts

/-- A text has only one list of parts. -/
theorem HasParts.splitOn_eq {text : String} {parts : List (List Char)}
    (hparts : HasParts text parts) : text.toList.splitOn '/' = parts := by
  rw [hparts.text_eq, List.splitOn_intercalate '/' hparts.no_slash hparts.nonempty]

private theorem not_mem_of_mem_splitOn {c : Char} {cs part : List Char}
    (here : part ∈ cs.splitOn c) :
    c ∉ part := by
  induction cs generalizing part with
  | nil =>
      rw [List.splitOn_nil, List.mem_singleton] at here
      simp [here]
  | cons first rest ih =>
      rw [List.splitOn_cons_eq_if_modifyHead] at here
      split at here
      · rcases List.mem_cons.1 here with rfl | later
        · exact List.not_mem_nil
        · exact ih later
      case isFalse other =>
        obtain ⟨next, later, hsplit⟩ := List.exists_cons_of_ne_nil (List.splitOn_ne_nil c rest)
        rw [hsplit, List.modifyHead_cons] at here
        rw [hsplit] at ih
        rcases List.mem_cons.1 here with rfl | further
        · rw [List.mem_cons, not_or]
          exact ⟨fun same => other (by simp [same]), ih List.mem_cons_self⟩
        · exact ih (List.mem_cons_of_mem _ further)

private theorem hasParts_splitOn (text : String) : HasParts text (text.toList.splitOn '/') where
  nonempty := List.splitOn_ne_nil '/' text.toList
  no_slash _ here := not_mem_of_mem_splitOn here
  text_eq := (List.intercalate_splitOn '/').symm

/-- The steps are read exactly if every part spells its step. -/
theorem stepsOfParts_eq_ok_iff {parts : List (List Char)} {steps : List PathStep} :
    stepsOfParts parts = .ok steps ↔ List.Forall₂ PathStep.Spells parts steps := by
  induction parts generalizing steps with
  | nil => simp [stepsOfParts, eq_comm]
  | cons part rest ih =>
      simp only [stepsOfParts, List.forall₂_cons_left_iff, ← PathStep.ofChars?_eq_some_iff, ← ih]
      cases PathStep.ofChars? part with
      | none => simp
      | some step =>
          cases stepsOfParts rest with
          | error cause => simp [Except.map]
          | ok later => simp [Except.map, eq_comm]

/-- Otherwise the first part that spells no step is reported. -/
theorem stepsOfParts_eq_error_iff {parts : List (List Char)} {cause : PathError} :
    stepsOfParts parts = .error cause ↔ ∃ front part back,
      parts = front ++ part :: back ∧ cause = .badStep (String.ofList part) ∧
        (∀ earlier ∈ front, ∃ step, PathStep.Spells earlier step) ∧
        ¬∃ step, PathStep.Spells part step := by
  induction parts with
  | nil => simp [stepsOfParts]
  | cons part rest ih =>
      rw [stepsOfParts]
      cases hread : PathStep.ofChars? part with
      | none =>
          have bad : ¬∃ step, PathStep.Spells part step := by
            rintro ⟨step, spells⟩
            rw [PathStep.ofChars?_eq_some_iff.2 spells] at hread
            cases hread
          constructor
          · intro hcause
            exact ⟨[], part, rest, rfl, (Except.error.inj hcause).symm, nofun, bad⟩
          · rintro ⟨front, part', back, hsplit, rfl, good, -⟩
            cases front with
            | nil =>
                cases hsplit
                rfl
            | cons first front =>
                cases hsplit
                exact absurd (good part List.mem_cons_self) bad
      | some step =>
          have spells := PathStep.ofChars?_eq_some_iff.1 hread
          have hrest : (stepsOfParts rest).map (step :: ·) = .error cause ↔
              stepsOfParts rest = .error cause := by
            cases stepsOfParts rest <;> simp [Except.map]
          rw [hrest, ih]
          constructor
          · rintro ⟨front, part', back, rfl, hcause, good, bad⟩
            exact ⟨part :: front, part', back, rfl, hcause,
              List.forall_mem_cons.2 ⟨⟨step, spells⟩, good⟩, bad⟩
          · rintro ⟨front, part', back, hsplit, hcause, good, bad⟩
            cases front with
            | nil =>
                cases hsplit
                exact absurd ⟨step, spells⟩ bad
            | cons first front =>
                cases hsplit
                exact ⟨front, part', back, rfl, hcause, (List.forall_mem_cons.1 good).2, bad⟩

/-- A text is read as a path exactly if its parts spell the steps. The empty text needs no case of
its own: its only part is empty and spells nothing. -/
theorem ofText_eq_ok_iff {text : String} {path : Path} :
    ofText text = .ok path ↔
      List.Forall₂ PathStep.Spells (text.toList.splitOn '/') path.steps := by
  rw [ofText]
  split
  case isTrue hempty =>
    refine iff_of_false nofun fun spelled => ?_
    rw [String.isEmpty_iff.1 hempty, String.toList_empty, List.splitOn_nil,
      List.forall₂_cons_left_iff] at spelled
    obtain ⟨step, -, spells, -⟩ := spelled
    exact spells.ne_nil rfl
  case isFalse =>
    rw [← stepsOfParts_eq_ok_iff]
    obtain ⟨steps⟩ := path
    cases stepsOfParts (text.toList.splitOn '/') <;> simp [Except.map]

private theorem ofText_eq_empty_iff {text : String} : ofText text = .error .empty ↔ text = "" := by
  rw [ofText]
  split
  case isTrue hempty => exact iff_of_true rfl (String.isEmpty_iff.1 hempty)
  case isFalse nonempty =>
    refine iff_of_false (fun hcause => ?_) fun hempty => nonempty (by simp [hempty])
    cases hsteps : stepsOfParts (text.toList.splitOn '/') with
    | ok steps =>
        rw [hsteps] at hcause
        cases hcause
    | error cause =>
        rw [hsteps] at hcause
        cases hcause
        obtain ⟨front, part, back, hsplit, hcause, -⟩ := stepsOfParts_eq_error_iff.1 hsteps
        cases hcause

private theorem ofText_eq_badStep_iff {text part : String} : ofText text = .error (.badStep part) ↔
    text ≠ "" ∧ ∃ front back, text.toList.splitOn '/' = front ++ part.toList :: back ∧
      (∀ earlier ∈ front, ∃ step, PathStep.Spells earlier step) ∧
      ¬∃ step, PathStep.Spells part.toList step := by
  rw [ofText]
  split
  case isTrue hempty =>
    exact iff_of_false nofun fun ⟨nonempty, _⟩ => nonempty (String.isEmpty_iff.1 hempty)
  case isFalse nonempty =>
    have hcause : (stepsOfParts (text.toList.splitOn '/')).map Path.mk = .error (.badStep part) ↔
        stepsOfParts (text.toList.splitOn '/') = .error (.badStep part) := by
      cases stepsOfParts (text.toList.splitOn '/') <;> simp [Except.map]
    rw [hcause, stepsOfParts_eq_error_iff, and_iff_right (by simpa using nonempty)]
    constructor
    · rintro ⟨front, cs, back, hsplit, hpart, good, bad⟩
      cases hpart
      exact ⟨front, back, by rwa [String.toList_ofList], good, by rwa [String.toList_ofList]⟩
    · rintro ⟨front, back, hsplit, good, bad⟩
      exact ⟨front, part.toList, back, hsplit, by rw [String.ofList_toList], good, bad⟩

private theorem toList_text (path : Path) :
    path.text.toList = ['/'].intercalate (path.steps.map fun step => step.text.toList) := by
  rw [text, String.toList_intercalate, List.map_map]
  rfl

private theorem isName_of_forall₂_spells {parts : List (List Char)} {steps : List PathStep}
    (spelled : List.Forall₂ PathStep.Spells parts steps) :
    ∀ step ∈ steps, PathStep.IsName step.name.toList := by
  induction spelled with
  | nil => nofun
  | cons spells _ ih => exact List.forall_mem_cons.2 ⟨spells.isName, ih⟩

/-- A path is read back from its text exactly if it has a step and all names are proper. -/
theorem ofText_text_iff (path : Path) : ofText path.text = .ok path ↔
    path.steps ≠ [] ∧ ∀ step ∈ path.steps, PathStep.IsName step.name.toList := by
  rw [ofText_eq_ok_iff]
  constructor
  · intro spelled
    refine ⟨fun hempty => ?_, isName_of_forall₂_spells spelled⟩
    rw [hempty, List.forall₂_nil_right_iff] at spelled
    exact List.splitOn_ne_nil _ _ spelled
  · rintro ⟨nonempty, hnames⟩
    have spelled : ∀ step ∈ path.steps, PathStep.Spells step.text.toList step :=
      fun step here => PathStep.spells_text (hnames step here)
    have hparts : HasParts path.text (path.steps.map fun step => step.text.toList) :=
      { nonempty := by simpa using nonempty
        no_slash := by
          intro part here
          obtain ⟨step, hstep, rfl⟩ := List.mem_map.1 here
          exact (spelled step hstep).no_slash
        text_eq := path.toList_text }
    rw [hparts.splitOn_eq, List.forall₂_map_left_iff, List.forall₂_same]
    exact spelled

/-- Reading accepts the texts of the grammar, and writing and reading are inverse where there is
such a text.

A text is read as a path exactly if its parts spell the steps of the path, and it makes no
difference which further characters pass for digits at first. Only the empty text is reported as
such; any other text that is no path is reported with the first of its parts that spells no step.
The text of a path is read as that path exactly if there is a step and every step has a proper
name. -/
theorem ofText_grammar :
    (∀ text : String, ∃ parts, HasParts text parts ∧
      (∀ path, ofText text = .ok path ↔ List.Forall₂ PathStep.Spells parts path.steps) ∧
      (ofText text = .error .empty ↔ text = "") ∧
      ∀ part, ofText text = .error (.badStep part) ↔
        text ≠ "" ∧ ∃ front back, parts = front ++ part.toList :: back ∧
          (∀ earlier ∈ front, ∃ step, PathStep.Spells earlier step) ∧
          ¬∃ step, PathStep.Spells part.toList step) ∧
    (∀ (further : Char → Bool) (part : List Char) (step : PathStep),
      PathStep.Spells part step ↔ ∃ count,
        PathStep.Matches (fun c => c.isDigit || further c) part step.name.toList count ∧
          PathStep.Counts count step.skip) ∧
    ∀ path : Path, ofText path.text = .ok path ↔
      path.steps ≠ [] ∧ ∀ step ∈ path.steps, PathStep.IsName step.name.toList := by
  refine ⟨fun text => ?_, fun further part step => PathStep.spells_iff_matches further,
    ofText_text_iff⟩
  exact ⟨_, hasParts_splitOn text, fun path => ofText_eq_ok_iff, ofText_eq_empty_iff,
    fun part => ofText_eq_badStep_iff⟩

end Path

end CommandEngine
