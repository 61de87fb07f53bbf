import CommandEngine.Selection
import Mathlib.Data.List.Basic
import Mathlib.Data.List.Induction
import Mathlib.Data.List.TakeWhile
/-!
# What words select

Words are resolved one at a time, and what a word does depends on the selections made before it. Yet
the outcome can be said of the words as a whole. They open the options that their option words name,
in order, and before all of these the main option if the first word other than a bare dash is an
argument, or if there are no words at all (`Entry.openings`). Whether every name among these is
registered decides about success, the first that is not is the error, and each argument belongs to
the option opened last before it (`Entry.select_openings`).

The main option is opened at two places, before all words or at an argument that no option comes
before. These are one and the same as far as the outcome goes (`Entry.select_eq_selectWords`),
because nothing but bare dashes can stand between them. So it is enough to follow the words from no
selection at all, and the invariant `Entry.Resolves` says of each part of the words what the result
says of the whole.
-/

namespace CommandEngine

/-- The only option word that opens nothing is the bare dash. -/
theorem openedNames_eq_nil_iff {word : String} (dashed : isOptionWord word = true) :
    openedNames word = [] ↔ word = "-" := by
  rw [← String.toList_inj]
  unfold isOptionWord at dashed
  unfold openedNames
  split at dashed
  case h_1 letters hword =>
    rw [hword]
    cases letters with
    | nil => simp
    | cons letter rest => by_cases second : letter = '-' <;> simp [second]
  case h_2 => cases dashed

/-- Whether the first word other than a bare dash is an argument. -/
def startsWithArgument (words : List String) : Bool :=
  (words.dropWhile (· == "-")).head?.any (!isOptionWord ·)

theorem dropWhile_dash_eq_nil_iff {words : List String} :
    words.dropWhile (· == "-") = [] ↔ ∀ word ∈ words, word = "-" := by
  simp [List.dropWhile_eq_nil_iff]

/-- Only bare dashes leave it open whether words start with an argument. -/
theorem startsWithArgument_append {words : List String} (shown : ¬∀ word ∈ words, word = "-")
    (more : List String) : startsWithArgument (words ++ more) = startsWithArgument words := by
  rw [← dropWhile_dash_eq_nil_iff] at shown
  have hdrop : (words ++ more).dropWhile (· == "-") = words.dropWhile (· == "-") ++ more := by
    rw [List.dropWhile_append, if_neg (by simpa using shown)]
  rw [startsWithArgument, startsWithArgument, hdrop, List.head?_append_of_ne_nil _ shown]

private theorem startsWithArgument_of_dashes {words : List String}
    (dashes : ∀ word ∈ words, word = "-") :
    startsWithArgument words = false := by
  rw [startsWithArgument, dropWhile_dash_eq_nil_iff.2 dashes]
  rfl

/-- After bare dashes, it is the next word that decides. -/
theorem startsWithArgument_concat {words : List String} (dashes : ∀ word ∈ words, word = "-")
    (word : String) : startsWithArgument (words ++ [word]) = !isOptionWord word := by
  have hdrop : (words ++ [word]).dropWhile (· == "-") = [word].dropWhile (· == "-") := by
    rw [List.dropWhile_append, dropWhile_dash_eq_nil_iff.2 dashes]
    rfl
  rw [startsWithArgument, hdrop]
  by_cases dash : word = "-"
  · subst dash
    rfl
  · simp [dash]

namespace Entry

variable {ω : Type} {entry : Entry ω} {words : List String} {word unknown : String}

/-- The options that words open in turn, the main one only if an argument has need of it. -/
def openedBy (entry : Entry ω) (words : List String) : List String :=
  (if startsWithArgument words then [entry.mainOption] else []) ++
    (words.filter isOptionWord).flatMap openedNames

/-- The options that the words after a command name open, in the order in which they do. -/
def openings (entry : Entry ω) (words : List String) : List String :=
  if words.isEmpty then [entry.mainOption] else entry.openedBy words

/-- With a word there is an argument or an option word, or there are only bare dashes. -/
theorem openings_of_ne_nil (nonempty : words ≠ []) :
    entry.openings words = entry.openedBy words := by
  rw [openings, List.isEmpty_eq_false_iff.2 nonempty]
  rfl

/-- What one word opens, given whether nothing has been opened before it. -/
def opensNext (entry : Entry ω) (isFirst : Bool) (word : String) : List String :=
  if isOptionWord word then openedNames word else if isFirst then [entry.mainOption] else []

/-- Nothing is opened exactly by bare dashes. -/
theorem openedBy_eq_nil_iff : entry.openedBy words = [] ↔ ∀ word ∈ words, word = "-" := by
  constructor
  · intro hnone
    by_contra shown
    obtain ⟨hmain, hnamed⟩ := List.append_eq_nil_iff.1 hnone
    have hstart : startsWithArgument words = false := by simpa using hmain
    -- The first word that is no bare dash is an option word and opens something.
    rw [← dropWhile_dash_eq_nil_iff] at shown
    have plain := List.head_dropWhile_not (· == "-") shown
    have here := (List.dropWhile_sublist (· == "-")).subset (List.head_mem shown)
    rw [startsWithArgument, List.head?_eq_some_head shown] at hstart
    have dashed : isOptionWord ((words.dropWhile (· == "-")).head shown) = true := by
      simpa using hstart
    have hopened := List.flatMap_eq_nil_iff.1 hnamed _ (List.mem_filter.2 ⟨here, dashed⟩)
    rw [(openedNames_eq_nil_iff dashed).1 hopened] at plain
    cases plain
  · intro dashes
    rw [openedBy, startsWithArgument_of_dashes dashes, if_neg (by decide), List.nil_append,
      List.flatMap_eq_nil_iff]
    intro word here
    obtain ⟨member, dashed⟩ := List.mem_filter.1 here
    exact (openedNames_eq_nil_iff dashed).2 (dashes word member)

/-- One more word opens what it does after the words before it. -/
theorem openedBy_concat (entry : Entry ω) (words : List String) (word : String) :
    entry.openedBy (words ++ [word]) =
      entry.openedBy words ++ entry.opensNext (entry.openedBy words).isEmpty word := by
  have hnamed : ((words ++ [word]).filter isOptionWord).flatMap openedNames =
      (words.filter isOptionWord).flatMap openedNames ++
        (if isOptionWord word then openedNames word else []) := by
    by_cases dashed : isOptionWord word = true <;> simp [dashed]
  by_cases dashes : ∀ word ∈ words, word = "-"
  · have hnone : entry.openedBy words = [] := openedBy_eq_nil_iff.2 dashes
    have hrest := (List.append_eq_nil_iff.1 hnone).2
    rw [hnone, openedBy, hnamed, hrest, startsWithArgument_concat dashes, opensNext]
    by_cases dashed : isOptionWord word = true <;> simp [dashed]
  · have hsome : (entry.openedBy words).isEmpty = false := by
      rw [List.isEmpty_eq_false_iff]
      exact fun hnone => dashes (openedBy_eq_nil_iff.1 hnone)
    rw [hsome, openedBy, openedBy, hnamed, startsWithArgument_append dashes, opensNext,
      List.append_assoc]
    by_cases dashed : isOptionWord word = true <;> simp [dashed]

/-- Options are opened one after another, as long as they are registered; the first that is not is
the error, whatever has been opened before. -/
theorem openOptions_eq (entry : Entry ω) (opened : List Selection) (names : List String) :
    entry.openOptions opened names =
      match names.find? (!entry.hasOption ·) with
      | some unknown => .error unknown
      | none => .ok ((names.map (⟨·, []⟩)).reverse ++ opened) := by
  induction names generalizing opened with
  | nil => rfl
  | cons name rest ih =>
      rw [openOptions, openOption]
      by_cases registered : entry.hasOption name = true
      · rw [if_pos registered, List.find?_cons_of_neg (by simpa using registered)]
        simp only [ih, List.map_cons, List.reverse_cons, List.append_assoc, List.singleton_append]
      · rw [if_neg registered, List.find?_cons_of_pos (by simpa using registered)]

/-- Take a word as an argument, unless it is an option word. -/
def takeArgument (word : String) (opened : List Selection) : List Selection :=
  if isOptionWord word then opened else Selection.addArgument word opened

/-- A word first opens what it has to and is then taken as an argument. -/
theorem selectWord_eq (entry : Entry ω) (opened : List Selection) (word : String) :
    entry.selectWord opened word =
      (entry.openOptions opened (entry.opensNext opened.isEmpty word)).map (takeArgument word) := by
  have htake : takeArgument word =
      if isOptionWord word then id else Selection.addArgument word := by
    funext opened
    rw [takeArgument]
    split <;> rfl
  rw [selectWord, opensNext, htake]
  by_cases dashed : isOptionWord word = true
  · rw [if_pos dashed, if_pos dashed, if_pos dashed]
    cases entry.openOptions opened (openedNames word) <;> rfl
  · rw [if_neg dashed, if_neg dashed, if_neg dashed]
    by_cases first : opened.isEmpty = true
    · rw [if_pos first, if_pos first, List.isEmpty_iff.1 first, openOptions]
      cases entry.openOption [] entry.mainOption <;> rfl
    · rw [if_neg first, if_neg first]
      rfl

private theorem selectWords_concat (entry : Entry ω) (opened : List Selection) (words : List String)
    (word : String) :
    entry.selectWords opened (words ++ [word]) =
      match entry.selectWords opened words with
      | .error unknown => .error unknown
      | .ok opened => entry.selectWord opened word := by
  induction words generalizing opened with
  | nil =>
      rw [List.nil_append, selectWords, selectWords]
      dsimp only
      cases entry.selectWord opened word <;> rfl
  | cons first rest ih =>
      rw [List.cons_append, selectWords, selectWords]
      cases entry.selectWord opened first with
      | error unknown => rfl
      | ok opened => exact ih opened

/-! ## What has been selected -/

/-- A member of a list that was extended by one is the last one or a member of the list before. -/
theorem concat_eq_append_cons_cases {α : Type} {init front back : List α} {last middle : α}
    (hsplit : init ++ [last] = front ++ middle :: back) :
    init = front ∧ last = middle ∧ back = [] ∨
      ∃ between, init = front ++ middle :: between ∧ back = between ++ [last] := by
  rcases List.eq_nil_or_concat back with rfl | ⟨between, final, rfl⟩
  · obtain ⟨hinit, hlast⟩ := List.append_inj' hsplit rfl
    exact .inl ⟨hinit, List.singleton_inj.1 hlast, rfl⟩
  · have hsplit' : init ++ [last] = (front ++ middle :: between) ++ [final] := by
      simpa using hsplit
    obtain ⟨hinit, hlast⟩ := List.append_inj' hsplit' rfl
    exact .inr ⟨between, hinit, by rw [List.singleton_inj.1 hlast, List.concat_eq_append]⟩

/-- A word that comes after others is an argument of the option opened last before it, and the
arguments up to it are those among the words up to it. -/
def Places (entry : Entry ω) (selections : List Selection) (before : List String) (word : String) :
    Prop :=
  ∃ front selection back earlier later,
    selections = front ++ selection :: back ∧
    (front ++ [selection]).map Selection.option = entry.openings (before ++ [word]) ∧
    selection.arguments = earlier ++ word :: later ∧
    front.flatMap Selection.arguments ++ earlier = before.filter (!isOptionWord ·)

/-- Words have made these selections, the oldest first. -/
structure Resolves (entry : Entry ω) (words : List String) (selections : List Selection) :
    Prop where
  options_eq : selections.map Selection.option = entry.openedBy words
  arguments_eq : selections.flatMap Selection.arguments = words.filter (!isOptionWord ·)
  places : ∀ before word after, words = before ++ word :: after → isOptionWord word = false →
    entry.Places selections before word

variable {selections : List Selection}

/-- Further selections leave an argument where it is. -/
theorem Places.append {before : List String} (placed : entry.Places selections before word)
    (more : List Selection) : entry.Places (selections ++ more) before word := by
  obtain ⟨front, selection, back, earlier, later, rfl, hoptions, harguments, hbefore⟩ := placed
  exact ⟨front, selection, back ++ more, earlier, later, by simp, hoptions, harguments, hbefore⟩

/-- Further arguments of the newest selection leave an argument where it is. -/
theorem Places.addArgument {before : List String} {init : List Selection} {newest : Selection}
    (placed : entry.Places (init ++ [newest]) before word) (next : String) :
    entry.Places (init ++ [{ newest with arguments := newest.arguments ++ [next] }])
      before word := by
  obtain ⟨front, selection, back, earlier, later, hsplit, hoptions, harguments, hbefore⟩ := placed
  rcases concat_eq_append_cons_cases hsplit with ⟨rfl, rfl, rfl⟩ | ⟨between, rfl, rfl⟩
  · refine ⟨init, _, [], earlier, later ++ [next], rfl, ?_, ?_, hbefore⟩
    · simpa using hoptions
    · simp [harguments]
  · exact ⟨front, selection, between ++ [_], earlier, later, by simp; rfl, hoptions, harguments,
      hbefore⟩

namespace Resolves

theorem nil (entry : Entry ω) : entry.Resolves [] [] where
  options_eq := rfl
  arguments_eq := rfl
  places before word after hsplit := by simp at hsplit

/-- An option word adds selections and no argument. -/
theorem concat_option (resolved : entry.Resolves words selections) {opened : List Selection}
    (dashed : isOptionWord word = true)
    (hoptions : (selections ++ opened).map Selection.option = entry.openedBy (words ++ [word]))
    (harguments : (selections ++ opened).flatMap Selection.arguments =
      words.filter (!isOptionWord ·)) :
    entry.Resolves (words ++ [word]) (selections ++ opened) where
  options_eq := hoptions
  arguments_eq := by simp [harguments, dashed]
  places before other after hsplit plain := by
    rcases concat_eq_append_cons_cases hsplit with ⟨rfl, rfl, rfl⟩ | ⟨between, rfl, rfl⟩
    · rw [dashed] at plain
      cases plain
    · exact (resolved.places before other between rfl plain).append opened

/-- An argument goes to the newest selection, once there is one. -/
theorem concat_argument (resolved : entry.Resolves words selections) {opened init : List Selection}
    {newest : Selection} (dashed : ¬isOptionWord word = true)
    (hall : selections ++ opened = init ++ [newest])
    (hoptions : (selections ++ opened).map Selection.option = entry.openedBy (words ++ [word]))
    (harguments : (selections ++ opened).flatMap Selection.arguments =
      words.filter (!isOptionWord ·)) :
    entry.Resolves (words ++ [word])
      (init ++ [{ newest with arguments := newest.arguments ++ [word] }]) := by
  rw [hall] at hoptions harguments
  have hoptions' : (init ++ [{ newest with arguments := newest.arguments ++ [word] }]).map
      Selection.option = entry.openedBy (words ++ [word]) := by simpa using hoptions
  refine ⟨hoptions', ?_, fun before other after hsplit plain => ?_⟩
  · simp only [List.flatMap_append, List.flatMap_singleton] at harguments ⊢
    rw [← List.append_assoc, harguments]
    simp [dashed]
  · rcases concat_eq_append_cons_cases hsplit with ⟨rfl, rfl, rfl⟩ | ⟨between, rfl, rfl⟩
    · rw [← openings_of_ne_nil (List.concat_ne_nil _ _)] at hoptions'
      exact ⟨init, _, [], newest.arguments, [], rfl, hoptions', rfl, by simpa using harguments⟩
    · have placed := (resolved.places before other between rfl plain).append opened
      rw [hall] at placed
      exact placed.addArgument word

/-- One more word opens its options, and an argument goes to the newest selection. -/
theorem concat (resolved : entry.Resolves words selections) (word : String) :
    ∃ after, entry.Resolves (words ++ [word]) after ∧
      takeArgument word (((entry.opensNext selections.isEmpty word).map (⟨·, []⟩)).reverse ++
        selections.reverse) = after.reverse := by
  have hempty : (entry.openedBy words).isEmpty = selections.isEmpty := by
    rw [← resolved.options_eq, List.isEmpty_map]
  have hopened := entry.openedBy_concat words word
  rw [hempty] at hopened
  generalize hnext : entry.opensNext selections.isEmpty word = next at hopened
  let opened : List Selection := next.map (⟨·, []⟩)
  have hoptions : (selections ++ opened).map Selection.option =
      entry.openedBy (words ++ [word]) := by
    simp [opened, hopened, resolved.options_eq, Function.comp_def]
  have harguments : (selections ++ opened).flatMap Selection.arguments =
      words.filter (!isOptionWord ·) := by
    simp [opened, resolved.arguments_eq, List.flatMap_map]
  rw [← List.reverse_append, takeArgument]
  by_cases dashed : isOptionWord word = true
  · exact ⟨selections ++ opened, resolved.concat_option dashed hoptions harguments, if_pos dashed⟩
  · -- An argument opens the main option if nothing has been opened, so that it has where to go.
    have nonempty : selections ++ opened ≠ [] := by
      rw [Entry.opensNext, if_neg dashed] at hnext
      cases selections with
      | nil => simp [opened, ← hnext]
      | cons => simp
    obtain ⟨init, newest, hall⟩ := (List.eq_nil_or_concat _).resolve_left nonempty
    rw [List.concat_eq_append] at hall
    refine ⟨_, resolved.concat_argument dashed hall hoptions harguments, ?_⟩
    rw [if_neg dashed, hall]
    simp

end Resolves

/-- Words are taken as long as they open registered options; the first name that is not registered
is the error. -/
theorem selectWords_cases (entry : Entry ω) (words : List String) :
    (∃ unknown, (entry.openedBy words).find? (!entry.hasOption ·) = some unknown ∧
      entry.selectWords [] words = .error unknown) ∨
    ∃ selections, (entry.openedBy words).find? (!entry.hasOption ·) = none ∧
      entry.Resolves words selections ∧ entry.selectWords [] words = .ok selections.reverse := by
  induction words using List.reverseRecOn with
  | nil => exact .inr ⟨[], rfl, .nil entry, rfl⟩
  | append_singleton words word ih =>
      rw [selectWords_concat, openedBy_concat, List.find?_append]
      rcases ih with ⟨unknown, hfind, hselect⟩ | ⟨selections, hfind, resolved, hselect⟩
      · exact .inl ⟨unknown, by rw [hfind]; rfl, by rw [hselect]⟩
      · have hempty : (entry.openedBy words).isEmpty = selections.reverse.isEmpty := by
          rw [← resolved.options_eq, List.isEmpty_map, List.isEmpty_reverse]
        rw [hfind, hselect, hempty, Option.none_or]
        dsimp only
        rw [selectWord_eq, openOptions_eq]
        split
        case h_1 unknown hunknown => exact .inl ⟨unknown, hunknown, rfl⟩
        case h_2 hknown =>
          obtain ⟨after, resolved', htaken⟩ := resolved.concat word
          refine .inr ⟨after, hknown, resolved', ?_⟩
          rw [List.isEmpty_reverse, ← htaken]
          rfl

/-- Opening the main option before an argument comes to the same as opening it at the argument. -/
theorem select_eq_selectWords (entry : Entry ω) (nonempty : words ≠ []) :
    entry.select words = (entry.selectWords [] words).map List.reverse := by
  cases words with
  | nil => exact absurd rfl nonempty
  | cons word rest =>
      rw [select]
      by_cases dashed : isOptionWord word = true
      · have begins : beginsWithOption (word :: rest) = true := dashed
        rw [begins]
        rfl
      · have begins : beginsWithOption (word :: rest) = false := Bool.eq_false_iff.2 dashed
        have hword (opened : List Selection) : entry.selectWord opened word =
            if opened.isEmpty then
              (entry.openOption opened entry.mainOption).map (Selection.addArgument word)
            else .ok (Selection.addArgument word opened) := by
          rw [selectWord, if_neg dashed]
        rw [begins, selectWords, hword, openOption]
        by_cases registered : entry.hasOption entry.mainOption = true
        · simp [registered, selectWords, hword, Except.map]
        · simp [registered, Except.map]

/-- All options opened are registered and selected, or the first that is not is the error. -/
theorem select_cases (entry : Entry ω) (words : List String) :
    (∃ unknown, (entry.openings words).find? (!entry.hasOption ·) = some unknown ∧
      entry.select words = .error unknown) ∨
    ∃ selections, (entry.openings words).find? (!entry.hasOption ·) = none ∧
      entry.select words = .ok selections ∧
      selections.map Selection.option = entry.openings words ∧
      selections.flatMap Selection.arguments = words.filter (!isOptionWord ·) ∧
      ∀ before word after, words = before ++ word :: after → isOptionWord word = false →
        entry.Places selections before word := by
  by_cases empty : words = []
  · subst empty
    by_cases registered : entry.hasOption entry.mainOption = true
    · refine .inr ⟨[⟨entry.mainOption, []⟩], by simp [openings, registered], ?_, rfl, rfl, ?_⟩
      · simp [select, beginsWithOption, openOption, registered, selectWords, Except.map]
      · intro before word after hsplit
        simp at hsplit
    · refine .inl ⟨entry.mainOption, by simp [openings, registered], ?_⟩
      simp [select, beginsWithOption, openOption, registered]
  · rw [entry.select_eq_selectWords empty, openings_of_ne_nil empty]
    rcases entry.selectWords_cases words with
      ⟨unknown, hfind, hselect⟩ | ⟨selections, hfind, resolved, hselect⟩
    · exact .inl ⟨unknown, hfind, by rw [hselect]; rfl⟩
    · have hreverse : (entry.selectWords [] words).map List.reverse = .ok selections := by
        rw [hselect]
        exact congrArg Except.ok (List.reverse_reverse selections)
      exact .inr ⟨selections, hfind, hreverse, resolved.options_eq, resolved.arguments_eq,
        resolved.places⟩

/-- The selections that words make, whatever the command and its options: they succeed exactly if
all options they open are registered, and else the first of these that is not is the error. If they
succeed, the selections are of the options opened, in their order, and the arguments are the words
that are no option words, in their order, each of them with the option opened last before it. -/
theorem select_openings (entry : Entry ω) (words : List String) :
    ((∃ selections, entry.select words = .ok selections) ↔
      ∀ name ∈ entry.openings words, entry.hasOption name = true) ∧
    (∀ name, entry.select words = .error name ↔
      (entry.openings words).find? (!entry.hasOption ·) = some name) ∧
    ∀ selections, entry.select words = .ok selections →
      selections.map Selection.option = entry.openings words ∧
      selections.flatMap Selection.arguments = words.filter (!isOptionWord ·) ∧
      ∀ before word after, words = before ++ word :: after → isOptionWord word = false →
        entry.Places selections before word := by
  have hknown : (entry.openings words).find? (!entry.hasOption ·) = none ↔
      ∀ name ∈ entry.openings words, entry.hasOption name = true := by simp
  rw [← hknown]
  rcases entry.select_cases words with
    ⟨unknown, hfind, hselect⟩ | ⟨selections, hfind, hselect, options, arguments, placed⟩
  · rw [hfind, hselect]
    exact ⟨by simp, by simp, nofun⟩
  · rw [hfind, hselect]
    refine ⟨by simp, by simp, ?_⟩
    intro others same
    cases same
    exact ⟨options, arguments, placed⟩

/-- The main option is opened after two bare dashes, before an option word that opens two. -/
example : (Entry.ofPolicy "run" {} : Entry Unit).openings ["-", "-", "x", "-ab", "y"] =
    ["_DEFAULT_", "a", "b"] := by decide +kernel

end Entry

end CommandEngine
