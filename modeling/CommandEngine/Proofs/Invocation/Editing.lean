import CommandEngine.Proofs.Invocation.Building
/-!
# Edited invocations can still be run

A host may edit an invocation after it has been made: attach and detach occurrences, add arguments,
put the invocation under another command and an occurrence under another option. Each of these asks
the catalog about the names it brings in, and renaming an invocation asks about all names that are
there already. So the catalog supports the invocation after every edit, and running it fails only by
one of its actions (`Invocation.runnable_applyAll`).

What an accepted edit does is said once, by `Invocation.Becomes`, and a refused one changes nothing
(`Invocation.turnsOut`). Whatever edits keep is read off this (`Invocation.applyAll_induction`). An
invocation made of selections is a bare one with occurrences attached
(`Invocation.IsMade.exists_applyAll`), so runs start from bare invocations.

The catalog stays as it is meanwhile. An option that is withdrawn from it is the one way to make an
invocation unfit that was fit before.
-/

namespace CommandEngine

variable {ω : Type} {catalog : Catalog ω} {entry : Entry ω}

/-- Options are granted exactly if all of them are registered. -/
theorem Entry.requireOptions_eq_ok_iff {names : List String} :
    entry.requireOptions names = .ok () ↔ ∀ name ∈ names, entry.hasOption name = true := by
  induction names with
  | nil => simp [requireOptions]
  | cons name rest ih =>
      rw [requireOptions, List.forall_mem_cons, ← ih, ← Invocation.exists_definition_iff]
      cases entry.definition name <;> simp

namespace Invocation

variable {invocation changed start : Invocation} {edit : Edit}

/-- What an invocation becomes by an edit that is accepted. -/
inductive Becomes (catalog : Catalog ω) (invocation : Invocation) : Edit → Invocation → Prop
  | attach {option : Option String} {arguments : List String} {entry : Entry ω}
      {definition : Definition ω} (hentry : catalog.entry invocation.name = .ok entry)
      (hdefinition : entry.definition (entry.resolve option) = .ok definition) :
      Becomes catalog invocation (.attach option arguments)
        (invocation.push definition.priority (entry.resolve option) arguments)
  | detach (option : String) :
      Becomes catalog invocation (.detach option) (invocation.detach option)
  | addArguments (option : String) (arguments : List String) :
      Becomes catalog invocation (.addArguments option arguments)
        (invocation.addArguments option arguments)
  | rename {name : String} {entry : Entry ω} (hentry : catalog.entry name = .ok entry)
      (registered : ∀ occurrence ∈ invocation.occurrences,
        entry.hasOption occurrence.option = true) :
      Becomes catalog invocation (.rename name) { invocation with name }
  | renameOption {option : String} {name : Option String} {entry : Entry ω}
      (hentry : catalog.entry invocation.name = .ok entry)
      (registered : entry.hasOption (entry.resolve name) = true) :
      Becomes catalog invocation (.renameOption option name)
        { invocation with
          occurrences := changeFirst option
            (fun occurrence => { occurrence with option := entry.resolve name })
            invocation.occurrences }
  | renameMissing {option : String} {name : Option String}
      (missing : invocation.find? option = none) :
      Becomes catalog invocation (.renameOption option name) invocation
  | renameAt {index : Nat} {name : Option String} {occurrence : Occurrence} {entry : Entry ω}
      (hentry : catalog.entry invocation.name = .ok entry)
      (hindex : invocation.occurrences[index]? = some occurrence)
      (registered : entry.hasOption (entry.resolve name) = true) :
      Becomes catalog invocation (.renameAt index name)
        { invocation with
          occurrences :=
            invocation.occurrences.set index { occurrence with option := entry.resolve name } }
  | renameNowhere {index : Nat} {name : Option String}
      (missing : invocation.occurrences[index]? = none) :
      Becomes catalog invocation (.renameAt index name) invocation

/-- Changing the first occurrence of an option depends on that occurrence alone. -/
theorem changeFirst_const {option : String} {occurrences : List Occurrence} {first : Occurrence}
    (hfind : occurrences.find? (·.option == option) = some first)
    (change : Occurrence → Occurrence) :
    changeFirst option (fun _ => change first) occurrences =
      changeFirst option change occurrences := by
  induction occurrences with
  | nil => rfl
  | cons occurrence rest ih =>
      rw [List.find?_cons] at hfind
      rw [changeFirst, changeFirst]
      by_cases here : (occurrence.option == option) = true
      · rw [here] at hfind
        cases hfind
        rw [if_pos here, if_pos here]
      · rw [Bool.eq_false_iff.2 here] at hfind
        rw [if_neg here, if_neg here, ih hfind]

private theorem changeFirst_id (option : String) (occurrences : List Occurrence) :
    changeFirst option id occurrences = occurrences := by
  induction occurrences with
  | nil => rfl
  | cons occurrence rest ih => rw [changeFirst, ih, id_eq, ite_self]

/-- Putting the first occurrence of an option in its own place changes nothing. -/
theorem changeFirst_self {option : String} {occurrences : List Occurrence} {first : Occurrence}
    (hfind : occurrences.find? (·.option == option) = some first) :
    changeFirst option (fun _ => first) occurrences = occurrences :=
  (changeFirst_const hfind id).trans (changeFirst_id option occurrences)

/-- An occurrence goes under a registered option, or renaming it is refused and changes nothing. -/
theorem rename_cases (entry : Entry ω) (occurrence : Occurrence) (name : Option String) :
    (∃ cause, occurrence.rename entry name = (.error cause, occurrence)) ∨
    entry.hasOption (entry.resolve name) = true ∧
      occurrence.rename entry name =
        (.ok (), { occurrence with option := entry.resolve name }) := by
  unfold Occurrence.rename
  dsimp only
  split
  case h_1 cause _ => exact .inl ⟨cause, rfl⟩
  case h_2 definition hdefinition =>
    exact .inr ⟨exists_definition_iff.1 ⟨definition, hdefinition⟩, rfl⟩

/-- An edit of an invocation has an outcome: it is refused and changes nothing, or it is accepted
and does what it is for. -/
def TurnsOut (catalog : Catalog ω) (invocation : Invocation) (edit : Edit)
    (outcome : Except CatalogError Unit × Invocation) : Prop :=
  (∃ cause, outcome = (.error cause, invocation)) ∨
  ∃ changed, outcome = (.ok (), changed) ∧ Becomes catalog invocation edit changed

private theorem turnsOut_attach (catalog : Catalog ω) (invocation : Invocation)
    (option : Option String) (arguments : List String) :
    invocation.TurnsOut catalog (.attach option arguments)
      (invocation.attach catalog option arguments) := by
  unfold Invocation.attach
  split
  case h_1 cause _ => exact .inl ⟨cause, rfl⟩
  case h_2 entry hentry =>
    dsimp only
    split
    case h_1 cause _ => exact .inl ⟨cause, rfl⟩
    case h_2 definition hdefinition => exact .inr ⟨_, rfl, .attach hentry hdefinition⟩

private theorem turnsOut_rename (catalog : Catalog ω) (invocation : Invocation) (name : String) :
    invocation.TurnsOut catalog (.rename name) (invocation.rename catalog name) := by
  unfold Invocation.rename
  split
  case h_1 cause _ => exact .inl ⟨cause, rfl⟩
  case h_2 entry hentry =>
    split
    case h_1 cause _ => exact .inl ⟨cause, rfl⟩
    case h_2 hrequired =>
      have registered := Entry.requireOptions_eq_ok_iff.1 hrequired
      exact .inr ⟨_, rfl, .rename hentry fun occurrence here =>
        registered _ (List.mem_map_of_mem here)⟩

private theorem turnsOut_renameOption (hentry : catalog.entry invocation.name = .ok entry)
    (option : String) (name : Option String) :
    invocation.TurnsOut catalog (.renameOption option name)
      (invocation.renameOption entry option name) := by
  unfold Invocation.renameOption
  split
  case h_1 missing => exact .inr ⟨_, rfl, .renameMissing missing⟩
  case h_2 occurrence hfind =>
    dsimp only
    rcases rename_cases entry occurrence name with ⟨cause, hrename⟩ | ⟨registered, hrename⟩
    · rw [hrename]
      dsimp only
      rw [changeFirst_self hfind]
      exact .inl ⟨cause, rfl⟩
    · rw [hrename]
      dsimp only
      rw [changeFirst_const hfind
        (fun occurrence => { occurrence with option := entry.resolve name })]
      exact .inr ⟨_, rfl, .renameOption hentry registered⟩

private theorem turnsOut_renameAt (hentry : catalog.entry invocation.name = .ok entry) (index : Nat)
    (name : Option String) :
    invocation.TurnsOut catalog (.renameAt index name) (invocation.renameAt entry index name) := by
  unfold Invocation.renameAt
  split
  case h_1 missing => exact .inr ⟨_, rfl, .renameNowhere missing⟩
  case h_2 occurrence hindex =>
    dsimp only
    rcases rename_cases entry occurrence name with ⟨cause, hrename⟩ | ⟨registered, hrename⟩
    · obtain ⟨inside, rfl⟩ := List.getElem?_eq_some_iff.1 hindex
      rw [hrename]
      dsimp only
      rw [List.set_getElem_self]
      exact .inl ⟨cause, rfl⟩
    · rw [hrename]
      exact .inr ⟨_, rfl, .renameAt hentry hindex registered⟩

/-- Every edit turns out in one of these two ways. -/
theorem turnsOut (catalog : Catalog ω) (invocation : Invocation) (edit : Edit) :
    invocation.TurnsOut catalog edit (invocation.apply catalog edit) := by
  cases edit with
  | attach option arguments => exact turnsOut_attach catalog invocation option arguments
  | detach option => exact .inr ⟨_, rfl, .detach option⟩
  | addArguments option arguments => exact .inr ⟨_, rfl, .addArguments option arguments⟩
  | rename name => exact turnsOut_rename catalog invocation name
  | renameOption option name =>
      rw [apply]
      split
      case h_1 cause _ => exact .inl ⟨cause, rfl⟩
      case h_2 entry hentry => exact turnsOut_renameOption hentry option name
  | renameAt index name =>
      rw [apply]
      split
      case h_1 cause _ => exact .inl ⟨cause, rfl⟩
      case h_2 entry hentry => exact turnsOut_renameAt hentry index name

/-! ## Runs of edits -/

/-- What holds at the start and is kept by every edit that is accepted holds after a run. -/
theorem applyAll_induction {P : Invocation → Prop} {edits : List Edit}
    (step : ∀ invocation edit changed, edit ∈ edits → P invocation →
      Becomes catalog invocation edit changed → P changed)
    (atStart : P start) : P (start.applyAll catalog edits) := by
  induction edits generalizing start with
  | nil => exact atStart
  | cons edit rest ih =>
      rw [applyAll_cons]
      refine ih (fun invocation other changed here =>
        step invocation other changed (List.mem_cons_of_mem _ here)) ?_
      rcases turnsOut catalog start edit with ⟨cause, hresult⟩ | ⟨changed, hresult, becomes⟩
      · rw [hresult]
        exact atStart
      · rw [hresult]
        exact step start edit changed List.mem_cons_self atStart becomes

/-- An invocation as it is made: of the name of a command, or of what was selected for it. -/
inductive IsMade (catalog : Catalog ω) (invocation : Invocation) : Prop
  | bare {name : String} (made : ofName catalog name = .ok invocation)
  | selected {name : String} {selections : List Selection}
      (made : ofSelections catalog name selections = .ok invocation)

private theorem ofName_eq_ok_iff {name : String} :
    ofName catalog name = .ok invocation ↔
      (∃ entry, catalog.entry name = .ok entry) ∧ invocation = { name } := by
  rw [ofName]
  cases catalog.entry name <;> simp [Except.map, eq_comm]

/-- Attaching selections is a run of edits, all of which are accepted. -/
theorem applyAll_of_attachAll {selections : List Selection}
    (attached : invocation.attachAll catalog selections = (.ok (), changed)) :
    invocation.applyAll catalog
      (selections.map fun selection => .attach (some selection.option) selection.arguments) =
        changed := by
  induction selections generalizing invocation with
  | nil =>
      cases attached
      rfl
  | cons selection rest ih =>
      rw [attachAll] at attached
      split at attached
      case h_1 => cases attached
      case h_2 next hfirst =>
        have happly : (invocation.apply catalog
            (.attach (some selection.option) selection.arguments)).2 = next := by
          rw [apply, hfirst]
        rw [List.map_cons, applyAll_cons, happly]
        exact ih attached

/-- However an invocation is made, it is a bare one with occurrences attached to it, and editing it
goes on with that run. -/
theorem IsMade.exists_applyAll (made : start.IsMade catalog) :
    ∃ (name : String) (entry : Entry ω) (selections : List Selection),
      catalog.entry name = .ok entry ∧ ∀ edits, start.applyAll catalog edits =
        ({ name } : Invocation).applyAll catalog
          ((selections.map fun selection =>
            .attach (some selection.option) selection.arguments) ++ edits) := by
  cases made with
  | @bare name made =>
      obtain ⟨⟨entry, hentry⟩, rfl⟩ := ofName_eq_ok_iff.1 made
      exact ⟨name, entry, [], hentry, fun _ => rfl⟩
  | @selected name selections made =>
      rw [ofSelections] at made
      split at made
      case h_1 => cases made
      case h_2 bare hname =>
        obtain ⟨⟨entry, hentry⟩, rfl⟩ := ofName_eq_ok_iff.1 hname
        rcases hattach : ({ name } : Invocation).attachAll catalog selections with ⟨answer, built⟩
        rw [hattach] at made
        cases answer with
        | error cause => cases made
        | ok attached =>
            cases made
            refine ⟨name, entry, selections, hentry, fun edits => ?_⟩
            rw [applyAll, applyAll, List.foldl_append]
            exact congrArg (fun start : Invocation => start.applyAll catalog edits)
              (applyAll_of_attachAll hattach).symm

/-- A changed occurrence stands where the first one of its option stood. -/
theorem mem_of_mem_changeFirst {option : String} {change : Occurrence → Occurrence}
    {occurrences : List Occurrence} {occurrence : Occurrence}
    (here : occurrence ∈ changeFirst option change occurrences) :
    ∃ old ∈ occurrences, occurrence = old ∨ occurrence = change old := by
  induction occurrences with
  | nil => cases here
  | cons first rest ih =>
      rw [changeFirst] at here
      split at here
      · rcases List.mem_cons.1 here with same | later
        · exact ⟨first, List.mem_cons_self, .inr same⟩
        · exact ⟨occurrence, List.mem_cons_of_mem _ later, .inl rfl⟩
      · rcases List.mem_cons.1 here with same | later
        · exact ⟨first, List.mem_cons_self, .inl same⟩
        · obtain ⟨old, hold, hchange⟩ := ih later
          exact ⟨old, List.mem_cons_of_mem _ hold, hchange⟩

/-- A catalog goes on supporting an invocation through its edits. -/
theorem IsSupported.becomes (supported : invocation.IsSupported catalog)
    (becomes : Becomes catalog invocation edit changed) : changed.IsSupported catalog := by
  obtain ⟨entry, hentry, registered⟩ := supported
  cases becomes with
  | @attach option arguments other definition hother hdefinition =>
      cases hentry.symm.trans hother
      refine ⟨entry, hentry, fun occurrence here => ?_⟩
      rcases List.mem_append.1 here with old | new
      · exact registered occurrence old
      · rw [List.mem_singleton.1 new]
        exact exists_definition_iff.1 ⟨definition, hdefinition⟩
  | detach option =>
      exact ⟨entry, hentry, fun occurrence here =>
        registered occurrence (List.mem_of_mem_eraseP here)⟩
  | addArguments option arguments =>
      refine ⟨entry, hentry, fun occurrence here => ?_⟩
      obtain ⟨old, hold, rfl | rfl⟩ := mem_of_mem_changeFirst here
      · exact registered occurrence hold
      · exact registered old hold
  | rename hother registered' => exact ⟨_, hother, registered'⟩
  | @renameOption option name other hother registered' =>
      cases hentry.symm.trans hother
      refine ⟨entry, hentry, fun occurrence here => ?_⟩
      obtain ⟨old, hold, rfl | rfl⟩ := mem_of_mem_changeFirst here
      · exact registered occurrence hold
      · exact registered'
  | renameMissing missing => exact ⟨entry, hentry, registered⟩
  | @renameAt index name renamed other hother hindex registered' =>
      cases hentry.symm.trans hother
      refine ⟨entry, hentry, fun occurrence here => ?_⟩
      rcases List.mem_or_eq_of_mem_set here with old | rfl
      · exact registered occurrence old
      · exact registered'
  | renameNowhere missing => exact ⟨entry, hentry, registered⟩

/-- However an invocation is made and edited, the catalog supports it. -/
theorem IsMade.isSupported_applyAll (made : start.IsMade catalog) (edits : List Edit) :
    (start.applyAll catalog edits).IsSupported catalog := by
  obtain ⟨name, entry, selections, hentry, hrun⟩ := made.exists_applyAll
  rw [hrun]
  have atStart : ({ name } : Invocation).IsSupported catalog := ⟨entry, hentry, nofun⟩
  exact applyAll_induction (fun _ _ _ _ supported => supported.becomes) atStart

/-- However an invocation is made and edited, with edits accepted or refused, the catalog supports
it: the order of its occurrences can be found, and running it fails only by one of its actions. A
refused edit leaves it as it was. -/
theorem runnable_applyAll (made : start.IsMade catalog) (edits : List Edit) :
    let invocation := start.applyAll catalog edits
    (∃ entry, catalog.entry invocation.name = .ok entry ∧
      ∀ occurrence ∈ invocation.occurrences, entry.hasOption occurrence.option = true) ∧
    (∃ occurrences, invocation.ordered catalog = .ok occurrences ∧
      occurrences.Perm invocation.occurrences) ∧
    (∀ quotes world cause after,
      invocation.execute catalog quotes world = (.error cause, after) →
      ∃ occurrence ∈ invocation.occurrences, ∃ reason,
        cause = .action invocation.name occurrence.option reason) ∧
    ∀ edit cause, (invocation.apply catalog edit).1 = .error cause →
      (invocation.apply catalog edit).2 = invocation := by
  intro invocation
  have supported : invocation.IsSupported catalog := made.isSupported_applyAll edits
  refine ⟨supported, ?_, fun _ _ _ _ => exists_action_of_error supported, ?_⟩
  · rcases ordered_cases catalog invocation with
      ⟨_, occurrences, -, hordered, perm, -⟩ | ⟨_, -, unsupported⟩
    · exact ⟨occurrences, hordered, perm⟩
    · exact absurd supported unsupported
  · intro edit cause refused
    rcases turnsOut catalog invocation edit with ⟨_, hresult⟩ | ⟨_, hresult, -⟩
    · rw [hresult]
    · rw [hresult] at refused
      cases refused

/-- An invocation that is renamed once none of its options is missing any more: the first attempt to
attach an option and the first to rename are refused. Of two occurrences of one option the later one
is renamed at the end. -/
theorem runnable_applyAll_renamed :
    let catalog := ({} : Catalog Unit).applyAll
      [.registerGroup "list" ["all", "long"] Action.idle, .register "list" none Action.idle,
        .register "show" (some "all") Action.idle, .register "show" none Action.idle]
    let edits : List Edit :=
      [.attach (some "size") [], .rename "show", .renameOption "long" (some " "), .rename "show",
        .attach (some "all") ["x"], .renameAt 2 none]
    ∃ start : Invocation, start.IsMade catalog ∧ start.name = "list" ∧
      (start.applyAll catalog edits).name = "show" ∧
      (start.applyAll catalog edits).occurrences.map Occurrence.option =
        ["all", "_DEFAULT_", "_DEFAULT_"] ∧
      ∃ occurrences, (start.applyAll catalog edits).ordered catalog = .ok occurrences ∧
        occurrences.Perm (start.applyAll catalog edits).occurrences := by
  intro catalog edits
  let selections : List Selection := [⟨"all", []⟩, ⟨"long", ["y"]⟩]
  have hmade : ofSelections catalog "list" selections = .ok
      { name := "list", occurrences := [⟨"all", [], 1⟩, ⟨"long", ["y"], 2⟩],
        counts := ⟨[(0, 2)]⟩ } := by rfl
  exact ⟨_, .selected hmade, rfl, by decide +kernel, by decide +kernel,
    (runnable_applyAll (.selected hmade) edits).2.1⟩

end Invocation

end CommandEngine
