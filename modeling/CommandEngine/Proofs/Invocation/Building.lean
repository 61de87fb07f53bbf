import CommandEngine.Batch.Staging
import CommandEngine.Proofs.Catalog.Changing
import CommandEngine.Proofs.Session.Running
/-!
# What is selected can be built

Words are first resolved into selections and then built into an invocation. Both steps look options
up by name, the first by `Entry.hasOption` and the second by `Entry.resolve`, and these differ on
blank names. In a catalog that was reached by changes they agree on what is registered, so the
second step never refuses what the first let pass, and the invocation has an occurrence for each
selection, in the same order (`Invocation.exists_ofSelections`).

The catalog supports an invocation that was built this way. Hence running it fails only by one of
its actions, as long as the catalog stays as it is.
-/

namespace CommandEngine

variable {ω : Type} {catalog : Catalog ω} {entry : Entry ω}

namespace Entry

variable {opened after : List Selection}

/-- All selected options are registered. -/
def Knows (entry : Entry ω) (selections : List Selection) : Prop :=
  ∀ selection ∈ selections, entry.hasOption selection.option = true

namespace Knows

theorem nil (entry : Entry ω) : entry.Knows [] := nofun

/-- An argument changes no name. -/
theorem addArgument (known : entry.Knows opened) (word : String) :
    entry.Knows (Selection.addArgument word opened) := by
  cases opened with
  | nil => exact known
  | cons newest older =>
      obtain ⟨hnewest, holder⟩ := List.forall_mem_cons.1 known
      exact List.forall_mem_cons.2 ⟨hnewest, holder⟩

theorem openOption (known : entry.Knows opened) {name : String}
    (hopen : entry.openOption opened name = .ok after) : entry.Knows after := by
  unfold Entry.openOption at hopen
  split at hopen
  case isTrue registered =>
    cases hopen
    exact List.forall_mem_cons.2 ⟨registered, known⟩
  case isFalse => cases hopen

theorem openOptions (known : entry.Knows opened) {names : List String}
    (hopen : entry.openOptions opened names = .ok after) : entry.Knows after := by
  induction names generalizing opened with
  | nil =>
      cases hopen
      exact known
  | cons name rest ih =>
      rw [Entry.openOptions] at hopen
      cases hfirst : entry.openOption opened name with
      | error unknown =>
          rw [hfirst] at hopen
          cases hopen
      | ok between =>
          rw [hfirst] at hopen
          exact ih (known.openOption hfirst) hopen

theorem selectWord (known : entry.Knows opened) {word : String}
    (hselect : entry.selectWord opened word = .ok after) : entry.Knows after := by
  unfold Entry.selectWord at hselect
  split at hselect
  · exact known.openOptions hselect
  · split at hselect
    · cases hmain : entry.openOption opened entry.mainOption with
      | error unknown =>
          rw [hmain] at hselect
          cases hselect
      | ok between =>
          rw [hmain] at hselect
          cases hselect
          exact (known.openOption hmain).addArgument word
    · cases hselect
      exact known.addArgument word

theorem selectWords (known : entry.Knows opened) {words : List String}
    (hselect : entry.selectWords opened words = .ok after) : entry.Knows after := by
  induction words generalizing opened with
  | nil =>
      cases hselect
      exact known
  | cons word rest ih =>
      rw [Entry.selectWords] at hselect
      cases hfirst : entry.selectWord opened word with
      | error unknown =>
          rw [hfirst] at hselect
          cases hselect
      | ok between =>
          rw [hfirst] at hselect
          exact ih (known.selectWord hfirst) hselect

end Knows

/-- Whatever the words select is registered. -/
theorem knows_of_select {words : List String} {selections : List Selection}
    (hselect : entry.select words = .ok selections) : entry.Knows selections := by
  have start : ∀ opened, (if beginsWithOption words then .ok []
      else entry.openOption [] entry.mainOption) = .ok opened → entry.Knows opened := by
    intro opened hstart
    split at hstart
    · cases hstart
      exact .nil entry
    · exact Knows.openOption (.nil entry) hstart
  unfold select at hselect
  dsimp only at hselect
  split at hselect
  case h_1 => cases hselect
  case h_2 opened hopened =>
    cases hwords : entry.selectWords opened words with
    | error unknown =>
        rw [hwords] at hselect
        cases hselect
    | ok newestFirst =>
        rw [hwords] at hselect
        cases hselect
        have known := (start opened hopened).selectWords hwords
        exact fun selection here => known selection (List.mem_reverse.1 here)

end Entry

/-- What has to be selected for an occurrence. -/
def Occurrence.selection (occurrence : Occurrence) : Selection :=
  ⟨occurrence.option, occurrence.arguments⟩

namespace Invocation

variable {invocation built : Invocation} {name : String} {selections : List Selection}

/-- A registered option can be attached under its own name. -/
theorem attach_of_hasOption (hentry : catalog.entry invocation.name = .ok entry)
    (visible : entry.HasVisibleNames) {option : String} (registered : entry.hasOption option = true)
    (arguments : List String) :
    ∃ priority, invocation.attach catalog (some option) arguments =
      (.ok (), invocation.push priority option arguments) := by
  obtain ⟨definition, hdefinition⟩ := exists_definition_iff.2 registered
  refine ⟨definition.priority, ?_⟩
  rw [attach, hentry]
  dsimp only
  rw [Entry.resolve_of_hasOption visible registered, hdefinition]

/-- Selections of registered options can be attached one after another. -/
theorem exists_attachAll (hentry : catalog.entry invocation.name = .ok entry)
    (visible : entry.HasVisibleNames) (known : entry.Knows selections) :
    ∃ built, invocation.attachAll catalog selections = (.ok (), built) ∧
      built.name = invocation.name ∧ built.occurrences.map Occurrence.selection =
        invocation.occurrences.map Occurrence.selection ++ selections := by
  induction selections generalizing invocation with
  | nil => exact ⟨invocation, rfl, rfl, (List.append_nil _).symm⟩
  | cons selection rest ih =>
      obtain ⟨registered, hrest⟩ := List.forall_mem_cons.1 known
      obtain ⟨priority, hattach⟩ :=
        attach_of_hasOption hentry visible registered selection.arguments
      let first := invocation.push priority selection.option selection.arguments
      have hfirst : catalog.entry first.name = .ok entry := hentry
      obtain ⟨built, hbuilt, hname, hsame⟩ := ih hfirst hrest
      refine ⟨built, ?_, hname, ?_⟩
      · rw [attachAll, hattach]
        exact hbuilt
      · rw [hsame]
        show (invocation.occurrences ++ [_]).map Occurrence.selection ++ rest = _
        rw [List.map_append, List.append_assoc]
        rfl

/-- Selections of registered options make an invocation that has an occurrence for each. -/
theorem exists_ofSelections (hentry : catalog.entry name = .ok entry)
    (visible : entry.HasVisibleNames) (known : entry.Knows selections) :
    ∃ invocation, ofSelections catalog name selections = .ok invocation ∧
      invocation.name = name ∧ invocation.occurrences.map Occurrence.selection = selections := by
  have empty : ofName catalog name = .ok { name } := by
    rw [ofName, hentry]
    rfl
  let bare : Invocation := { name }
  have hbare : catalog.entry bare.name = .ok entry := hentry
  obtain ⟨built, hbuilt, hname, hsame⟩ := exists_attachAll hbare visible known
  rw [ofSelections, empty]
  dsimp only
  rw [hbuilt]
  exact ⟨built, rfl, hname, hsame⟩

/-- A supported invocation fails only by an action of one of its occurrences. -/
theorem exists_action_of_error {quotes : List Char} {world after : ω} {cause : ExecutionError}
    (supported : invocation.IsSupported catalog)
    (failed : invocation.execute catalog quotes world = (.error cause, after)) :
    ∃ occurrence ∈ invocation.occurrences, ∃ reason,
      cause = .action invocation.name occurrence.option reason := by
  -- The node only labels the tasks, so any will do.
  let node : Handle := ⟨0, 0⟩
  rcases invocation.execute_cases catalog quotes node world with
    ⟨tasks, htasks, runs⟩ | ⟨_, _, unsupported, _⟩
  · rw [failed] at runs
    cases runs with
    | @failed _ _ task _ _ reason hsplit _ _ =>
        have here : task ∈ tasks := hsplit ▸ List.mem_append_right _ List.mem_cons_self
        obtain ⟨occurrence, hoccurrence, htask⟩ :=
          List.mem_map.1 ((perm_of_tasks htasks).mem_iff.1 here)
        subst htask
        exact ⟨occurrence, hoccurrence, reason, rfl⟩
  · exact absurd supported unsupported

/-- Registered selections make an invocation that the catalog supports. -/
theorem isSupported_of_knows (hentry : catalog.entry invocation.name = .ok entry)
    (known : entry.Knows (invocation.occurrences.map Occurrence.selection)) :
    invocation.IsSupported catalog :=
  ⟨entry, hentry, fun _ here => known _ (List.mem_map_of_mem here)⟩

end Invocation

namespace Batch

/-- The standard builder refuses nothing that the words of a command select. -/
theorem build_standard_ne_refused (visible : catalog.HasVisibleNames) (name : String)
    (words : List String) (cause : CatalogError) :
    build catalog Builder.standard name words ≠ .error (.refused cause) := by
  intro hbuild
  unfold build at hbuild
  split at hbuild
  case h_1 => cases hbuild
  case h_2 entry hentry =>
    split at hbuild
    case h_1 => cases hbuild
    case h_2 selections hselect =>
      obtain ⟨invocation, hbuilt, -⟩ := Invocation.exists_ofSelections hentry
        (visible name entry hentry) (Entry.knows_of_select hselect)
      rw [Builder.standard, hbuilt] at hbuild
      cases hbuild

private theorem stageFrom_standard_ne_refused (visible : catalog.HasVisibleNames)
    (statements : List Statement) (nesting : Nesting) (staged : List Staged)
    (cause : CatalogError) :
    (stageFrom catalog Builder.standard statements nesting staged).1 ≠ .error (.refused cause) := by
  induction statements, nesting, staged using stageFrom.induct catalog Builder.standard with
  | case1 nesting staged => exact nofun
  | case2 nesting staged rest ih => exact ih
  | case3 nesting staged rest ih => exact ih
  | case4 nesting staged rest ih => exact ih
  | case5 name words rest nesting staged fault hbuild =>
      rw [stageFrom, hbuild]
      intro hrefused
      rw [Except.error.injEq] at hrefused
      exact build_standard_ne_refused visible name words cause (hrefused ▸ hbuild)
  | case6 name words rest nesting staged invocation hbuild ih =>
      rw [stageFrom, hbuild]
      exact ih

theorem stage_standard_ne_refused (visible : catalog.HasVisibleNames)
    (statements : List Statement) (nesting : Nesting) (cause : CatalogError) :
    (stage catalog Builder.standard statements nesting).1 ≠ .error (.refused cause) := by
  unfold stage
  split
  · exact nofun
  · exact stageFrom_standard_ne_refused visible statements nesting [] cause

end Batch

namespace Catalog

/-- Under a catalog that was reached by changes, what the words of a command select can be built.
The invocation has the selections as its occurrences, and running it fails only by an action of a
selected option. Hence no batch is refused by the standard builder. -/
theorem Reachable.builds_selected (reached : catalog.Reachable) :
    (∀ main entry words selections, catalog.entry main = .ok entry →
      entry.select words = .ok selections →
      ∃ invocation, Invocation.ofSelections catalog main selections = .ok invocation ∧
        invocation.name = main ∧
        invocation.occurrences.map Occurrence.selection = selections ∧
        ∀ quotes world cause after,
          invocation.execute catalog quotes world = (.error cause, after) →
          ∃ selection ∈ selections, ∃ reason, cause = .action main selection.option reason) ∧
    ∀ statements nesting cause,
      (Batch.stage catalog Builder.standard statements nesting).1 ≠ .error (.refused cause) := by
  have visible := reached.hasVisibleNames
  refine ⟨fun main entry words selections hentry hselect => ?_,
    Batch.stage_standard_ne_refused visible⟩
  have known := Entry.knows_of_select hselect
  obtain ⟨invocation, hbuilt, hname, hsame⟩ :=
    Invocation.exists_ofSelections hentry (visible main entry hentry) known
  refine ⟨invocation, hbuilt, hname, hsame, fun quotes world cause after failed => ?_⟩
  have supported : invocation.IsSupported catalog :=
    Invocation.isSupported_of_knows (hname ▸ hentry) (hsame ▸ known)
  obtain ⟨occurrence, here, reason, hcause⟩ := Invocation.exists_action_of_error supported failed
  refine ⟨occurrence.selection, hsame ▸ List.mem_map_of_mem here, reason, ?_⟩
  rw [hcause, hname]
  rfl

/-- A command whose main option has a blank name: its words are selected, and what they select is
built. -/
theorem builds_blank_main :
    let changes : List (Change Unit) :=
      [.define "say" { mainOption := " " }, .register "say" none Action.idle,
        .register "say" (some "a") Action.idle, .register "say" (some " ") Action.idle]
    let catalog := ({} : Catalog Unit).applyAll changes
    let selections : List Selection := [⟨" ", ["x"]⟩, ⟨"a", ["y"]⟩, ⟨" ", []⟩]
    ∃ invocation, Invocation.ofSelections catalog "say" selections = .ok invocation ∧
      invocation.occurrences.map Occurrence.selection = selections := by
  intro changes catalog selections
  have reached : catalog.Reachable := Reachable.empty.applyAll changes
  have hselect : (catalog.entryOrNew "say").select ["x", "-a", "y", "-- "] = .ok selections := by
    decide +kernel
  obtain ⟨invocation, hbuilt, -, hsame, -⟩ :=
    reached.builds_selected.1 "say" (catalog.entryOrNew "say") _ selections (by rfl) hselect
  exact ⟨invocation, hbuilt, hsame⟩

end Catalog

end CommandEngine
