import CommandEngine.Proofs.Catalog.Naming
/-!
# What a change does to the command it names

A change of the catalog names one command. It leaves the entries of all others alone
(`Catalog.entry_apply_of_ne`), and what it makes of the entry of that command is listed once, with a
case for each way to change an entry (`Entry.Becomes`). Whatever is said of entries over runs of
changes follows from this list.

A command that is new starts from its policy. Hence what holds of such an entry and survives every
case of the list holds of all commands of a reachable catalog (`Catalog.Reachable.induction`), and
what holds of one command and survives them holds after every run that does not withdraw the command
(`Catalog.exists_entry_applyAll`).
-/

namespace CommandEngine

variable {ω : Type}

/-- The names under which a change registers options other than the main one. -/
def Catalog.Change.optionNames : Catalog.Change ω → List String
  | .register _ (some name) _ => if Text.isBlankText name then [] else [name]
  | .registerGroup _ names _ => names
  | _ => []

/-- What an entry becomes by a change of its command, given the answer to the change. -/
inductive Entry.Becomes (entry : Entry ω) :
    Catalog.Change ω → Except CatalogError Unit → Entry ω → Prop
  | refused {change : Catalog.Change ω} {cause : CatalogError} :
      Becomes entry change (.error cause) entry
  | setMain {change : Catalog.Change ω} (registers : change.registers = true)
      (noNames : change.optionNames = []) (action : Action ω) :
      Becomes entry change (.ok ()) (entry.setMain action)
  | setAliases {change : Catalog.Change ω} (names : change.optionNames ≠ [])
      (free : change.optionNames.find? entry.reserves = none) (action : Action ω) :
      Becomes entry change (.ok ()) (entry.setAliases change.optionNames action)
  | withdraw {main : String} {options : List String} (names : List String) :
      Becomes entry (.withdraw main options) (.ok ()) (entry.eraseOptions names)
  | switchFreezing {main : String} (sequential : entry.policy.isSequential = true) :
      Becomes entry (.switchFreezing main) (.ok ()) { entry with isFrozen := !entry.isFrozen }
  | putMainLast {main : String} :
      Becomes entry (.putMainLast main) (.ok ()) { entry with mainIsLast := true }
  | continueBelowMain {main : String} :
      Becomes entry (.continueBelowMain main) (.ok ())
        { entry with cursor := mainPriority - 1, lastAssigned := none }

namespace Entry

variable {entry changed : Entry ω} {change : Catalog.Change ω} {answer : Except CatalogError Unit}

theorem Becomes.policy_eq (becomes : entry.Becomes change answer changed) :
    changed.policy = entry.policy := by
  cases becomes with
  | setAliases => exact entry.handOut_keeps.1
  | refused => rfl
  | setMain => rfl
  | withdraw => rfl
  | switchFreezing => rfl
  | putMainLast => rfl
  | continueBelowMain => rfl

/-- Names that were accepted are registered. -/
theorem Becomes.eq_setAliases (becomes : entry.Becomes change (.ok ()) changed)
    (names : change.optionNames ≠ []) :
    change.optionNames.find? entry.reserves = none ∧
      ∃ action, changed = entry.setAliases change.optionNames action := by
  cases becomes with
  | setAliases _ free action => exact ⟨free, action, rfl⟩
  | setMain _ noNames => exact absurd noNames names
  | withdraw => exact absurd rfl names
  | switchFreezing => exact absurd rfl names
  | putMainLast => exact absurd rfl names
  | continueBelowMain => exact absurd rfl names

/-- Only registering names and going on below the main option move the cursor. -/
theorem Becomes.cursor_eq (becomes : entry.Becomes change answer changed)
    (idle : change.optionNames = [] ∨ answer ≠ .ok ())
    (onward : change ≠ .continueBelowMain change.main) : changed.cursor = entry.cursor := by
  cases becomes with
  | setAliases names =>
      rcases idle with noNames | refused
      · exact absurd noNames names
      · exact absurd rfl refused
  | continueBelowMain => exact absurd rfl onward
  | refused => rfl
  | setMain => rfl
  | withdraw => rfl
  | switchFreezing => rfl
  | putMainLast => rfl

end Entry

namespace Catalog

variable {catalog : Catalog ω} {main : String} {entry : Entry ω} {change : Change ω}

/-- How a change of the catalog turns out. -/
inductive TurnsOut (catalog : Catalog ω) : Change ω → Except CatalogError Unit × Catalog ω → Prop
  | refused {change : Change ω} {cause : CatalogError} :
      TurnsOut catalog change (.error cause, catalog)
  | defined {main : String} {policy : Policy} (unknown : catalog.contains main = false) :
      TurnsOut catalog (.define main policy) (.ok (), catalog.put main (.ofPolicy main policy))
  | withdrawn {main : String} :
      TurnsOut catalog (.withdrawCommand main) (.ok (), ⟨catalog.entries.erase main⟩)
  | /-- The entry of a command changes; a registration brings it into being first. -/
    changed {change : Change ω} {answer : Except CatalogError Unit} {changed : Entry ω}
      (becomes : (catalog.entryOrNew change.main).Becomes change answer changed) :
      TurnsOut catalog change (answer, catalog.put change.main changed)

theorem entryOrNew_of_entry (hentry : catalog.entry main = .ok entry) :
    catalog.entryOrNew main = entry := by
  rw [entryOrNew, entry_eq_ok_iff.1 hentry]

private theorem contains_of_entry (hentry : catalog.entry main = .ok entry) :
    catalog.contains main = true := by
  rw [contains, Table.contains, entry_eq_ok_iff.1 hentry]
  rfl

theorem entry_of_contains (known : catalog.contains main = true) :
    ∃ entry, catalog.entry main = .ok entry := by
  rw [contains, Table.contains, Option.isSome_iff_exists] at known
  obtain ⟨entry, hentry⟩ := known
  exact ⟨entry, entry_eq_ok_iff.2 hentry⟩

/-- Putting an entry in place changes what is found for its command and for no other. -/
theorem entry_put (catalog : Catalog ω) (main other : String) (entry : Entry ω) :
    (catalog.put main entry).entry other =
      if main = other then .ok entry else catalog.entry other := by
  rw [Catalog.entry, get?_put]
  by_cases same : main = other
  · rw [if_pos same, if_pos same]
  · rw [if_neg same, if_neg same, Catalog.entry]

private theorem turnsOut_registerNames {names : List String} (hnames : change.optionNames = names)
    (some : names ≠ []) (action : Action ω) :
    catalog.TurnsOut change (catalog.registerNames change.main names action) := by
  subst hnames
  unfold registerNames
  dsimp only
  split
  case h_1 => exact .changed .refused
  case h_2 free => exact .changed (.setAliases some free action)

/-- An update turns out as what it makes of the entry. -/
theorem turnsOut_update {α : Type} (edit : Entry ω → Except CatalogError α × Entry ω)
    (edits : ∀ entry : Entry ω,
      entry.Becomes change ((edit entry).1.map fun _ => ()) (edit entry).2) :
    catalog.TurnsOut change
      ((catalog.update change.main edit).1.map fun _ => (),
        (catalog.update change.main edit).2) := by
  rw [update]
  split
  case h_1 => exact .refused
  case h_2 entry hentry => exact .changed (entryOrNew_of_entry hentry ▸ edits entry)

private theorem map_unit {α : Type} (result : Except CatalogError Unit × α) :
    (result.1.map fun _ => (), result.2) = result := by
  obtain ⟨answer, after⟩ := result
  cases answer <;> rfl

/-- Every change turns out in one of these ways. -/
theorem turnsOut (catalog : Catalog ω) (change : Change ω) :
    catalog.TurnsOut change (catalog.apply change) := by
  cases change with
  | define main policy =>
      by_cases known : catalog.contains main = true
      · rw [apply, define, if_pos known]
        exact .refused
      · rw [apply, define, if_neg known]
        exact .defined (Bool.eq_false_iff.2 known)
  | register main option action =>
      cases option with
      | none => exact .changed (.setMain rfl rfl action)
      | some name =>
          have hnames : (Change.register main (some name) action).optionNames =
            if Text.isBlankText name then [] else [name] := rfl
          by_cases blank : Text.isBlankText name = true
          · rw [apply, register, if_pos blank]
            rw [if_pos blank] at hnames
            exact .changed (.setMain rfl hnames action)
          · rw [apply, register, if_neg blank]
            rw [if_neg blank] at hnames
            exact turnsOut_registerNames hnames (List.cons_ne_nil _ _) action
  | registerGroup main names action =>
      by_cases empty : names = []
      · subst empty
        exact .changed (.setMain rfl rfl action)
      · have hnames : (Change.registerGroup main names action).optionNames = names := rfl
        rw [apply, registerGroup, if_neg (by simpa using empty)]
        exact turnsOut_registerNames hnames empty action
  | withdraw main options =>
      rw [apply, ← map_unit (catalog.withdraw main options)]
      refine turnsOut_update (fun entry => entry.withdraw options) fun entry => ?_
      rcases entry.withdraw_cases options with ⟨cause, hresult⟩ | ⟨names, hresult⟩
      · rw [hresult]
        exact .refused
      · rw [hresult]
        exact .withdraw names
  | withdrawCommand main =>
      by_cases known : catalog.contains main = true
      · rw [apply, withdrawCommand, if_pos known]
        exact .withdrawn
      · rw [apply, withdrawCommand, if_neg known]
        exact .refused
  | switchFreezing main =>
      refine turnsOut_update (fun entry => entry.switchFreezing main) fun entry => ?_
      rcases entry.switchFreezing_cases main with hresult | ⟨sequential, hresult⟩
      · rw [hresult]
        exact .refused
      · rw [hresult]
        exact .switchFreezing sequential
  | putMainLast main =>
      rw [apply, ← map_unit (catalog.putMainLast main)]
      exact turnsOut_update _ fun _ => .putMainLast
  | continueBelowMain main =>
      rw [apply, ← map_unit (catalog.continueBelowMain main)]
      exact turnsOut_update _ fun _ => .continueBelowMain

theorem apply_switchFreezing (hentry : catalog.entry main = .ok entry)
    (sequential : entry.policy.isSequential = true) :
    catalog.apply (.switchFreezing main) =
      (.ok (), catalog.put main { entry with isFrozen := !entry.isFrozen }) := by
  simp [apply, switchFreezing, update, hentry, Entry.switchFreezing, sequential, Except.map]

theorem apply_putMainLast (hentry : catalog.entry main = .ok entry) :
    catalog.apply (.putMainLast main) =
      (.ok (), catalog.put main { entry with mainIsLast := true }) := by
  simp [apply, putMainLast, update, hentry, Entry.putMainLast]

theorem apply_continueBelowMain (hentry : catalog.entry main = .ok entry) :
    catalog.apply (.continueBelowMain main) =
      (.ok (), catalog.put main
        { entry with cursor := mainPriority - 1, lastAssigned := none }) := by
  simp [apply, continueBelowMain, update, hentry, Entry.continueBelowMain]

/-- A change leaves the entries of all commands that it does not name. -/
theorem entry_apply_of_ne (other : change.main ≠ main) :
    (catalog.apply change).2.entry main = catalog.entry main := by
  have outcome := catalog.turnsOut change
  generalize catalog.apply change = result at outcome
  cases outcome with
  | refused => rfl
  | defined => exact (entry_put ..).trans (if_neg other)
  | @withdrawn gone =>
      have apart : gone ≠ main := other
      rw [Catalog.entry, Catalog.entry, Table.get?_erase, if_neg apart]
  | changed => exact (entry_put ..).trans (if_neg other)

/-- A command that is not withdrawn stays, and a change makes of its entry what such changes make of
it. -/
theorem exists_becomes (hentry : catalog.entry change.main = .ok entry)
    (stays : change ≠ .withdrawCommand change.main) :
    ∃ changed, (catalog.apply change).2.entry change.main = .ok changed ∧
      entry.Becomes change (catalog.apply change).1 changed := by
  have outcome := catalog.turnsOut change
  generalize catalog.apply change = result at outcome
  cases outcome with
  | refused => exact ⟨entry, hentry, .refused⟩
  | @defined main policy unknown =>
      have known : catalog.contains main = true := contains_of_entry hentry
      rw [unknown] at known
      cases known
  | withdrawn => exact absurd rfl stays
  | @changed _ _ after becomes =>
      rw [entryOrNew_of_entry hentry] at becomes
      exact ⟨after, (entry_put ..).trans (if_pos rfl), becomes⟩

/-- What holds of a new command and is kept by every change of it holds of all commands of a
reachable catalog. -/
theorem Reachable.induction {P : Entry ω → Prop} (new : ∀ main policy, P (.ofPolicy main policy))
    (step : ∀ entry change answer changed, P entry →
      entry.Becomes change answer changed → P changed)
    (reached : catalog.Reachable) : ∀ main entry, catalog.entry main = .ok entry → P entry := by
  have start : ∀ main entry, ({} : Catalog ω).entry main = .ok entry → P entry :=
    fun _ _ found => nomatch found
  have keeps {catalog : Catalog ω} (change : Change ω)
      (held : ∀ main entry, catalog.entry main = .ok entry → P entry) :
      ∀ main entry, (catalog.apply change).2.entry main = .ok entry → P entry := by
    intro main entry hentry
    by_cases same : change.main = main
    case neg => exact held main entry ((entry_apply_of_ne same).symm.trans hentry)
    case pos =>
      subst same
      have before : P (catalog.entryOrNew change.main) := by
        unfold entryOrNew
        split
        case h_1 known hknown => exact held _ known (entry_eq_ok_iff.2 hknown)
        case h_2 => exact new change.main {}
      have outcome := catalog.turnsOut change
      generalize catalog.apply change = result at outcome hentry
      cases outcome with
      | refused => exact held _ entry hentry
      | @defined main policy =>
          cases ((entry_put ..).trans (if_pos rfl)).symm.trans hentry
          exact new main policy
      | withdrawn =>
          rw [entry_eq_ok_iff, Table.get?_erase] at hentry
          cases (if_pos rfl).symm.trans hentry
      | changed becomes =>
          cases ((entry_put ..).trans (if_pos rfl)).symm.trans hentry
          exact step _ _ _ _ before becomes
  induction reached with
  | empty => exact start
  | initial => exact keeps (.register idleCommand none Action.idle) start
  | apply _ change held => exact keeps change held

end Catalog

theorem Entry.HasVisibleNames.becomes {entry changed : Entry ω} {change : Catalog.Change ω}
    {answer : Except CatalogError Unit} (visible : entry.HasVisibleNames)
    (becomes : entry.Becomes change answer changed) : changed.HasVisibleNames := by
  cases becomes with
  | setMain _ _ action => exact visible.setMain action
  | setAliases _ free action => exact visible.setAliases free action
  | withdraw names => exact visible.eraseOptions names
  | refused => exact visible
  | switchFreezing => exact visible
  | putMainLast => exact visible
  | continueBelowMain => exact visible

theorem Catalog.Reachable.hasVisibleNames {catalog : Catalog ω} (reached : catalog.Reachable) :
    catalog.HasVisibleNames :=
  reached.induction Entry.hasVisibleNames_ofPolicy fun _ _ _ _ visible => visible.becomes

/-! ## Priorities and the policy -/

namespace Entry

variable {entry changed : Entry ω} {change : Catalog.Change ω} {answer : Except CatalogError Unit}
  {option : String} {definition : Definition ω}

theorem definition_eq_ok_iff :
    entry.definition option = .ok definition ↔ entry.options.get? option = some definition := by
  rw [Entry.definition]
  cases entry.options.get? option <;> simp

theorem get?_setMain (entry : Entry ω) (action : Action ω) (option : String) :
    (entry.setMain action).options.get? option =
      if entry.mainOption = option then some ⟨mainPriority, action⟩
      else entry.options.get? option :=
  Table.get?_insert ..

theorem get?_setAliases (entry : Entry ω) (names : List String) (action : Action ω)
    (option : String) :
    (entry.setAliases names action).options.get? option =
      if option ∈ names then some ⟨entry.handOut.1, action⟩ else entry.options.get? option := by
  rw [← entry.handOut_keeps.2]
  exact Table.get?_insertAll ..

theorem get?_eraseOptions (entry : Entry ω) (names : List String) (option : String) :
    (entry.eraseOptions names).options.get? option =
      if option ∈ names then none else entry.options.get? option :=
  Table.get?_eraseAll ..

/-- Registering names refuses the name of the main option. -/
theorem ne_mainOption_of_free {names : List String} (free : names.find? entry.reserves = none)
    (here : option ∈ names) : option ≠ entry.mainOption := by
  have unreserved := List.find?_eq_none.1 free option here
  rw [reserves, Bool.not_eq_true, Bool.or_eq_false_iff, beq_eq_false_iff_ne] at unreserved
  exact unreserved.2

/-- Without a sequence every priority that is handed out is the base. -/
theorem handOut_of_fixed (unordered : entry.policy.isSequential = false) :
    entry.handOut = (entry.policy.base, entry) := by
  rw [handOut, unordered]
  rfl

/-- Options have the priorities that the policy of the command gives them. -/
structure ObeysPolicy (entry : Entry ω) : Prop where
  main : ∀ definition, entry.definition entry.mainOption = .ok definition →
    definition.priority = mainPriority
  fixed : entry.policy.isSequential = false → ∀ option definition, option ≠ entry.mainOption →
    entry.definition option = .ok definition → definition.priority = entry.policy.base

namespace ObeysPolicy

theorem ofPolicy (name : String) (policy : Policy) :
    (Entry.ofPolicy name policy : Entry ω).ObeysPolicy where
  main _ found := nomatch found
  fixed _ _ _ _ found := nomatch found

/-- Under the same policy, only what is newly registered has to be looked at. -/
theorem of_definition (obeys : entry.ObeysPolicy) (hpolicy : changed.policy = entry.policy)
    (known : ∀ option definition, changed.definition option = .ok definition →
      entry.definition option = .ok definition ∨
      (option = entry.mainOption ∧ definition.priority = mainPriority) ∨
      option ≠ entry.mainOption ∧
        (entry.policy.isSequential = false → definition.priority = entry.policy.base)) :
    changed.ObeysPolicy := by
  have hmain : changed.mainOption = entry.mainOption := congrArg Policy.mainOption hpolicy
  constructor
  · intro definition found
    rcases known _ _ found with old | ⟨-, hpriority⟩ | ⟨other, -⟩
    · exact obeys.main definition (hmain ▸ old)
    · exact hpriority
    · exact absurd hmain other
  · intro unordered option definition other found
    rw [hpolicy] at unordered ⊢
    rw [hmain] at other
    rcases known _ _ found with old | ⟨same, -⟩ | ⟨-, hpriority⟩
    · exact obeys.fixed unordered option definition other old
    · exact absurd same other
    · exact hpriority unordered

theorem becomes (obeys : entry.ObeysPolicy) (becomes : entry.Becomes change answer changed) :
    changed.ObeysPolicy := by
  cases becomes with
  | refused => exact obeys
  | setMain registers noNames action =>
      refine obeys.of_definition rfl fun option definition found => ?_
      rw [definition_eq_ok_iff, get?_setMain] at found
      split at found
      case isTrue same =>
        cases found
        exact .inr (.inl ⟨same.symm, rfl⟩)
      case isFalse => exact .inl (definition_eq_ok_iff.2 found)
  | setAliases names free action =>
      refine obeys.of_definition entry.handOut_keeps.1 fun option definition found => ?_
      rw [definition_eq_ok_iff, get?_setAliases] at found
      split at found
      case isTrue here =>
        cases found
        exact .inr (.inr ⟨ne_mainOption_of_free free here,
          fun unordered => by rw [handOut_of_fixed unordered]⟩)
      case isFalse => exact .inl (definition_eq_ok_iff.2 found)
  | withdraw names =>
      refine obeys.of_definition rfl fun option definition found => ?_
      rw [definition_eq_ok_iff, get?_eraseOptions] at found
      split at found
      · cases found
      · exact .inl (definition_eq_ok_iff.2 found)
  | switchFreezing => exact obeys.of_definition rfl fun _ _ found => .inl found
  | putMainLast => exact obeys.of_definition rfl fun _ _ found => .inl found
  | continueBelowMain => exact obeys.of_definition rfl fun _ _ found => .inl found

end ObeysPolicy

end Entry

theorem Catalog.Reachable.obeysPolicy {catalog : Catalog ω} (reached : catalog.Reachable) :
    ∀ main entry, catalog.entry main = .ok entry → entry.ObeysPolicy :=
  reached.induction Entry.ObeysPolicy.ofPolicy fun _ _ _ _ obeys => obeys.becomes

end CommandEngine
