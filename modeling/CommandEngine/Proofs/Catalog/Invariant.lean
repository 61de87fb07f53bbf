import CommandEngine.Proofs.Catalog.Sequence
/-!
# What holds of every catalog

Whatever changes a host makes, accepted or refused, the commands of its catalog stay in order
(`Entry.IsRegular`): the names and priorities of options are as the policy of the command has them,
and no command is frozen whose priorities do not descend. The policy itself is settled when the
command comes into being, and only withdrawing the command ends it.

All of this is read off the one list of what a change makes of an entry (`Entry.Becomes`), and what
a change leaves alone is everything under another name (`Catalog.entry_apply_of_ne`).
-/

namespace CommandEngine

variable {ω : Type}

namespace Entry

variable {entry changed : Entry ω} {change : Catalog.Change ω} {answer : Except CatalogError Unit}

/-- The options of the command have the names and priorities that its policy allows, and it is only
frozen if its priorities descend. -/
structure IsRegular (entry : Entry ω) : Prop extends ObeysPolicy entry where
  visible : entry.HasVisibleNames
  running : entry.policy.isSequential = false → entry.isFrozen = false

/-- Without a sequence, freezing is refused and nothing else touches it. -/
theorem Becomes.running (becomes : entry.Becomes change answer changed)
    (running : entry.policy.isSequential = false → entry.isFrozen = false) :
    changed.policy.isSequential = false → changed.isFrozen = false := by
  intro unordered
  rw [becomes.policy_eq] at unordered
  cases becomes with
  | setAliases =>
      rw [Entry.setAliases, handOut_of_fixed unordered]
      exact running unordered
  | switchFreezing sequential =>
      rw [unordered] at sequential
      cases sequential
  | refused => exact running unordered
  | setMain => exact running unordered
  | withdraw => exact running unordered
  | putMainLast => exact running unordered
  | continueBelowMain => exact running unordered

end Entry

namespace Catalog

variable {catalog : Catalog ω} {main : String} {entry : Entry ω} {changes : List (Change ω)}

theorem Reachable.isRegular (reached : catalog.Reachable)
    (hentry : catalog.entry main = .ok entry) : entry.IsRegular where
  toObeysPolicy := reached.obeysPolicy main entry hentry
  visible := reached.hasVisibleNames main entry hentry
  running := reached.induction (P := fun entry =>
      entry.policy.isSequential = false → entry.isFrozen = false)
    (fun _ _ _ => rfl) (fun _ _ _ _ running becomes => becomes.running running) main entry hentry

/-- A command keeps its policy until it is withdrawn. -/
theorem exists_policy_applyAll (hentry : catalog.entry main = .ok entry)
    (stays : ∀ change ∈ changes, change ≠ .withdrawCommand main) :
    ∃ later, (catalog.applyAll changes).entry main = .ok later ∧ later.policy = entry.policy :=
  exists_entry_applyAll (P := fun later => later.policy = entry.policy)
    (fun _ _ _ _ same becomes => becomes.policy_eq.trans same) hentry stays rfl

/-- The commands of every catalog that a host can bring about are regular, and keep their policy
until they are withdrawn. A change leaves every command alone that it does not name. -/
theorem Reachable.stays_regular (reached : catalog.Reachable) :
    (∀ main entry, catalog.entry main = .ok entry → entry.IsRegular ∧
      ∀ changes, (∀ change ∈ changes, change ≠ .withdrawCommand main) →
        ∃ later, (catalog.applyAll changes).entry main = .ok later ∧
          later.policy = entry.policy) ∧
    ∀ change main, change.main ≠ main →
      (catalog.apply change).2.entry main = catalog.entry main :=
  ⟨fun _ _ hentry => ⟨reached.isRegular hentry, fun _ => exists_policy_applyAll hentry⟩,
    fun _ _ => entry_apply_of_ne⟩

/-- A main option with a blank name, next to options that were registered, refused and withdrawn. -/
theorem Reachable.stays_regular_blank_main :
    let catalog := ({} : Catalog Unit).applyAll
      [.define "deploy" { mainOption := " ", base := 3 }, .register "deploy" none Action.idle,
        .registerGroup "deploy" ["fast", ""] Action.idle, .switchFreezing "deploy",
        .register "deploy" (some "fast") Action.idle]
    let changes : List (Change Unit) :=
      [.define "deploy" {}, .withdraw "deploy" [], .withdrawCommand "list"]
    catalog.Reachable ∧ ∃ entry, catalog.entry "deploy" = .ok entry ∧ entry.IsRegular ∧
      entry.hasOption " " = true ∧ entry.hasOption "fast" = true ∧
      (∃ later, (catalog.applyAll changes).entry "deploy" = .ok later ∧
        later.policy = { mainOption := " ", base := 3 }) ∧
      (catalog.apply (.register "list" none Action.idle)).2.entry "deploy" = .ok entry := by
  intro catalog changes
  have reached : catalog.Reachable := Reachable.empty.applyAll _
  obtain ⟨entry, hentry, hpolicy, blank, fast⟩ : ∃ entry, catalog.entry "deploy" = .ok entry ∧
      entry.policy = { mainOption := " ", base := 3 } ∧
      entry.hasOption " " = true ∧ entry.hasOption "fast" = true := ⟨_, rfl, rfl, rfl, rfl⟩
  obtain ⟨regular, settled⟩ := reached.stays_regular.1 "deploy" entry hentry
  obtain ⟨later, hlater, same⟩ := settled changes (by simp [changes])
  have apart := reached.stays_regular.2 (.register "list" none Action.idle) "deploy" (by decide)
  exact ⟨reached, entry, hentry, regular, blank, fast, ⟨later, hlater, same.trans hpolicy⟩,
    apart.trans hentry⟩

end Catalog

end CommandEngine
