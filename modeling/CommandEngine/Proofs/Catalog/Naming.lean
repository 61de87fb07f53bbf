import CommandEngine.Proofs.Catalog.Refusals
/-!
# Which names an option can have

A name is looked up by two rules. A lookup by `Entry.hasOption` takes it as it stands, while
`Entry.resolve` takes a blank one to mean the main option. The rules agree on every option that is
registered, because the only blank name under which an option can be stored is that of the main
option, which may be blank (`Entry.HasVisibleNames`, `Entry.resolve_of_hasOption`).

An entry starts without options and keeps this through whatever is done with it: `Entry.setMain`
stores under the name of the main option, other registrations refuse blank names, and nothing else
stores an option at all. The name of the main option is part of the policy, which never changes.
-/

namespace CommandEngine

variable {ω : Type}

namespace Entry

variable {entry changed : Entry ω} {name : String}

/-- No option but the main one has a blank name. -/
def HasVisibleNames (entry : Entry ω) : Prop :=
  ∀ name, entry.hasOption name = true → Text.isBlankText name = true → name = entry.mainOption

/-- The name of a registered option means that option. -/
theorem resolve_of_hasOption (visible : entry.HasVisibleNames)
    (registered : entry.hasOption name = true) : entry.resolve (some name) = name := by
  rw [resolve]
  show (if Text.isBlankText name then entry.mainOption else name) = name
  split
  case isTrue blank => exact (visible name registered blank).symm
  case isFalse => rfl

theorem hasVisibleNames_ofPolicy (name : String) (policy : Policy) :
    (ofPolicy name policy : Entry ω).HasVisibleNames :=
  fun _ registered => nomatch registered

namespace HasVisibleNames

/-- Under the same policy, only the names that are new have to be looked at. -/
theorem of_hasOption (visible : entry.HasVisibleNames) (hpolicy : changed.policy = entry.policy)
    (known : ∀ name, changed.hasOption name = true →
      entry.hasOption name = true ∨ Text.isBlankText name = false ∨ name = entry.mainOption) :
    changed.HasVisibleNames := by
  intro name registered blank
  have hmain : changed.mainOption = entry.mainOption := congrArg Policy.mainOption hpolicy
  rw [hmain]
  rcases known name registered with old | shown | main
  · exact visible name old blank
  · rw [blank] at shown
    cases shown
  · exact main

theorem setMain (visible : entry.HasVisibleNames) (action : Action ω) :
    (entry.setMain action).HasVisibleNames := by
  refine visible.of_hasOption rfl fun name registered => ?_
  rw [hasOption, Table.contains, Entry.setMain, Table.get?_insert] at registered
  split at registered
  case isTrue same => exact .inr (.inr same.symm)
  case isFalse => exact .inl registered

theorem eraseOptions (visible : entry.HasVisibleNames) (names : List String) :
    (entry.eraseOptions names).HasVisibleNames := by
  refine visible.of_hasOption rfl fun name registered => ?_
  rw [hasOption, Table.contains, Entry.eraseOptions, Table.get?_eraseAll] at registered
  split at registered
  · cases registered
  · exact .inl registered

end HasVisibleNames

/-- Handing out a priority touches neither the policy nor the options. -/
theorem handOut_keeps (entry : Entry ω) :
    entry.handOut.2.policy = entry.policy ∧ entry.handOut.2.options = entry.options := by
  unfold handOut
  split
  · exact ⟨rfl, rfl⟩
  · split <;> exact ⟨rfl, rfl⟩

theorem HasVisibleNames.setAliases (visible : entry.HasVisibleNames) {names : List String}
    (free : names.find? entry.reserves = none) (action : Action ω) :
    (entry.setAliases names action).HasVisibleNames := by
  obtain ⟨hpolicy, hoptions⟩ := entry.handOut_keeps
  refine visible.of_hasOption hpolicy fun name registered => ?_
  simp only [hasOption, Table.contains, Entry.setAliases, Table.get?_insertAll, hoptions]
    at registered
  split at registered
  case isTrue here =>
    have unreserved := List.find?_eq_none.1 free name here
    rw [reserves, Bool.not_eq_true, Bool.or_eq_false_iff] at unreserved
    exact .inr (.inl unreserved.1)
  case isFalse => exact .inl registered

end Entry

namespace Catalog

variable {catalog : Catalog ω}

/-- A catalog that a host can bring about: by changes, accepted or refused, of an empty catalog or
of the one a session starts with. -/
inductive Reachable : Catalog ω → Prop
  | empty : Reachable {}
  | initial : Reachable initial
  | apply {catalog : Catalog ω} (reached : Reachable catalog) (change : Change ω) :
    Reachable (catalog.apply change).2

theorem Reachable.applyAll (reached : catalog.Reachable) (changes : List (Change ω)) :
    (catalog.applyAll changes).Reachable := by
  induction changes generalizing catalog with
  | nil => exact reached
  | cons change rest ih => exact ih (reached.apply change)

/-- In no command an option but the main one has a blank name. -/
def HasVisibleNames (catalog : Catalog ω) : Prop :=
  ∀ main entry, catalog.entry main = .ok entry → entry.HasVisibleNames

end Catalog

end CommandEngine
