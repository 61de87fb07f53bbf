import CommandEngine.Catalog
/-!
# What a refused change leaves behind

A refused change leaves the catalog as it was, with one exception. Registering looks up the command
before it looks at the names, because the command knows which name is reserved, and looking it up
brings it into being. So a registration that is refused for a reserved name leaves the command
behind if it was not there before: under the default policy and without options, yet settled, so
that it cannot be given another policy any more (`Catalog.apply_of_refused`).

All other changes ask whatever they have to ask before they touch anything. Most of them go through
`Catalog.update`, which writes back the entry whatever the answer is; so this is a matter of each
change (`Catalog.update_cases`), and what is written back after a refusal is what was there.
-/

namespace CommandEngine

namespace Entry

variable {ω : Type}

/-- Options are withdrawn if all of them are there, and else the entry stays as it is. -/
theorem withdraw_cases (entry : Entry ω) (options : List String) :
    (∃ cause, entry.withdraw options = (.error cause, entry)) ∨
    ∃ names, entry.withdraw options = (.ok (), entry.eraseOptions names) := by
  rw [withdraw]
  split
  case h_1 cause _ => exact .inl ⟨cause, rfl⟩
  case h_2 => exact .inr ⟨_, rfl⟩

/-- Freezing is switched if priorities descend, and else the entry stays as it is. -/
theorem switchFreezing_cases (entry : Entry ω) (main : String) :
    entry.switchFreezing main = (.error (.notSequential main), entry) ∨
    entry.policy.isSequential = true ∧ entry.switchFreezing main =
      (.ok !entry.isFrozen, { entry with isFrozen := !entry.isFrozen }) := by
  rw [switchFreezing]
  split
  case isTrue sequential => exact .inr ⟨sequential, rfl⟩
  case isFalse => exact .inl rfl

end Entry

namespace Catalog

variable {ω : Type} {α : Type} {catalog : Catalog ω} {change : Change ω} {cause : CatalogError}

/-- Whether a change registers options, which brings their command into being. -/
def Change.registers : Change ω → Bool
  | .define _ _ => false
  | .register _ _ _ => true
  | .registerGroup _ _ _ => true
  | .withdraw _ _ => false
  | .withdrawCommand _ => false
  | .switchFreezing _ => false
  | .putMainLast _ => false
  | .continueBelowMain _ => false

/-- The catalog after a command has been looked up for a registration. -/
def bring (catalog : Catalog ω) (main : String) : Catalog ω :=
  if catalog.contains main then catalog else catalog.put main (.ofPolicy main {})

private theorem bring_of_contains {main : String} (known : catalog.contains main = true) :
    catalog.bring main = catalog := if_pos known

private theorem bring_of_not_contains {main : String} (unknown : catalog.contains main = false) :
    catalog.bring main = catalog.put main (.ofPolicy main {}) := by simp [bring, unknown]

private theorem contains_put (catalog : Catalog ω) (main : String) (entry : Entry ω) :
    (catalog.put main entry).contains main = true := by
  simp [contains, Table.contains, get?_put]

/-- Looking a command up for a registration settles its policy. -/
theorem contains_bring (catalog : Catalog ω) (main : String) :
    (catalog.bring main).contains main = true := by
  unfold bring
  split
  case isTrue known => exact known
  case isFalse => exact contains_put _ _ _

theorem entry_eq_ok_iff {main : String} {entry : Entry ω} :
    catalog.entry main = .ok entry ↔ catalog.entries.get? main = some entry := by
  rw [Catalog.entry]
  cases catalog.entries.get? main <;> simp

/-- Putting the entry of a command in its own place changes nothing. -/
theorem put_of_entry {main : String} {entry : Entry ω} (hentry : catalog.entry main = .ok entry) :
    catalog.put main entry = catalog :=
  congrArg mk (Table.insert_of_get?_eq_some (entry_eq_ok_iff.1 hentry))

private theorem put_entryOrNew (catalog : Catalog ω) (main : String) :
    catalog.put main (catalog.entryOrNew main) = catalog.bring main := by
  unfold bring contains Table.contains entryOrNew
  cases held : catalog.entries.get? main with
  | none => rfl
  | some entry => exact congrArg mk (Table.insert_of_get?_eq_some held)

/-- If a change leaves the entry as it was whenever it is refused, an update is refused and changes
nothing, or it is accepted. -/
theorem update_cases (catalog : Catalog ω) (main : String)
    (change : Entry ω → Except CatalogError α × Entry ω)
    (spares : ∀ entry, (∃ cause, change entry = (.error cause, entry)) ∨
      ∃ value changed, change entry = (.ok value, changed)) :
    (∃ cause, catalog.update main change = (.error cause, catalog)) ∨
    ∃ value after, catalog.update main change = (.ok value, after) := by
  unfold update
  cases hentry : catalog.entry main with
  | error cause => exact .inl ⟨cause, rfl⟩
  | ok entry =>
      dsimp only
      rcases spares entry with ⟨cause, hchange⟩ | ⟨value, changed, hchange⟩
      · rw [hchange, put_of_entry hentry]
        exact .inl ⟨cause, rfl⟩
      · rw [hchange]
        exact .inr ⟨value, _, rfl⟩

/-- Names are refused for the first reserved one, once the command has been looked up. -/
theorem registerNames_cases (catalog : Catalog ω) (main : String) (names : List String)
    (action : Action ω) :
    (∃ reserved, catalog.registerNames main names action =
      (.error (.reservedName reserved), catalog.bring main)) ∨
    ∃ after, catalog.registerNames main names action = (.ok (), after) := by
  unfold registerNames
  dsimp only
  split
  case h_1 reserved _ => exact .inl ⟨reserved, by rw [put_entryOrNew]⟩
  case h_2 => exact .inr ⟨_, rfl⟩

/-- A change is refused in one of two ways: a registration for a reserved name, once its command has
been looked up, and any other change before it touches the catalog. -/
theorem apply_cases (catalog : Catalog ω) (change : Change ω) :
    (∃ reserved, change.registers = true ∧
      catalog.apply change = (.error (.reservedName reserved), catalog.bring change.main)) ∨
    (∃ cause, change.registers = false ∧ catalog.apply change = (.error cause, catalog)) ∨
    ∃ after, catalog.apply change = (.ok (), after) := by
  cases change with
  | define main policy =>
      right
      by_cases known : catalog.contains main = true
      · exact .inl ⟨.settledPolicy main, rfl, by simp [apply, define, known]⟩
      · exact .inr ⟨catalog.put main (.ofPolicy main policy), by simp [apply, define, known]⟩
  | register main option action =>
      cases option with
      | none => exact .inr (.inr ⟨_, rfl⟩)
      | some name =>
          simp only [apply, register]
          split
          case isTrue => exact .inr (.inr ⟨_, rfl⟩)
          case isFalse =>
            rcases registerNames_cases catalog main [name] action with
              ⟨reserved, hresult⟩ | ⟨after, hresult⟩
            · exact .inl ⟨reserved, rfl, hresult⟩
            · exact .inr (.inr ⟨after, hresult⟩)
  | registerGroup main names action =>
      simp only [apply, registerGroup]
      split
      case isTrue => exact .inr (.inr ⟨_, rfl⟩)
      case isFalse =>
        rcases registerNames_cases catalog main names action with
          ⟨reserved, hresult⟩ | ⟨after, hresult⟩
        · exact .inl ⟨reserved, rfl, hresult⟩
        · exact .inr (.inr ⟨after, hresult⟩)
  | withdraw main options =>
      right
      rcases update_cases catalog main (fun entry => entry.withdraw options) (fun entry =>
        (entry.withdraw_cases options).imp_right fun ⟨_, hchange⟩ => ⟨_, _, hchange⟩) with
        ⟨cause, hresult⟩ | ⟨_, after, hresult⟩
      · exact .inl ⟨cause, rfl, hresult⟩
      · exact .inr ⟨after, hresult⟩
  | withdrawCommand main =>
      right
      by_cases known : catalog.contains main = true
      · exact .inr ⟨⟨catalog.entries.erase main⟩, by simp [apply, withdrawCommand, known]⟩
      · exact .inl ⟨.noSuchCommand main, rfl, by simp [apply, withdrawCommand, known]⟩
  | switchFreezing main =>
      right
      rw [apply, switchFreezing]
      rcases update_cases catalog main (fun entry => entry.switchFreezing main) (fun entry =>
        (entry.switchFreezing_cases main).imp (fun hchange => ⟨_, hchange⟩)
          fun ⟨_, hchange⟩ => ⟨_, _, hchange⟩) with ⟨cause, hresult⟩ | ⟨_, after, hresult⟩
      · exact .inl ⟨cause, rfl, by rw [hresult]; rfl⟩
      · exact .inr ⟨after, by rw [hresult]; rfl⟩
  | putMainLast main =>
      right
      rcases update_cases catalog main (fun entry => (.ok (), entry.putMainLast))
        (fun _ => .inr ⟨_, _, rfl⟩) with ⟨cause, hresult⟩ | ⟨_, after, hresult⟩
      · exact .inl ⟨cause, rfl, hresult⟩
      · exact .inr ⟨after, hresult⟩
  | continueBelowMain main =>
      right
      rcases update_cases catalog main (fun entry => (.ok (), entry.continueBelowMain))
        (fun _ => .inr ⟨_, _, rfl⟩) with ⟨cause, hresult⟩ | ⟨_, after, hresult⟩
      · exact .inl ⟨cause, rfl, hresult⟩
      · exact .inr ⟨after, hresult⟩

/-- A refused change leaves the catalog as it was, unless it registers options of a command that was
not there: then it was refused for a reserved name, and the command is there afterwards, under the
default policy, which cannot be changed any more. -/
theorem apply_of_refused (refused : (catalog.apply change).1 = .error cause) :
    (change.registers = false ∨ catalog.contains change.main = true →
      (catalog.apply change).2 = catalog) ∧
    (change.registers = true → catalog.contains change.main = false →
      (∃ reserved, cause = .reservedName reserved) ∧
      (catalog.apply change).2 = catalog.put change.main (.ofPolicy change.main {}) ∧
      ∀ policy, ((catalog.apply change).2.apply (.define change.main policy)).1 =
        .error (.settledPolicy change.main)) := by
  rcases apply_cases catalog change with
    ⟨reserved, registers, hresult⟩ | ⟨_, spares, hresult⟩ | ⟨_, hresult⟩
  · rw [hresult] at refused ⊢
    cases refused
    refine ⟨fun kept => ?_, fun _ unknown => ⟨⟨reserved, rfl⟩, bring_of_not_contains unknown, ?_⟩⟩
    · rcases kept with spares | known
      · simp [registers] at spares
      · exact bring_of_contains known
    · intro policy
      simp [apply, define, contains_bring]
  · rw [hresult]
    refine ⟨fun _ => rfl, fun registers => ?_⟩
    simp [spares] at registers
  · simp [hresult] at refused

/-- Both alternatives: putting the main option of an unknown command last is refused and changes
nothing, registering its main option by name is refused and brings the command into being. -/
theorem apply_of_refused_unknown :
    (({} : Catalog Unit).apply (.putMainLast "list")).2 = {} ∧
    (({} : Catalog Unit).apply (.register "list" (some "_DEFAULT_") Action.idle)).2 =
      Catalog.put {} "list" (.ofPolicy "list" {}) := by
  constructor
  · have refused : (({} : Catalog Unit).apply (.putMainLast "list")).1 =
        .error (.noSuchCommand "list") := by rfl
    exact (apply_of_refused refused).1 (.inl rfl)
  · have refused : (({} : Catalog Unit).apply (.register "list" (some "_DEFAULT_") Action.idle)).1 =
        .error (.reservedName "_DEFAULT_") := by rfl
    exact ((apply_of_refused refused).2 rfl rfl).2.1

/-- A refused registration can leave more commands in the catalog than there were before. -/
theorem register_reserved_creates :
    (({} : Catalog Unit).apply (.register "list" (some "_DEFAULT_") Action.idle)).1 =
      .error (.reservedName "_DEFAULT_") ∧
    ({} : Catalog Unit).contains "list" = false ∧
    (({} : Catalog Unit).apply
      (.register "list" (some "_DEFAULT_") Action.idle)).2.contains "list" = true :=
  ⟨rfl, rfl, rfl⟩

end Catalog

end CommandEngine
