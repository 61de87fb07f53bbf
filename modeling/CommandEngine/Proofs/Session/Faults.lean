import CommandEngine.Proofs.Catalog.Changing
import CommandEngine.Proofs.Selection.Openings
import CommandEngine.Proofs.Session.Calls
/-!
# Which fault of a batch is reported

A batch may be at fault in many ways at once, and one fault is reported. An unknown command comes
before everything else, and among several the one written first; then the builder is not asked at
all. In a batch whose commands are known, each command is at fault or not by itself, and the first
one that is decides: with the first option it opens that is not registered, or else with the cause
that the builder gives (`Batch.Fails`).

Both priorities are the same relation, `Earliest`, for two notions of fault. The host hears of a
fault through at most one call of a handler, which gets the name that the fault reports
(`Session.faults_reported`); if the builder refused, and if the batch cannot be attached, no handler
is called.
-/

namespace CommandEngine

section Earliest

variable {β γ : Type} {holds : β → γ → Prop} {values rest : List β} {value : β} {outcome : γ}

/-- The outcome of the first value that has one. -/
def Earliest (holds : β → γ → Prop) (values : List β) (outcome : γ) : Prop :=
  ∃ front value back, values = front ++ value :: back ∧ holds value outcome ∧
    ∀ earlier ∈ front, ∀ other, ¬holds earlier other

theorem not_earliest_nil : ¬Earliest holds [] outcome := by
  rintro ⟨front, value, back, hsplit, -⟩
  simp at hsplit

theorem earliest_cons_iff :
    Earliest holds (value :: rest) outcome ↔
      holds value outcome ∨ (∀ other, ¬holds value other) ∧ Earliest holds rest outcome := by
  constructor
  · rintro ⟨front, found, back, hsplit, hfound, before⟩
    cases front with
    | nil =>
        obtain ⟨rfl, rfl⟩ := List.cons.inj hsplit
        exact .inl hfound
    | cons first front =>
        obtain ⟨rfl, rfl⟩ := List.cons.inj hsplit
        exact .inr ⟨before _ List.mem_cons_self, front, found, back, rfl, hfound,
          fun earlier here => before earlier (List.mem_cons_of_mem _ here)⟩
  · rintro (hvalue | ⟨none, front, found, back, rfl, hfound, before⟩)
    · exact ⟨[], value, rest, rfl, hvalue, nofun⟩
    · refine ⟨value :: front, found, back, rfl, hfound, fun earlier here => ?_⟩
      rcases List.mem_cons.1 here with rfl | later
      · exact none
      · exact before earlier later

/-- If any value has an outcome, one has it first. -/
theorem exists_earliest_iff :
    (∃ outcome, Earliest holds values outcome) ↔
      ∃ value ∈ values, ∃ outcome, holds value outcome := by
  constructor
  · rintro ⟨outcome, front, value, back, rfl, hvalue, -⟩
    exact ⟨value, by simp, outcome, hvalue⟩
  · induction values with
    | nil => simp
    | cons value rest ih =>
        rintro ⟨found, here, outcome, hfound⟩
        by_cases first : ∃ other, holds value other
        · obtain ⟨other, hvalue⟩ := first
          exact ⟨other, earliest_cons_iff.2 (.inl hvalue)⟩
        · have later : found ∈ rest := by
            refine (List.mem_cons.1 here).resolve_left ?_
            rintro rfl
            exact first ⟨outcome, hfound⟩
          obtain ⟨other, hrest⟩ := ih ⟨found, later, outcome, hfound⟩
          exact ⟨other, earliest_cons_iff.2 (.inr ⟨not_exists.1 first, hrest⟩)⟩

/-- Only the outcomes of the values themselves count. -/
theorem earliest_congr {other : β → γ → Prop}
    (same : ∀ value ∈ values, ∀ outcome, holds value outcome ↔ other value outcome) :
    Earliest holds values outcome ↔ Earliest other values outcome := by
  refine exists_congr fun front => exists_congr fun value => exists_congr fun back =>
    and_congr_right fun hsplit => and_congr ?_ ?_
  · exact same value (by simp [hsplit]) outcome
  · exact forall₂_congr fun earlier here => forall_congr' fun outcome =>
      not_congr (same earlier (by simp [hsplit, here]) outcome)

end Earliest

/-! ## Faults of a batch -/

namespace Batch

variable {ω : Type} {catalog : Catalog ω} {builder : Builder ω} {statements : List Statement}
variable {statement : Statement} {name : String} {cause : StagingError}

/-- The statement is a command under a name that is not in the catalog. -/
def IsUnknown (catalog : Catalog ω) (statement : Statement) (name : String) : Prop :=
  ∃ words, statement = .command (name :: words) ∧ catalog.contains name = false

/-- A command that is in the catalog fails by itself, whatever stands around it. -/
inductive Fails (catalog : Catalog ω) (builder : Builder ω) : Statement → StagingError → Prop
  | /-- It opens an option that is not registered, and this is the first one. -/
    unknownOption {name : String} {words : List String} {entry : Entry ω} {option : String}
    (hentry : catalog.entry name = .ok entry)
    (first : (entry.openings words).find? (!entry.hasOption ·) = some option) :
    Fails catalog builder (.command (name :: words)) (.unknownOption option)
  | /-- Its options are all registered, and the builder refuses what they come to. -/
    refused {name : String} {words : List String} {entry : Entry ω} {selections : List Selection}
    {cause : CatalogError} (hentry : catalog.entry name = .ok entry)
    (selected : entry.select words = .ok selections)
    (answer : builder name selections catalog = .error cause) :
    Fails catalog builder (.command (name :: words)) (.refused cause)

theorem isUnknown_iff :
    IsUnknown catalog statement name ↔
      statement.name? = some name ∧ catalog.contains name = false := by
  refine ⟨?_, fun ⟨hname, unknown⟩ => ?_⟩
  · rintro ⟨words, rfl, unknown⟩
    exact ⟨rfl, unknown⟩
  · cases statement with
    | openBlock => cases hname
    | closeBlock => cases hname
    | command words =>
        cases words with
        | nil => cases hname
        | cons first rest => exact ⟨rest, by rw [Option.some.inj hname], unknown⟩

theorem firstUnknown?_eq_some_iff :
    firstUnknown? catalog statements = some name ↔
      Earliest (IsUnknown catalog) statements name := by
  have any_eq_true_iff (statement : Statement) :
      statement.name?.any (!catalog.contains ·) = true ↔
        ∃ name, IsUnknown catalog statement name := by
    simp only [isUnknown_iff]
    cases statement.name? <;> simp
  rw [firstUnknown?, List.find?_filterMap, Option.bind_eq_some_iff]
  simp only [List.find?_eq_some_iff_append, any_eq_true_iff, Bool.not_eq_true', ← Bool.not_eq_true,
    not_exists]
  constructor
  · rintro ⟨statement, ⟨⟨other, hother⟩, front, back, hsplit, before⟩, hname⟩
    obtain ⟨written, unknown⟩ := isUnknown_iff.1 hother
    rw [hname, Option.some.injEq] at written
    exact ⟨front, statement, back, hsplit, isUnknown_iff.2 ⟨hname, written ▸ unknown⟩, before⟩
  · rintro ⟨front, statement, back, hsplit, unknown, before⟩
    exact ⟨statement, ⟨⟨name, unknown⟩, front, back, hsplit, before⟩, (isUnknown_iff.1 unknown).1⟩

/-- The commands of a batch are built until the first that fails. -/
theorem items_eq_error_iff :
    items catalog builder statements = .error cause ↔
      Earliest (fun statement cause => itemsOf catalog builder statement = .error cause)
        statements cause := by
  induction statements with
  | nil => simp [items, not_earliest_nil]
  | cons statement rest ih =>
      rw [earliest_cons_iff, ← ih, items]
      cases itemsOf catalog builder statement with
      | error other => simp
      | ok front => cases items catalog builder rest <;> simp [Except.map]

/-- A command that is in the catalog cannot be built exactly if it fails by itself. -/
theorem build_eq_error_iff {entry : Entry ω} {words : List String}
    (hentry : catalog.entry name = .ok entry) :
    build catalog builder name words = .error cause ↔
      Fails catalog builder (.command (name :: words)) cause := by
  rcases entry.select_cases words with
    ⟨option, hfirst, hselect⟩ | ⟨selections, hfirst, hselect, -⟩
  · have hbuild : build catalog builder name words = .error (.unknownOption option) := by
      simp [build, hentry, hselect]
    rw [hbuild, Except.error.injEq]
    constructor
    · rintro rfl
      exact .unknownOption hentry hfirst
    · intro failed
      cases failed with
      | unknownOption here first =>
          cases hentry.symm.trans here
          rw [Option.some.inj (hfirst.symm.trans first)]
      | refused here selected =>
          cases hentry.symm.trans here
          cases hselect.symm.trans selected
  · have hbuild : build catalog builder name words =
        (builder name selections catalog).mapError .refused := by
      simp [build, hentry, hselect]
    rw [hbuild]
    constructor
    · intro failed
      cases answer : builder name selections catalog with
      | ok invocation =>
          rw [answer] at failed
          cases failed
      | error refusal =>
          rw [answer] at failed
          cases failed
          exact .refused hentry hselect answer
    · intro failed
      cases failed with
      | unknownOption here first =>
          cases hentry.symm.trans here
          cases hfirst.symm.trans first
      | refused here selected answer =>
          cases hentry.symm.trans here
          cases hselect.symm.trans selected
          rw [answer]
          rfl

/-- A statement that names no unknown command cannot be built exactly if it fails by itself. -/
theorem itemsOf_eq_error_iff (known : ∀ name, ¬IsUnknown catalog statement name) :
    itemsOf catalog builder statement = .error cause ↔ Fails catalog builder statement cause := by
  cases statement with
  | openBlock => exact iff_of_false nofun nofun
  | closeBlock => exact iff_of_false nofun nofun
  | command words =>
      cases words with
      | nil => exact iff_of_false nofun nofun
      | cons name words =>
          have here : catalog.contains name = true := by
            rw [← Bool.not_eq_false]
            exact fun unknown => known name ⟨words, rfl, unknown⟩
          obtain ⟨entry, hentry⟩ := Catalog.entry_of_contains here
          rw [← build_eq_error_iff hentry, itemsOf]
          cases build catalog builder name words <;> simp [Except.map]

/-- With an unknown command, the first name of one is reported, whatever the builder is, and no
block has been opened or closed. -/
theorem stage_of_isUnknown (unknown : Earliest (IsUnknown catalog) statements name)
    (builder : Builder ω) (nesting : Nesting) :
    stage catalog builder statements nesting = (.error (.unknownCommand name), nesting) := by
  rw [stage, firstUnknown?_eq_some_iff.2 unknown]

/-- If all commands are known, the first that fails decides. -/
theorem stage_eq_error_iff
    (known : ¬∃ statement ∈ statements, ∃ name, IsUnknown catalog statement name)
    (nesting : Nesting) :
    (stage catalog builder statements nesting).1 = .error cause ↔
      Earliest (Fails catalog builder) statements cause := by
  have hnone : firstUnknown? catalog statements = none := by
    rw [Option.eq_none_iff_forall_ne_some]
    exact fun name found =>
      known (exists_earliest_iff.1 ⟨name, firstUnknown?_eq_some_iff.1 found⟩)
  have hitems : items catalog builder statements = .error cause ↔
      Earliest (Fails catalog builder) statements cause :=
    items_eq_error_iff.trans <| earliest_congr fun statement here _ =>
      itemsOf_eq_error_iff fun name unknown => known ⟨statement, here, name, unknown⟩
  rw [stage, hnone, ← hitems]
  cases hbatch : items catalog builder statements with
  | error other => simp [stageFrom_of_items_eq_error hbatch nesting []]
  | ok batch => simp [stageFrom_of_items_eq_ok hbatch nesting []]

end Batch

/-- The call of a handler that a fault makes: the handler for its kind, on the name it reports. -/
def StagingError.call? {ω : Type} (settings : Settings ω) :
    StagingError → Option (ω → Except String Unit × ω)
  | unknownCommand name => some (settings.onUnknownCommand name)
  | unknownOption name => some (settings.onUnknownOption name)
  | refused _ => none

namespace Session

variable {ω : Type}

/-- The fault of the statements that a line completes, if there is one. -/
def fault? (session : Session ω) (line : String) : Option StagingError :=
  match (Batch.stage session.catalog session.settings.builder (session.statementsOf line)
    session.liveNesting).1 with
  | .error cause => some cause
  | .ok _ => none

/-- A line with a fault is discarded, with the verdict on its fault; any other line is accepted, or
its commands cannot be attached. -/
theorem accept_fault (session : Session ω) (line : String) :
    match session.fault? line with
    | some cause => session.accept line = (cause.verdict, session.discard)
    | none => (session.accept line).1 = .accepted ∨
        ∃ cause : AttachmentError, (session.accept line).1 = .failed cause.toSessionError := by
  unfold fault? statementsOf accept
  by_cases blank : Text.isBlankText line = true
  · rw [if_pos blank, if_pos blank]
    exact .inl rfl
  · rw [if_neg blank, if_neg blank]
    generalize session.scanner.read session.settings.grammar line = reading
    obtain ⟨statements, scanner⟩ := reading
    cases statements with
    | nil => exact .inl rfl
    | cons statement rest =>
        rcases hstage : Batch.stage session.catalog session.settings.builder (statement :: rest)
          session.liveNesting with ⟨result, nesting⟩
        -- The scanner takes no part in staging.
        have hstage' : Batch.stage session.catalog session.settings.builder (statement :: rest)
          ({ session with scanner } : Session ω).liveNesting = (result, nesting) := hstage
        cases result with
        | error cause => simp [acceptStatements, hstage', discard]
        | ok staged =>
            simp only [List.isEmpty_cons, Bool.false_eq_true, if_false, acceptStatements, hstage']
            rcases Batch.attach session.catalog session.settings.builder staged session.tree with
              ⟨cause | nodes, tree⟩
            · exact .inr ⟨cause, rfl⟩
            · exact .inl rfl

/-- Among several faults of a batch, unknown commands come before all others, whatever the builder
is, and the first one is reported; without any, the first command that fails is. A line has its
fault told to the handler for it, once and by the name reported, and no other call is made. -/
theorem faults_reported (catalog : Catalog ω) (statements : List Statement) (nesting : Nesting)
    (session : Session ω) (line : String) (world : ω) :
    ((∃ statement ∈ statements, ∃ name, Batch.IsUnknown catalog statement name) →
      ∃ name, Earliest (Batch.IsUnknown catalog) statements name ∧ ∀ builder,
        Batch.stage catalog builder statements nesting =
          (.error (.unknownCommand name), nesting)) ∧
    ((¬∃ statement ∈ statements, ∃ name, Batch.IsUnknown catalog statement name) → ∀ builder,
      (∀ name, (Batch.stage catalog builder statements nesting).1 ≠
        .error (.unknownCommand name)) ∧
      ((∃ cause, (Batch.stage catalog builder statements nesting).1 = .error cause) ↔
        ∃ statement ∈ statements, ∃ cause, Batch.Fails catalog builder statement cause) ∧
      ∀ cause, (Batch.stage catalog builder statements nesting).1 = .error cause ↔
        Earliest (Batch.Fails catalog builder) statements cause) ∧
    match (session.fault? line).bind (·.call? session.settings) with
    | some call => session.submit line world =
        ((call world).1.mapError .handler, session.discard, (call world).2)
    | none => (session.submit line world).2.2 = world ∧
        ∀ reason, (session.submit line world).1 ≠ .error (.handler reason) := by
  refine ⟨fun unknown => ?_, fun known builder => ⟨fun name unknown => ?_, ?_, fun cause => ?_⟩, ?_⟩
  · obtain ⟨name, first⟩ := exists_earliest_iff.2 unknown
    exact ⟨name, first, fun builder => Batch.stage_of_isUnknown first builder nesting⟩
  · obtain ⟨-, statement, -, -, failed, -⟩ := (Batch.stage_eq_error_iff known nesting).1 unknown
    cases failed
  · simp only [Batch.stage_eq_error_iff known, exists_earliest_iff]
  · exact Batch.stage_eq_error_iff known nesting
  · have haccept := session.accept_fault line
    cases hfault : session.fault? line with
    | none =>
        rw [hfault] at haccept
        rcases haccept with accepted | ⟨cause, failed⟩
        · simp [submit, respond, accepted]
        · cases cause <;> simp [submit, respond, failed, AttachmentError.toSessionError]
    | some cause =>
        rw [hfault] at haccept
        simp only at haccept
        cases cause with
        | unknownCommand name =>
            simp [submit, haccept, respond, StagingError.verdict, StagingError.call?, discard]
        | unknownOption name =>
            simp [submit, haccept, respond, StagingError.verdict, StagingError.call?, discard]
        | refused refusal =>
            simp [submit, haccept, respond, StagingError.verdict, StagingError.call?]

end Session

end CommandEngine
