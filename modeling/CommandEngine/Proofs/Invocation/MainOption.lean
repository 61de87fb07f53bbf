import CommandEngine.Proofs.Catalog.Sequence
import CommandEngine.Proofs.Invocation.Ordering
/-!
# Where the main option runs

A host can say where the main option of a command runs among the others. It can be put last, by an
effective priority below which there is none; or the sequence of priorities can go on below it, so
that options registered later run after it. Neither reaches as far as it is meant to.

Put last, the main option shares its effective priority with options that were registered at the
least priority there is. Among these ranks decide, and the ranks of the two were counted apart, so
the main option may come first (`Catalog.main_option_runs_last`). And only a sequence can go on
below the main option: a fixed priority stays what it is (`Catalog.later_options_run_after_main`).
With these two exceptions both promises are kept, by every catalog that changes bring about and for
every invocation, however it was made and edited.
-/

namespace CommandEngine

variable {ω : Type}

/-- A list in which nothing of a kind comes before anything else ends with what is of that kind. -/
theorem filter_append_filter {α : Type} {kind : α → Bool} {values : List α}
    (last : values.Pairwise fun first second => kind first = true → kind second = true) :
    values.filter (!kind ·) ++ values.filter kind = values := by
  induction values with
  | nil => rfl
  | cons value rest ih =>
      obtain ⟨after, later⟩ := List.pairwise_cons.1 last
      by_cases here : kind value = true
      · have others : rest.filter (!kind ·) = [] :=
          List.filter_eq_nil_iff.2 fun next hnext => by simp [after next hnext here]
        have same : rest.filter kind = rest :=
          List.filter_eq_self.2 fun next hnext => after next hnext here
        rw [List.filter_cons_of_neg (by simp [here]), List.filter_cons_of_pos here, others, same]
        rfl
      · rw [List.filter_cons_of_pos (by simp [here]), List.filter_cons_of_neg here,
          List.cons_append, ih later]

namespace Invocation

variable {catalog : Catalog ω} {entry : Entry ω} {invocation start : Invocation}
  {sorted : List Occurrence}

theorem mayPrecede_iff {first second : Int32 × Occurrence} :
    mayPrecede first second = true ↔
      second.1 < first.1 ∨ first.1 = second.1 ∧ first.2.rank ≤ second.2.rank := by
  simp [mayPrecede]

private theorem mayPrecede_trans (first second third : Int32 × Occurrence)
    (one : mayPrecede first second = true) (two : mayPrecede second third = true) :
    mayPrecede first third = true := by
  simp only [mayPrecede_iff, Int32.lt_iff_toInt_lt, ← Int32.toInt_inj] at one two ⊢
  omega

private theorem mayPrecede_total (first second : Int32 × Occurrence)
    (not : ¬mayPrecede first second = true) : mayPrecede second first = true := by
  simp only [mayPrecede_iff, Int32.lt_iff_toInt_lt, ← Int32.toInt_inj] at not ⊢
  omega

/-- Only what the catalog supports can be ordered, and that leaves no occurrence out. -/
theorem supported_and_perm_of_ordered (hordered : invocation.ordered catalog = .ok sorted) :
    invocation.IsSupported catalog ∧ sorted.Perm invocation.occurrences := by
  rcases ordered_cases catalog invocation with
    ⟨entry, _, hentry, hsorted, perm, registered⟩ | ⟨cause, hcause, -⟩
  · cases hordered.symm.trans hsorted
    have known := fun occurrence here => registered occurrence (perm.mem_iff.2 here)
    exact ⟨⟨entry, hentry, known⟩, perm⟩
  · rw [hordered] at hcause
    cases hcause

/-- However an invocation is made and edited, its occurrences can be ordered. -/
theorem IsMade.exists_ordered (made : start.IsMade catalog) (edits : List Edit) :
    ∃ sorted, (start.applyAll catalog edits).ordered catalog = .ok sorted := by
  rcases ordered_cases catalog (start.applyAll catalog edits) with
    ⟨_, sorted, -, hordered, -⟩ | ⟨_, -, unsupported⟩
  · exact ⟨sorted, hordered⟩
  · exact absurd (made.isSupported_applyAll edits) unsupported

/-- Of two occurrences the one that runs earlier has the higher effective priority, or the same and
no higher rank. -/
theorem exists_running_of_ordered (hentry : catalog.entry invocation.name = .ok entry)
    (hordered : invocation.ordered catalog = .ok sorted) :
    ∃ running : String → Int32,
      (∀ occurrence ∈ sorted, entry.runningPriority occurrence.option =
        .ok (running occurrence.option)) ∧
      sorted.Pairwise fun first second => running second.option < running first.option ∨
        running first.option = running second.option ∧ first.rank ≤ second.rank := by
  obtain ⟨supported, perm⟩ := supported_and_perm_of_ordered hordered
  obtain ⟨running, hrunning⟩ := supported.exists_running hentry
  refine ⟨running, fun occurrence here => hrunning occurrence (perm.mem_iff.1 here), ?_⟩
  let keyed (occurrence : Occurrence) := (running occurrence.option, occurrence)
  let runsBefore (first second : Occurrence) := mayPrecede (keyed first) (keyed second)
  have inOrder : (stableSort runsBefore invocation.occurrences).Pairwise (runsBefore · ·) :=
    pairwise_stableSort
      (fun first second third => mayPrecede_trans (keyed first) (keyed second) (keyed third))
      (fun first second => mayPrecede_total (keyed first) (keyed second)) invocation.occurrences
  have same := Except.ok.inj (hordered.symm.trans (ordered_eq_stableSort hentry hrunning))
  rw [same]
  exact inOrder.imp mayPrecede_iff.1

private theorem exists_definition_of_priority? {option : String} {priority : Int32}
    (hpriority : entry.priority? option = some priority) :
    ∃ definition, entry.definition option = .ok definition ∧ definition.priority = priority := by
  obtain ⟨definition, hdefinition, rfl⟩ := Option.map_eq_some_iff.1 hpriority
  exact ⟨definition, Entry.definition_eq_ok_iff.2 hdefinition, rfl⟩

/-- If the main option is to run last, it comes before another option only if that one has the least
priority, and then no higher rank comes first. -/
theorem pairwise_of_mainIsLast (hentry : catalog.entry invocation.name = .ok entry)
    (hordered : invocation.ordered catalog = .ok sorted) (last : entry.mainIsLast = true) :
    sorted.Pairwise fun first second => first.option = entry.mainOption →
      second.option ≠ entry.mainOption →
        entry.priority? second.option = some Int32.minValue ∧ first.rank ≤ second.rank := by
  obtain ⟨running, hrunning, inOrder⟩ := exists_running_of_ordered hentry hordered
  refine inOrder.imp_of_mem fun {first second} hfirst hsecond precedes main other => ?_
  have least : running first.option = Int32.minValue := by
    rcases runningPriority_cases (hrunning first hfirst) with ⟨-, -, least⟩ | ⟨beside, -⟩
    · exact least
    · exact absurd ⟨last, main⟩ beside
  have registered : entry.priority? second.option = some (running second.option) :=
    priority?_of_running (fun both => other both.2) (hrunning second hsecond)
  rcases precedes with below | ⟨same, lower⟩
  · have bounded := Int32.minValue_le_toInt (running second.option)
    rw [least, Int32.lt_iff_toInt_lt] at below
    omega
  · exact ⟨by rw [registered, ← same, least], lower⟩

/-! ## The main option before others -/

/-- An option whose priority is below that of the main option runs after it, unless the main option
is to run last. -/
theorem pairwise_of_below (hentry : catalog.entry invocation.name = .ok entry)
    (hordered : invocation.ordered catalog = .ok sorted) (obeys : entry.ObeysPolicy)
    (notLast : entry.mainIsLast = false) {later : List String}
    (below : ∀ option ∈ later, ∀ definition, entry.definition option = .ok definition →
      definition.priority < mainPriority) :
    sorted.Pairwise fun first second => second.option = entry.mainOption →
      first.option ∉ later := by
  obtain ⟨running, hrunning, inOrder⟩ := exists_running_of_ordered hentry hordered
  have registered : ∀ occurrence ∈ sorted, ∃ definition,
      entry.definition occurrence.option = .ok definition ∧
        definition.priority = running occurrence.option := by
    intro occurrence here
    have ordinary : ¬(entry.mainIsLast = true ∧ occurrence.option = entry.mainOption) := by
      simp [notLast]
    exact exists_definition_of_priority? (priority?_of_running ordinary (hrunning occurrence here))
  refine inOrder.imp_of_mem fun {first second} hfirst hsecond precedes main here => ?_
  obtain ⟨_, hlater, hfirst⟩ := registered first hfirst
  obtain ⟨_, hmain, hsecond⟩ := registered second hsecond
  have lower := below first.option here _ hlater
  rw [hfirst] at lower
  rw [main] at hmain
  rw [obeys.main _ hmain] at hsecond
  rw [← hsecond] at precedes
  simp only [Int32.lt_iff_toInt_lt, ← Int32.toInt_inj] at precedes lower
  omega

end Invocation

namespace Entry

variable {entry changed : Entry ω} {change : Catalog.Change ω} {answer : Except CatalogError Unit}
  {older : History}

/-- Handing out a priority leaves the place of the main option. -/
theorem mainIsLast_handOut (entry : Entry ω) :
    entry.handOut.2.mainIsLast = entry.mainIsLast := by
  unfold handOut
  split
  · rfl
  · split <;> rfl

/-- A main option that is to run last stays last. -/
theorem Becomes.mainIsLast (becomes : entry.Becomes change answer changed)
    (last : entry.mainIsLast = true) : changed.mainIsLast = true := by
  cases becomes with
  | setAliases => exact entry.mainIsLast_handOut.trans last
  | putMainLast => rfl
  | refused => exact last
  | setMain => exact last
  | withdraw => exact last
  | switchFreezing => exact last
  | continueBelowMain => exact last

/-- Whatever priority is handed out is below that of the main option. -/
structure HandsOutBelow (entry : Entry ω) : Prop where
  fixed : entry.policy.isSequential = false → entry.policy.base < mainPriority
  cursor : entry.cursor < mainPriority
  last : ∀ priority, entry.lastAssigned = some priority → priority < mainPriority

namespace HandsOutBelow

/-- It is once the sequence goes on below the main option, if a fixed priority is. -/
theorem restart (fixed : entry.policy.isSequential = false → entry.policy.base < mainPriority) :
    ({ entry with cursor := mainPriority - 1, lastAssigned := none } : Entry ω).HandsOutBelow where
  fixed := fixed
  cursor := (by decide : mainPriority - 1 < mainPriority)
  last := nofun

theorem handOut (below : entry.HandsOutBelow) :
    entry.handOut.1 < mainPriority ∧ entry.handOut.2.HandsOutBelow := by
  cases sequential : entry.policy.isSequential with
  | false =>
      rw [handOut_of_fixed sequential]
      exact ⟨below.fixed sequential, below⟩
  | true =>
      rcases handOut_cases sequential with ⟨priority, -, last, hhandOut⟩ | ⟨-, hhandOut⟩
      · rw [hhandOut]
        exact ⟨below.last priority last, below⟩
      · have cursor := below.cursor
        have lowered_lt : lowered entry.cursor < mainPriority := by
          have bounded := Int32.minValue_le_toInt entry.cursor
          rw [Int32.lt_iff_toInt_lt] at cursor ⊢
          rw [toInt_lowered]
          omega
        rw [hhandOut]
        exact ⟨cursor, below.fixed, lowered_lt, fun _ last => Option.some.inj last ▸ cursor⟩

theorem becomes (below : entry.HandsOutBelow) (becomes : entry.Becomes change answer changed) :
    changed.HandsOutBelow := by
  cases becomes with
  | setAliases =>
      obtain ⟨-, fixed, cursor, last⟩ := below.handOut
      exact ⟨fixed, cursor, last⟩
  | continueBelowMain => exact restart below.fixed
  | refused => exact below
  | setMain => exact ⟨below.fixed, below.cursor, below.last⟩
  | withdraw => exact ⟨below.fixed, below.cursor, below.last⟩
  | switchFreezing => exact ⟨below.fixed, below.cursor, below.last⟩
  | putMainLast => exact ⟨below.fixed, below.cursor, below.last⟩

end HandsOutBelow

/-- Names given to other options are never the name of the main option. -/
theorem Becomes.ne_mainOption (becomes : entry.Becomes change answer changed)
    (others : ∀ option ∈ older.names, option ≠ entry.mainOption) :
    ∀ option ∈ History.names ((change.mark? answer changed).toList ++ older),
      option ≠ changed.mainOption := by
  have hmain : changed.mainOption = entry.mainOption := congrArg Policy.mainOption becomes.policy_eq
  rw [hmain]
  cases becomes with
  | setAliases names free action =>
      rw [mark?_setAliases names action]
      intro option here
      rcases List.mem_append.1 here with new | old
      · exact ne_mainOption_of_free free new
      · exact others option old
  | setMain registers noNames =>
      rw [mark?_setMain registers noNames]
      exact others
  | refused => exact others
  | withdraw => exact others
  | switchFreezing => exact others
  | putMainLast => exact others
  | continueBelowMain => exact others

/-- The options that were registered over a history are below the main option, and so will be those
that follow. -/
structure KeepsBelow (entry : Entry ω) (older : History) : Prop where
  handsOut : entry.HandsOutBelow
  others : ∀ option ∈ older.names, option ≠ entry.mainOption
  below : ∀ option ∈ older.names, ∀ definition, entry.definition option = .ok definition →
    definition.priority < mainPriority

theorem KeepsBelow.becomes (keeps : entry.KeepsBelow older)
    (becomes : entry.Becomes change answer changed) :
    changed.KeepsBelow ((change.mark? answer changed).toList ++ older) where
  handsOut := keeps.handsOut.becomes becomes
  others := becomes.ne_mainOption keeps.others
  below := by
    cases becomes with
    | setAliases names free action =>
        rw [mark?_setAliases names action]
        intro option here definition found
        by_cases new : option ∈ change.optionNames
        · rw [definition_setAliases new] at found
          cases found
          exact keeps.handsOut.handOut.1
        · have old : option ∈ older.names := (List.mem_append.1 here).resolve_left new
          rw [definition_eq_ok_iff, get?_setAliases, if_neg new] at found
          exact keeps.below option old definition (definition_eq_ok_iff.2 found)
    | setMain registers noNames action =>
        rw [mark?_setMain registers noNames]
        intro option here definition found
        rw [definition_eq_ok_iff, get?_setMain, if_neg (keeps.others option here).symm] at found
        exact keeps.below option here definition (definition_eq_ok_iff.2 found)
    | withdraw names =>
        intro option here definition found
        rw [definition_eq_ok_iff, get?_eraseOptions] at found
        split at found
        · cases found
        · exact keeps.below option here definition (definition_eq_ok_iff.2 found)
    | refused => exact keeps.below
    | switchFreezing => exact keeps.below
    | putMainLast => exact keeps.below
    | continueBelowMain => exact keeps.below

end Entry

namespace Catalog

variable {catalog : Catalog ω} {main : String} {changes : List (Change ω)}

/-- Let the main option of a command be put last, and let any changes follow that do not withdraw
the command. Then the order of every invocation of the command ends with the occurrences of the main
option, unless another option that occurs was registered at the least priority there is. The main
option may come before such an option, and does so only at no higher rank. -/
theorem main_option_runs_last (known : catalog.contains main = true)
    (stays : ∀ change ∈ changes, change ≠ .withdrawCommand main) :
    let final := catalog.applyAll (.putMainLast main :: changes)
    ∃ entry, final.entry main = .ok entry ∧
      (∀ (invocation : Invocation) sorted, invocation.name = main →
        invocation.ordered final = .ok sorted →
        ((∀ occurrence ∈ invocation.occurrences, occurrence.option ≠ entry.mainOption →
            entry.priority? occurrence.option ≠ some Int32.minValue) →
          ∃ others mains, sorted = others ++ mains ∧
            (∀ occurrence ∈ others, occurrence.option ≠ entry.mainOption) ∧
            ∀ occurrence ∈ mains, occurrence.option = entry.mainOption) ∧
        sorted.Pairwise fun first second => first.option = entry.mainOption →
          second.option ≠ entry.mainOption →
            entry.priority? second.option = some Int32.minValue ∧ first.rank ≤ second.rank) ∧
      ∀ (start : Invocation) edits, start.IsMade final →
        ∃ sorted, (start.applyAll final edits).ordered final = .ok sorted := by
  intro final
  obtain ⟨before, hbefore⟩ := entry_of_contains known
  have hstart : (catalog.apply (.putMainLast main)).2.entry main =
      .ok { before with mainIsLast := true } := by
    rw [apply_putMainLast hbefore]
    exact (entry_put ..).trans (if_pos rfl)
  obtain ⟨entry, hentry, last⟩ := exists_entry_applyAll
    (fun _ _ _ _ last becomes => becomes.mainIsLast last) hstart stays rfl
  refine ⟨entry, hentry, fun invocation sorted hname hordered => ?_,
    fun start edits made => made.exists_ordered edits⟩
  subst hname
  have ties := Invocation.pairwise_of_mainIsLast hentry hordered last
  refine ⟨fun apart => ?_, ties⟩
  have perm := (Invocation.supported_and_perm_of_ordered hordered).2
  have ends : sorted.Pairwise fun first second => (first.option == entry.mainOption) = true →
      (second.option == entry.mainOption) = true := by
    refine ties.imp_of_mem fun {_ second} _ hsecond tie first => ?_
    by_cases main : second.option = entry.mainOption
    · exact beq_iff_eq.2 main
    · exact absurd (tie (beq_iff_eq.1 first) main).1
        (apart second (perm.mem_iff.1 hsecond) main)
  refine ⟨_, _, (filter_append_filter ends).symm, fun occurrence here => ?_,
    fun occurrence here => ?_⟩
  · simpa using (List.mem_filter.1 here).2
  · simpa using (List.mem_filter.1 here).2

/-- Names registered after the main option was put last, at one more than the least priority. -/
theorem main_option_runs_last_of_aliases :
    let catalog := ({} : Catalog Unit).applyAll
      [.define "deploy" { base := -2147483647 }, .register "deploy" none Action.idle]
    let changes : List (Change Unit) := [.registerGroup "deploy" ["n", "notify"] Action.idle]
    let final := catalog.applyAll (.putMainLast "deploy" :: changes)
    let start : Invocation := { name := "deploy" }
    let edits : List Invocation.Edit :=
      [.attach none [], .attach (some "n") ["x"], .attach none ["y"], .attach (some "notify") []]
    start.IsMade final ∧ ∃ sorted, (start.applyAll final edits).ordered final = .ok sorted ∧
      sorted.map Occurrence.option = ["n", "notify", "_DEFAULT_", "_DEFAULT_"] ∧
      ∃ others mains, sorted = others ++ mains ∧
        (∀ occurrence ∈ others, occurrence.option ≠ "_DEFAULT_") ∧
        ∀ occurrence ∈ mains, occurrence.option = "_DEFAULT_" := by
  intro catalog changes final start edits
  have named : Invocation.ofName final "deploy" = .ok start := by rfl
  have made : start.IsMade final := .bare named
  have known : catalog.contains "deploy" = true := by decide +kernel
  have stays : ∀ change ∈ changes, change ≠ .withdrawCommand "deploy" := by simp [changes]
  obtain ⟨entry, hentry, ends, ordered⟩ := main_option_runs_last known stays
  obtain ⟨sorted, hordered⟩ := ordered start edits made
  have hdeploy : final.entry "deploy" = .ok (final.entryOrNew "deploy") := by rfl
  cases hdeploy.symm.trans hentry
  have horder : ((start.applyAll final edits).ordered final).toOption.map
      (List.map Occurrence.option) = some ["n", "notify", "_DEFAULT_", "_DEFAULT_"] := by
    decide +kernel
  rw [hordered] at horder
  have apart : ∀ occurrence ∈ (start.applyAll final edits).occurrences,
      occurrence.option ≠ (final.entryOrNew "deploy").mainOption →
        (final.entryOrNew "deploy").priority? occurrence.option ≠ some Int32.minValue := by
    decide +kernel
  have hname : (start.applyAll final edits).name = "deploy" := by decide +kernel
  exact ⟨made, sorted, hordered, Option.some.inj horder, (ends _ sorted hname hordered).1 apart⟩

/-- The main option was put last, and comes before an option of the least priority. -/
theorem main_option_runs_before_least :
    let catalog := ({} : Catalog Unit).applyAll
      [.define "deploy" { base := Int32.minValue }, .register "deploy" none Action.idle,
        .register "deploy" (some "n") Action.idle, .putMainLast "deploy"]
    let invocation := ({ name := "deploy" } : Invocation).applyAll catalog
      [.attach none [], .attach (some "n") []]
    (catalog.entry "deploy").toOption.map Entry.mainIsLast = some true ∧
    (invocation.ordered catalog).toOption.map (List.map Occurrence.option) =
      some ["_DEFAULT_", "n"] := by
  decide +kernel

/-- Let the sequence of a command go on below its main option, and let any changes follow that do
not withdraw the command. If its priorities are in sequence, or fixed below that of the main option,
then the options registered by these changes are below the main option, and run after it in every
invocation of the command unless the main option was put last. Other fixed priorities stay as they
are: the options get the base priority all the same. -/
theorem later_options_run_after_main (reached : catalog.Reachable)
    (known : catalog.contains main = true)
    (stays : ∀ change ∈ changes, change ≠ .withdrawCommand main) :
    let start := (catalog.apply (.continueBelowMain main)).2
    let final := start.applyAll changes
    let later := (start.history main changes).names
    (catalog.apply (.continueBelowMain main)).1 = .ok () ∧
    ∃ entry, final.entry main = .ok entry ∧
      (∀ definition, entry.definition entry.mainOption = .ok definition →
        definition.priority = mainPriority) ∧
      (∀ option ∈ later, option ≠ entry.mainOption) ∧
      (entry.policy.isSequential = true ∨ entry.policy.base < mainPriority →
        (∀ option ∈ later, ∀ definition, entry.definition option = .ok definition →
          definition.priority < mainPriority) ∧
        (entry.mainIsLast = false → ∀ (invocation : Invocation) sorted, invocation.name = main →
          invocation.ordered final = .ok sorted →
            sorted.Pairwise fun first second => second.option = entry.mainOption →
              first.option ∉ later)) ∧
      (entry.policy.isSequential = false → ∀ option ∈ later, ∀ definition,
        entry.definition option = .ok definition → definition.priority = entry.policy.base) ∧
      ∀ (start : Invocation) edits, start.IsMade final →
        ∃ sorted, (start.applyAll final edits).ordered final = .ok sorted := by
  intro start final later
  obtain ⟨before, hbefore⟩ := entry_of_contains known
  have happly := apply_continueBelowMain hbefore
  have hstart : start.entry main =
      .ok { before with cursor := mainPriority - 1, lastAssigned := none } := by
    show (catalog.apply (.continueBelowMain main)).2.entry main = _
    rw [happly]
    exact (entry_put ..).trans (if_pos rfl)
  obtain ⟨entry, hentry, hpolicy, others⟩ := exists_entry_historyFrom
    (P := fun older entry => entry.policy = before.policy ∧
      ∀ option ∈ older.names, option ≠ entry.mainOption) []
    (fun _ _ _ _ _ held becomes =>
      ⟨becomes.policy_eq.trans held.1, becomes.ne_mainOption held.2⟩) hstart stays ⟨rfl, nofun⟩
  have obeys := ((reached.apply _).applyAll changes).obeysPolicy main entry hentry
  refine ⟨by rw [happly], entry, hentry, obeys.main, others, fun goesBelow => ?_,
    fun unordered option here definition => obeys.fixed unordered option definition
      (others option here), fun _ edits made => made.exists_ordered edits⟩
  have fixed : before.policy.isSequential = false → before.policy.base < mainPriority := by
    intro unordered
    rw [hpolicy] at goesBelow
    rcases goesBelow with sequential | below
    · cases sequential.symm.trans unordered
    · exact below
  obtain ⟨same, hsame, keeps⟩ := exists_entry_historyFrom
    (P := fun older entry => entry.KeepsBelow older) []
    (fun _ _ _ _ _ keeps becomes => keeps.becomes becomes) hstart stays
    ⟨.restart fixed, nofun, nofun⟩
  cases hentry.symm.trans hsame
  refine ⟨keeps.below, fun notLast invocation sorted hname hordered => ?_⟩
  subst hname
  exact Invocation.pairwise_of_below hentry hordered obeys notLast keeps.below

/-- A sequence goes on below the main option while it is frozen. The second registration of one name
takes it below as well; another option stays where it was. -/
theorem later_options_run_after_main_renewed :
    let catalog := ({} : Catalog Unit).applyAll
      [.define "deploy" { isSequential := true, base := 5 }, .register "deploy" none Action.idle,
        .register "deploy" (some "n") Action.idle, .register "deploy" (some "check") Action.idle,
        .switchFreezing "deploy"]
    let changes : List (Change Unit) :=
      [.registerGroup "deploy" ["f", "fast"] Action.idle, .register "deploy" (some "n") Action.idle]
    let first := (catalog.apply (.continueBelowMain "deploy")).2
    let final := first.applyAll changes
    let start : Invocation := { name := "deploy" }
    let edits : List Invocation.Edit :=
      [.attach (some "n") [], .attach (some "fast") [], .attach (some "check") [], .attach none []]
    (first.history "deploy" changes).names = ["n", "f", "fast"] ∧ start.IsMade final ∧
    ∃ sorted, (start.applyAll final edits).ordered final = .ok sorted ∧
      sorted.map Occurrence.option = ["check", "_DEFAULT_", "n", "fast"] ∧
      sorted.Pairwise fun first second => second.option = "_DEFAULT_" →
        first.option ∉ ["n", "f", "fast"] := by
  intro catalog changes first final start edits
  have named : Invocation.ofName final "deploy" = .ok start := by rfl
  have made : start.IsMade final := .bare named
  have reached : catalog.Reachable := Reachable.empty.applyAll _
  have known : catalog.contains "deploy" = true := by decide +kernel
  have stays : ∀ change ∈ changes, change ≠ .withdrawCommand "deploy" := by simp [changes]
  have later : (first.history "deploy" changes).names = ["n", "f", "fast"] := by decide +kernel
  obtain ⟨-, entry, hentry, -, -, goesBelow, -, ordered⟩ :=
    later_options_run_after_main reached known stays
  have hdeploy : final.entry "deploy" = .ok (final.entryOrNew "deploy") := by rfl
  cases hdeploy.symm.trans hentry
  obtain ⟨sorted, hordered⟩ := ordered start edits made
  have horder : ((start.applyAll final edits).ordered final).toOption.map
      (List.map Occurrence.option) = some ["check", "_DEFAULT_", "n", "fast"] := by
    decide +kernel
  rw [hordered] at horder
  have sequential : (final.entryOrNew "deploy").policy.isSequential = true := by decide +kernel
  have notLast : (final.entryOrNew "deploy").mainIsLast = false := by decide +kernel
  have hname : (start.applyAll final edits).name = "deploy" := by decide +kernel
  have after := (goesBelow (.inl sequential)).2 notLast _ sorted hname hordered
  rw [later] at after
  exact ⟨later, made, sorted, hordered, Option.some.inj horder, after⟩

/-- An option that is registered later at a fixed priority runs before the main option. -/
theorem later_option_runs_before_main :
    let catalog := ({} : Catalog Unit).applyAll
      [.define "deploy" { base := 5 }, .register "deploy" none Action.idle,
        .continueBelowMain "deploy", .register "deploy" (some "n") Action.idle]
    let invocation := ({ name := "deploy" } : Invocation).applyAll catalog
      [.attach none [], .attach (some "n") []]
    (catalog.definition "deploy" "n").toOption.map Definition.priority = some 5 ∧
    (invocation.ordered catalog).toOption.map (List.map Occurrence.option) =
      some ["n", "_DEFAULT_"] := by
  decide +kernel

end Catalog

end CommandEngine
