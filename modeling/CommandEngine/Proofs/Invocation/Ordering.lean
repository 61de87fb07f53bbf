import CommandEngine.Proofs.Invocation.Editing
/-!
# Occurrences run in a stable order

Occurrences are sorted by effective priority and then by rank, and a rank is no position: it counts
the occurrences that were attached at one registered priority, detached ones included. The order is
nevertheless the one that the priorities alone give, with occurrences of equal priority in the order
in which they were attached (`Invocation.ordered_applyAll`).

Two facts make it so. Among occurrences of one registered priority ranks increase, which attaching
and detaching keep (`Invocation.Ranked`). And an effective priority belongs to one registered
priority only, unless the main option runs last and another option was registered at the least
priority there is; then the ranks of two classes meet, and this case has to be excluded.
-/

namespace CommandEngine

section Sorting

variable {α β : Type} {mayPrecede other : α → α → Bool} {values : List α}

private theorem insertBefore_congr {value : α}
    (agree : ∀ next ∈ values, mayPrecede value next = other value next) :
    insertBefore mayPrecede value values = insertBefore other value values := by
  induction values with
  | nil => rfl
  | cons next rest ih =>
      obtain ⟨hnext, hrest⟩ := List.forall_mem_cons.1 agree
      rw [insertBefore, insertBefore, hnext, ih hrest]

/-- Sorting asks about values only in the order in which they stand. -/
theorem stableSort_congr
    (agree : values.Pairwise fun first second => mayPrecede first second = other first second) :
    stableSort mayPrecede values = stableSort other values := by
  induction values with
  | nil => rfl
  | cons value rest ih =>
      obtain ⟨hvalue, hrest⟩ := List.pairwise_cons.1 agree
      rw [stableSort, stableSort, ih hrest]
      exact insertBefore_congr fun next here =>
        hvalue next ((perm_stableSort other rest).mem_iff.1 here)

private theorem insertBefore_map (f : β → α) (value : β) (values : List β) :
    insertBefore mayPrecede (f value) (values.map f) =
      (insertBefore (fun first second => mayPrecede (f first) (f second)) value values).map f := by
  induction values with
  | nil => rfl
  | cons next rest ih =>
      rw [List.map_cons, insertBefore, insertBefore, ih]
      split <;> rfl

theorem stableSort_map (f : β → α) (values : List β) :
    stableSort mayPrecede (values.map f) =
      (stableSort (fun first second => mayPrecede (f first) (f second)) values).map f := by
  induction values with
  | nil => rfl
  | cons value rest ih => rw [List.map_cons, stableSort, ih, insertBefore_map, stableSort]

/-- A value is inserted between those it may not precede and those it may. -/
theorem insertBefore_append {value : α} {before after : List α}
    (hbefore : ∀ next ∈ before, mayPrecede value next = false)
    (hafter : ∀ next ∈ after, mayPrecede value next = true) :
    insertBefore mayPrecede value (before ++ after) = before ++ value :: after := by
  induction before with
  | nil =>
      cases after with
      | nil => rfl
      | cons next rest =>
          rw [List.nil_append, insertBefore, if_pos (hafter next List.mem_cons_self)]
          rfl
  | cons next rest ih =>
      obtain ⟨hnext, hrest⟩ := List.forall_mem_cons.1 hbefore
      rw [List.cons_append, insertBefore, hnext, ih hrest]
      rfl

variable (transitive : ∀ a b c, mayPrecede a b → mayPrecede b c → mayPrecede a c)
  (total : ∀ a b, mayPrecede a b || mayPrecede b a)

include transitive total

/-- Inserting sorts as merging does. -/
theorem stableSort_eq_mergeSort (values : List α) :
    stableSort mayPrecede values = values.mergeSort mayPrecede := by
  induction values with
  | nil => rw [stableSort, List.mergeSort_nil]
  | cons value rest ih =>
      obtain ⟨before, after, hsorted, hrest, hbefore⟩ :=
        List.mergeSort_cons transitive total value rest
      have inOrder := List.pairwise_mergeSort transitive total (value :: rest)
      rw [hsorted] at inOrder
      have hafter := (List.pairwise_cons.1 (List.pairwise_append.1 inOrder).2.1).1
      rw [stableSort, ih, hrest, hsorted]
      exact insertBefore_append (by simpa using hbefore) hafter

/-- Values that may precede each other keep their order. -/
theorem filter_mergeSort {p : α → Bool} (equal : ∀ a b, p a → p b → mayPrecede a b)
    (values : List α) : (values.mergeSort mayPrecede).filter p = values.filter p := by
  have inOrder : (values.filter p).Pairwise (mayPrecede · ·) :=
    List.pairwise_of_forall_mem_list fun a ha b hb =>
      equal a b (List.mem_filter.1 ha).2 (List.mem_filter.1 hb).2
  have kept := (List.sublist_mergeSort transitive total inOrder List.filter_sublist).filter p
  rw [List.filter_filter] at kept
  simp only [Bool.and_self] at kept
  have hlength := ((List.mergeSort_perm values mayPrecede).filter p).length_eq
  exact (kept.eq_of_length hlength.symm).symm

end Sorting

/-! ## Ranks -/

/-- The priority under which an option is registered. -/
def Entry.priority? {ω : Type} (entry : Entry ω) (option : String) : Option Int32 :=
  (entry.options.get? option).map Definition.priority

namespace Invocation

variable {ω : Type} {catalog : Catalog ω} {entry : Entry ω} {invocation changed start : Invocation}
  {edit : Edit}

theorem priority?_of_definition {option : String} {definition : Definition ω}
    (hdefinition : entry.definition option = .ok definition) :
    entry.priority? option = some definition.priority := by
  rw [Entry.definition] at hdefinition
  rw [Entry.priority?]
  split at hdefinition
  case h_1 found hfound =>
    cases hdefinition
    rw [hfound]
    rfl
  case h_2 => cases hdefinition

/-- Ranks count the occurrences of each registered priority, and so they increase within it. -/
structure Ranked (entry : Entry ω) (invocation : Invocation) : Prop where
  counted : ∀ occurrence ∈ invocation.occurrences, ∀ priority,
    entry.priority? occurrence.option = some priority →
      occurrence.rank ≤ invocation.countAt priority
  increasing : invocation.occurrences.Pairwise fun first second =>
    entry.priority? first.option = entry.priority? second.option → first.rank < second.rank

/-- Whether an edit leaves the names that are there: it attaches, detaches or adds arguments. -/
def Edit.keepsNames : Edit → Bool
  | .attach _ _ => true
  | .detach _ => true
  | .addArguments _ _ => true
  | .rename _ => false
  | .renameOption _ _ => false
  | .renameAt _ _ => false

private theorem countAt_push (invocation : Invocation) (priority other : Int32) (option : String)
    (arguments : List String) :
    (invocation.push priority option arguments).countAt other =
      if priority = other then invocation.countAt priority + 1 else invocation.countAt other := by
  simp only [countAt, push, Table.get?_insert]
  split <;> rfl

/-- A change that leaves some aspect of an occurrence leaves it of all of them. -/
theorem map_changeFirst {α : Type} {f : Occurrence → α} {change : Occurrence → Occurrence}
    (same : ∀ occurrence, f (change occurrence) = f occurrence) (option : String)
    (occurrences : List Occurrence) :
    (changeFirst option change occurrences).map f = occurrences.map f := by
  induction occurrences with
  | nil => rfl
  | cons occurrence rest ih =>
      rw [changeFirst]
      split
      · rw [List.map_cons, List.map_cons, same]
      · rw [List.map_cons, List.map_cons, ih]

namespace Ranked

theorem bare (entry : Entry ω) (name : String) : Ranked entry { name } where
  counted := nofun
  increasing := .nil

/-- A new occurrence has a rank above all others of its priority. -/
theorem push (ranked : invocation.Ranked entry) {option : String} {priority : Int32}
    (hpriority : entry.priority? option = some priority) (arguments : List String) :
    (invocation.push priority option arguments).Ranked entry where
  counted occurrence here other hother := by
    rw [countAt_push]
    rcases List.mem_append.1 here with old | new
    · have below := ranked.counted occurrence old other hother
      split
      case isTrue same =>
        rw [same]
        omega
      case isFalse => exact below
    · rw [List.mem_singleton.1 new] at hother ⊢
      rw [hpriority, Option.some.injEq] at hother
      simp only [if_pos hother, Nat.le_refl]
  increasing := by
    refine List.pairwise_append.2 ⟨ranked.increasing, List.pairwise_singleton _ _, ?_⟩
    intro first old second new same
    rw [List.mem_singleton.1 new] at same ⊢
    have below := ranked.counted first old priority (same.trans hpriority)
    exact Nat.lt_succ_of_le below

theorem detach (ranked : invocation.Ranked entry) (option : String) :
    (invocation.detach option).Ranked entry where
  counted occurrence here := ranked.counted occurrence (List.mem_of_mem_eraseP here)
  increasing := ranked.increasing.sublist List.eraseP_sublist

theorem addArguments (ranked : invocation.Ranked entry) (option : String)
    (arguments : List String) : (invocation.addArguments option arguments).Ranked entry where
  counted occurrence here priority hpriority := by
    obtain ⟨old, hold, rfl | rfl⟩ := mem_of_mem_changeFirst here
    · exact ranked.counted occurrence hold priority hpriority
    · exact ranked.counted old hold priority hpriority
  increasing := by
    let aspect (occurrence : Occurrence) := (occurrence.option, occurrence.rank)
    let Below (first second : String × Nat) : Prop :=
      entry.priority? first.1 = entry.priority? second.1 → first.2 < second.2
    have inOrder : (invocation.occurrences.map aspect).Pairwise Below :=
      List.pairwise_map.2 ranked.increasing
    have same (occurrence : Occurrence) :
        aspect (occurrence.extend arguments) = aspect occurrence := rfl
    rw [← map_changeFirst same option] at inOrder
    exact List.pairwise_map.1 inOrder

/-- Ranks go on increasing through edits that leave the names. -/
theorem becomes (ranked : invocation.Ranked entry)
    (hentry : catalog.entry invocation.name = .ok entry)
    (becomes : Becomes catalog invocation edit changed) (keeps : edit.keepsNames = true) :
    changed.name = invocation.name ∧ changed.Ranked entry := by
  cases becomes with
  | attach hother hdefinition =>
      cases hentry.symm.trans hother
      exact ⟨rfl, ranked.push (priority?_of_definition hdefinition) _⟩
  | detach option => exact ⟨rfl, ranked.detach option⟩
  | addArguments option arguments => exact ⟨rfl, ranked.addArguments option arguments⟩
  | rename => cases keeps
  | renameOption => cases keeps
  | renameMissing => cases keeps
  | renameAt => cases keeps
  | renameNowhere => cases keeps

end Ranked

/-- However an invocation is made, ranks increase through the edits that leave the names. -/
theorem IsMade.exists_ranked (made : start.IsMade catalog) {edits : List Edit}
    (keeps : ∀ edit ∈ edits, edit.keepsNames = true) :
    ∃ entry, catalog.entry (start.applyAll catalog edits).name = .ok entry ∧
      (start.applyAll catalog edits).Ranked entry := by
  obtain ⟨name, entry, selections, hentry, hrun⟩ := made.exists_applyAll
  rw [hrun]
  refine ⟨entry, applyAll_induction
    (P := fun invocation => catalog.entry invocation.name = .ok entry ∧ invocation.Ranked entry)
    (fun invocation edit changed here kept becomes => ?_) ⟨hentry, .bare entry name⟩⟩
  have hkeeps : edit.keepsNames = true := by
    rcases List.mem_append.1 here with selected | later
    · obtain ⟨selection, -, rfl⟩ := List.mem_map.1 selected
      rfl
    · exact keeps edit later
  obtain ⟨hname, ranked⟩ := kept.2.becomes kept.1 becomes hkeeps
  exact ⟨hname ▸ kept.1, ranked⟩

private theorem exists_of_map_eq_ok {ε α β : Type} {result : Except ε α} {change : α → β}
    {value : β} (hmap : result.map change = .ok value) :
    ∃ old, result = .ok old ∧ change old = value := by
  cases result with
  | error cause => cases hmap
  | ok old => exact ⟨old, rfl, Except.ok.inj hmap⟩

/-- An option runs by its registered priority, and the main option by the least one if it is to run
last. -/
theorem runningPriority_cases {option : String} {running : Int32}
    (hrunning : entry.runningPriority option = .ok running) :
    (entry.mainIsLast = true ∧ option = entry.mainOption ∧ running = Int32.minValue) ∨
    ¬(entry.mainIsLast = true ∧ option = entry.mainOption) ∧
      entry.priority? option = some running := by
  obtain ⟨definition, hdefinition, hvalue⟩ := exists_of_map_eq_ok hrunning
  by_cases last : entry.mainIsLast = true ∧ option = entry.mainOption
  · rw [if_pos (by simpa using last)] at hvalue
    exact .inl ⟨last.1, last.2, hvalue.symm⟩
  · rw [if_neg (by simpa using last)] at hvalue
    rw [← hvalue]
    exact .inr ⟨last, priority?_of_definition hdefinition⟩

/-- All but a main option that is to run last run by their registered priorities. -/
theorem priority?_of_running {option : String} {running : Int32}
    (ordinary : ¬(entry.mainIsLast = true ∧ option = entry.mainOption))
    (hrunning : entry.runningPriority option = .ok running) :
    entry.priority? option = some running := by
  rcases runningPriority_cases hrunning with ⟨last, main, -⟩ | ⟨-, hpriority⟩
  · exact absurd ⟨last, main⟩ ordinary
  · exact hpriority

/-- If the main option runs last, no other option that occurs has the least priority. -/
def IsApart (entry : Entry ω) (invocation : Invocation) : Prop :=
  entry.mainIsLast = true → ∀ occurrence ∈ invocation.occurrences,
    occurrence.option ≠ entry.mainOption → entry.priority? occurrence.option ≠ some Int32.minValue

/-- Then options that run by one priority are registered under one. -/
theorem IsApart.priority?_eq (apart : invocation.IsApart entry) {first second : Occurrence}
    {running : Int32} (hfirst : first ∈ invocation.occurrences)
    (hsecond : second ∈ invocation.occurrences)
    (hrunning : entry.runningPriority first.option = .ok running)
    (hrunning' : entry.runningPriority second.option = .ok running) :
    entry.priority? first.option = entry.priority? second.option := by
  rcases runningPriority_cases hrunning with ⟨last, main, least⟩ | ⟨other, hpriority⟩
  · rcases runningPriority_cases hrunning' with ⟨-, main', -⟩ | ⟨other, hpriority⟩
    · rw [main, main']
    · have beside : second.option ≠ entry.mainOption := fun main' => other ⟨last, main'⟩
      exact absurd (least ▸ hpriority) (apart last second hsecond beside)
  · rcases runningPriority_cases hrunning' with ⟨last, main', least⟩ | ⟨-, hpriority'⟩
    · have beside : first.option ≠ entry.mainOption := fun main => other ⟨last, main⟩
      exact absurd (least ▸ hpriority) (apart last first hfirst beside)
    · rw [hpriority, hpriority']

/-- Effective priorities can be looked up for what the catalog supports. -/
theorem IsSupported.exists_running (supported : invocation.IsSupported catalog)
    (hentry : catalog.entry invocation.name = .ok entry) :
    ∃ running : String → Int32, ∀ occurrence ∈ invocation.occurrences,
      entry.runningPriority occurrence.option = .ok (running occurrence.option) := by
  obtain ⟨other, hother, registered⟩ := supported
  cases hentry.symm.trans hother
  refine ⟨fun option => (entry.runningPriority option).toOption.getD 0, fun occurrence here => ?_⟩
  obtain ⟨definition, hdefinition⟩ := exists_definition_iff.2 (registered occurrence here)
  dsimp only
  rw [Entry.runningPriority, hdefinition]
  rfl

private theorem withPriorities_eq {running : String → Int32} {occurrences : List Occurrence}
    (hrunning : ∀ occurrence ∈ occurrences,
      entry.runningPriority occurrence.option = .ok (running occurrence.option)) :
    withPriorities entry occurrences =
      .ok (occurrences.map fun occurrence => (running occurrence.option, occurrence)) := by
  induction occurrences with
  | nil => rfl
  | cons occurrence rest ih =>
      obtain ⟨hfirst, hrest⟩ := List.forall_mem_cons.1 hrunning
      rw [withPriorities, hfirst, ih hrest]
      rfl

/-- Whether one occurrence may come before another by their effective priorities alone. -/
def byPriority (running : String → Int32) (first second : Occurrence) : Bool :=
  running second.option ≤ running first.option

theorem byPriority_trans (running : String → Int32) (first second third : Occurrence)
    (one : byPriority running first second) (two : byPriority running second third) :
    byPriority running first third := by
  simp only [byPriority, decide_eq_true_eq] at one two ⊢
  exact Int32.le_trans two one

theorem byPriority_total (running : String → Int32) (first second : Occurrence) :
    byPriority running first second || byPriority running second first := by
  simp only [byPriority, Bool.or_eq_true, decide_eq_true_eq]
  exact Int32.le_total _ _

/-- Sorting the occurrences themselves comes to the same as sorting them with their priorities. -/
theorem ordered_eq_stableSort (hentry : catalog.entry invocation.name = .ok entry)
    {running : String → Int32} (hrunning : ∀ occurrence ∈ invocation.occurrences,
      entry.runningPriority occurrence.option = .ok (running occurrence.option)) :
    invocation.ordered catalog = .ok (stableSort (fun first second =>
      mayPrecede (running first.option, first) (running second.option, second))
        invocation.occurrences) := by
  have sorted : (stableSort mayPrecede (invocation.occurrences.map fun occurrence =>
      (running occurrence.option, occurrence))).map Prod.snd =
        stableSort (fun first second =>
          mayPrecede (running first.option, first) (running second.option, second))
            invocation.occurrences := by
    rw [stableSort_map, List.map_map]
    exact List.map_id _
  rw [ordered, hentry]
  dsimp only
  rw [withPriorities_eq hrunning]
  exact congrArg Except.ok sorted

/-- As long as ranks increase within a class of equal effective priority, they add nothing to the
order of attachment. -/
theorem ordered_eq_mergeSort (hentry : catalog.entry invocation.name = .ok entry)
    (ranked : invocation.Ranked entry) (apart : invocation.IsApart entry)
    {running : String → Int32} (hrunning : ∀ occurrence ∈ invocation.occurrences,
      entry.runningPriority occurrence.option = .ok (running occurrence.option)) :
    invocation.ordered catalog =
      .ok (invocation.occurrences.mergeSort (byPriority running)) := by
  have agree : invocation.occurrences.Pairwise fun first second =>
      mayPrecede (running first.option, first) (running second.option, second) =
        byPriority running first second := by
    refine ranked.increasing.imp_of_mem fun {first second} hfirst hsecond below => ?_
    by_cases same : running first.option = running second.option
    · have hsecond' := hrunning second hsecond
      rw [← same] at hsecond'
      have lower := below (apart.priority?_eq hfirst hsecond (hrunning first hfirst) hsecond')
      simp [mayPrecede, byPriority, same, Nat.le_of_lt lower]
    · simp [mayPrecede, byPriority, same, Int32.lt_iff_le_and_ne, Ne.symm same]
  rw [ordered_eq_stableSort hentry hrunning, stableSort_congr agree,
    stableSort_eq_mergeSort (byPriority_trans running) (byPriority_total running)]

/-- Let an invocation be made and then edited by attaching, detaching and adding arguments, and let
no other option that occurs have the least priority if the main option is to run last. Then its
occurrences run in the order of a stable sort by descending effective priority: all of them run, and
those of equal effective priority in the order in which they were attached. -/
theorem ordered_applyAll (made : start.IsMade catalog) {edits : List Edit}
    (keeps : ∀ edit ∈ edits, edit.keepsNames = true) :
    let invocation := start.applyAll catalog edits
    ∃ entry, catalog.entry invocation.name = .ok entry ∧
      (invocation.IsApart entry →
        ∃ running : String → Int32,
          (∀ occurrence ∈ invocation.occurrences,
            entry.runningPriority occurrence.option = .ok (running occurrence.option)) ∧
          ∃ sorted, invocation.ordered catalog = .ok sorted ∧
            sorted = invocation.occurrences.mergeSort
              (fun first second => running second.option ≤ running first.option) ∧
            sorted.Perm invocation.occurrences ∧
            ∀ priority, sorted.filter (running ·.option = priority) =
              invocation.occurrences.filter (running ·.option = priority)) := by
  intro invocation
  obtain ⟨entry, hentry, ranked⟩ := made.exists_ranked keeps
  refine ⟨entry, hentry, fun apart => ?_⟩
  obtain ⟨running, hrunning⟩ := (made.isSupported_applyAll edits).exists_running hentry
  refine ⟨running, hrunning, _, ordered_eq_mergeSort hentry ranked apart hrunning, rfl,
    List.mergeSort_perm _ _, fun priority => ?_⟩
  refine filter_mergeSort (byPriority_trans running) (byPriority_total running) ?_ _
  intro first second hfirst hsecond
  simp only [decide_eq_true_eq] at hfirst hsecond
  simp [byPriority, hfirst, hsecond]

/-- Of three occurrences of one priority the first is detached and a fourth attached, while the main
option runs last although its registered priority is the highest. -/
theorem ordered_applyAll_detached :
    let catalog := ({} : Catalog Unit).applyAll
      [.define "deploy" { isSequential := true, base := -1 },
        .registerGroup "deploy" ["n", "notify"] Action.idle,
        .register "deploy" (some "check") Action.idle, .register "deploy" none Action.idle,
        .putMainLast "deploy"]
    let edits : List Edit := [.attach none [], .attach (some "notify") ["x"], .detach "n",
      .attach (some "n") ["y"]]
    ∃ start : Invocation, start.IsMade catalog ∧ (∀ edit ∈ edits, edit.keepsNames = true) ∧
      (start.applyAll catalog edits).occurrences.map Occurrence.option =
        ["check", "n", "_DEFAULT_", "notify", "n"] ∧
      ∃ sorted, (start.applyAll catalog edits).ordered catalog = .ok sorted ∧
        sorted.Perm (start.applyAll catalog edits).occurrences ∧
        sorted.map Occurrence.option = ["n", "notify", "n", "check", "_DEFAULT_"] := by
  intro catalog edits
  let selections : List Selection := [⟨"n", []⟩, ⟨"check", []⟩, ⟨"n", ["z"]⟩]
  let start : Invocation :=
    { name := "deploy", occurrences := [⟨"n", [], 1⟩, ⟨"check", [], 1⟩, ⟨"n", ["z"], 2⟩],
      counts := ⟨[(-1, 2), (-2, 1)]⟩ }
  have hmade : ofSelections catalog "deploy" selections = .ok start := by rfl
  have made : start.IsMade catalog := .selected hmade
  have keeps : ∀ edit ∈ edits, edit.keepsNames = true := by decide
  have hdeploy : catalog.entry (start.applyAll catalog edits).name =
      .ok (catalog.entryOrNew "deploy") := by rfl
  have apart : (start.applyAll catalog edits).IsApart (catalog.entryOrNew "deploy") := by
    unfold IsApart
    decide +kernel
  obtain ⟨entry, hentry, inOrder⟩ := ordered_applyAll made keeps
  cases hdeploy.symm.trans hentry
  obtain ⟨running, -, sorted, hordered, -, perm, -⟩ := inOrder apart
  refine ⟨start, made, keeps, by decide +kernel, sorted, hordered, perm, ?_⟩
  have horder : ((start.applyAll catalog edits).ordered catalog).toOption.map
      (List.map Occurrence.option) = some ["n", "notify", "n", "check", "_DEFAULT_"] := by
    decide +kernel
  rw [hordered] at horder
  exact Option.some.inj horder

end Invocation

end CommandEngine
