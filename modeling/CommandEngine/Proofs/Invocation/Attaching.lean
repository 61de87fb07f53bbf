import CommandEngine.Proofs.Catalog.Changing
import CommandEngine.Proofs.Invocation.Ordering
/-!
# Options that run as they were attached

A command whose priorities are fixed at that of the main option makes no difference between its
options, so they are meant to run in the order in which they were attached. They run in the order of
their ranks, and ranks count the occurrences that were attached at one priority. As long as
occurrences are attached under such commands only, all of them are counted together, and the two
orders agree, whatever else is done to the invocation meanwhile
(`Invocation.attachment_order_kept`).

An invocation that got its occurrences under another command keeps their ranks when it is renamed,
and these may have been counted apart. Then a later occurrence can have a lower rank than an earlier
one, and it runs first.
-/

namespace CommandEngine

variable {ω : Type}

/-- Whether all options of a command get the priority of the main option. -/
def Policy.isFlat (policy : Policy) : Bool := !policy.isSequential && policy.base == mainPriority

/-- Whether a command, if there is one of the name, makes no difference between its options. -/
def Catalog.isFlat (catalog : Catalog ω) (main : String) : Bool :=
  match catalog.entry main with
  | .error _ => true
  | .ok entry => entry.policy.isFlat

theorem Catalog.isFlat_of_entry {catalog : Catalog ω} {main : String} {entry : Entry ω}
    (flat : catalog.isFlat main = true) (hentry : catalog.entry main = .ok entry) :
    entry.policy.isFlat = true := by
  rwa [isFlat, hentry] at flat

theorem Entry.ObeysPolicy.priority?_of_isFlat {entry : Entry ω} (obeys : entry.ObeysPolicy)
    (flat : entry.policy.isFlat = true) {option : String} {priority : Int32}
    (hpriority : entry.priority? option = some priority) : priority = mainPriority := by
  rw [Policy.isFlat, Bool.and_eq_true, Bool.not_eq_true', beq_iff_eq] at flat
  obtain ⟨fixed, hbase⟩ := flat
  obtain ⟨definition, hdefinition, rfl⟩ := Option.map_eq_some_iff.1 hpriority
  have found := definition_eq_ok_iff.2 hdefinition
  by_cases main : option = entry.mainOption
  · subst main
    exact obeys.main definition found
  · exact (obeys.fixed fixed option definition main found).trans hbase

namespace Invocation

variable {catalog : Catalog ω} {entry : Entry ω} {invocation changed start : Invocation}
  {edit : Edit} {edits : List Edit}

def Edit.attaches : Edit → Bool
  | attach .. => true
  | _ => false

/-- Whether edits attach occurrences only while the invocation is under a command that makes no
difference between its options. -/
def attachesFlat (catalog : Catalog ω) (start : Invocation) : List Edit → Bool
  | [] => true
  | edit :: rest =>
    (!edit.attaches || catalog.isFlat start.name) &&
      (start.apply catalog edit).2.attachesFlat catalog rest

/-- The ranks of the occurrences, in the order in which these were attached. -/
def ranks (invocation : Invocation) : List Nat := invocation.occurrences.map Occurrence.rank

/-- All occurrences were counted at the priority of the main option. -/
structure CountedTogether (invocation : Invocation) : Prop where
  counted : ∀ rank ∈ invocation.ranks, rank ≤ invocation.countAt mainPriority
  increasing : invocation.ranks.Pairwise (· < ·)

/-- Replacing a value by one of the same aspect leaves the aspects as they are. -/
theorem map_set_of_eq {α β : Type} {f : α → β} {values : List α} {index : Nat} {old new : α}
    (hindex : values[index]? = some old) (same : f new = f old) :
    (values.set index new).map f = values.map f := by
  obtain ⟨inside, rfl⟩ := List.getElem?_eq_some_iff.1 hindex
  have kept : (values.map f).set index (f values[index]) = values.map f := by
    refine List.ext_getElem (by simp) fun position _ _ => ?_
    rw [List.getElem_set]
    split
    case isTrue same =>
      subst same
      rw [List.getElem_map]
    case isFalse => rfl
  rw [List.map_set, same, kept]

/-- An edit attaches an occurrence at the priority of its option, or brings in no rank and changes
no count. -/
theorem Becomes.attaches_or_ranks_sublist (becomes : Becomes catalog invocation edit changed) :
    (edit.attaches = true ∧ ∃ entry option definition arguments,
      catalog.entry invocation.name = .ok entry ∧ entry.definition option = .ok definition ∧
        changed = invocation.push definition.priority option arguments) ∨
    changed.ranks.Sublist invocation.ranks ∧ changed.counts = invocation.counts := by
  have sublist_of_eq {first second : List Nat} (same : first = second) : first.Sublist second :=
    same ▸ .refl _
  cases becomes with
  | attach hentry hdefinition => exact .inl ⟨rfl, _, _, _, _, hentry, hdefinition, rfl⟩
  | detach option => exact .inr ⟨List.eraseP_sublist.map _, rfl⟩
  | addArguments option arguments =>
      have same (occurrence : Occurrence) :
        (occurrence.extend arguments).rank = occurrence.rank := rfl
      exact .inr ⟨sublist_of_eq (map_changeFirst same option invocation.occurrences), rfl⟩
  | rename => exact .inr ⟨.refl _, rfl⟩
  | @renameOption option name other =>
      have same (occurrence : Occurrence) :
        { occurrence with option := other.resolve name }.rank = occurrence.rank := rfl
      exact .inr ⟨sublist_of_eq (map_changeFirst same option invocation.occurrences), rfl⟩
  | renameMissing => exact .inr ⟨.refl _, rfl⟩
  | renameAt _ hindex => exact .inr ⟨sublist_of_eq (map_set_of_eq hindex rfl), rfl⟩
  | renameNowhere => exact .inr ⟨.refl _, rfl⟩

namespace CountedTogether

theorem of_occurrences_eq_nil (empty : invocation.occurrences = []) :
    invocation.CountedTogether := by
  have none : invocation.ranks = [] := by rw [ranks, empty, List.map_nil]
  constructor
  · rw [none]
    exact nofun
  · rw [none]
    exact .nil

theorem push (counted : invocation.CountedTogether) (option : String) (arguments : List String) :
    (invocation.push mainPriority option arguments).CountedTogether := by
  have hranks : (invocation.push mainPriority option arguments).ranks =
      invocation.ranks ++ [invocation.countAt mainPriority + 1] :=
    List.map_append
  constructor
  · rw [hranks, countAt_push_self]
    intro rank here
    rcases List.mem_append.1 here with old | new
    · exact Nat.le_succ_of_le (counted.counted rank old)
    · exact Nat.le_of_eq (List.mem_singleton.1 new)
  · rw [hranks]
    refine List.pairwise_append.2 ⟨counted.increasing, List.pairwise_singleton _ _, ?_⟩
    intro first old second new
    rw [List.mem_singleton.1 new]
    exact Nat.lt_succ_of_le (counted.counted first old)

/-- Ranks that increase at each priority increase altogether if there is one priority only. -/
theorem of_ranked (ranked : invocation.Ranked entry)
    (one : ∀ occurrence ∈ invocation.occurrences,
      entry.priority? occurrence.option = some mainPriority) : invocation.CountedTogether := by
  constructor
  · intro rank here
    obtain ⟨occurrence, hoccurrence, rfl⟩ := List.mem_map.1 here
    exact ranked.counted occurrence hoccurrence mainPriority (one occurrence hoccurrence)
  · refine List.pairwise_map.2 (ranked.increasing.imp_of_mem fun hfirst hsecond below => ?_)
    exact below ((one _ hfirst).trans (one _ hsecond).symm)

/-- Occurrences go on being counted together if those that are attached are attached under commands
that make no difference. -/
theorem becomes (reached : catalog.Reachable) (counted : invocation.CountedTogether)
    (flat : edit.attaches = true → catalog.isFlat invocation.name = true)
    (becomes : Becomes catalog invocation edit changed) : changed.CountedTogether := by
  rcases becomes.attaches_or_ranks_sublist with
    ⟨attaches, entry, option, definition, arguments, hentry, hdefinition, rfl⟩ | ⟨sublist, hcounts⟩
  · have hpriority := (reached.obeysPolicy _ entry hentry).priority?_of_isFlat
      (Catalog.isFlat_of_entry (flat attaches) hentry) (priority?_of_definition hdefinition)
    rw [hpriority]
    exact counted.push option arguments
  · refine ⟨fun rank here => ?_, counted.increasing.sublist sublist⟩
    have bounded := counted.counted rank (sublist.subset here)
    rwa [countAt, hcounts]

theorem applyAll (reached : catalog.Reachable) (counted : start.CountedTogether)
    (flat : start.attachesFlat catalog edits = true) :
    (start.applyAll catalog edits).CountedTogether := by
  induction edits generalizing start with
  | nil => exact counted
  | cons edit rest ih =>
      rw [attachesFlat, Bool.and_eq_true] at flat
      obtain ⟨hedit, hrest⟩ := flat
      have next : (start.apply catalog edit).2.CountedTogether := by
        rcases turnsOut catalog start edit with ⟨cause, hresult⟩ | ⟨changed, hresult, becomes⟩
        · rw [hresult]
          exact counted
        · rw [hresult]
          refine counted.becomes reached (fun attaches => ?_) becomes
          simpa [attaches] using hedit
      rw [applyAll_cons]
      exact ih next hrest

end CountedTogether

/-! ## The order in which occurrences run -/

/-- What is supported under such a command is all of one priority. -/
theorem IsSupported.priority?_eq (supported : invocation.IsSupported catalog)
    (hentry : catalog.entry invocation.name = .ok entry) (obeys : entry.ObeysPolicy)
    (flat : entry.policy.isFlat = true) : ∀ occurrence ∈ invocation.occurrences,
      entry.priority? occurrence.option = some mainPriority := by
  obtain ⟨other, hother, registered⟩ := supported
  cases hentry.symm.trans hother
  intro occurrence here
  obtain ⟨definition, hdefinition⟩ := exists_definition_iff.2 (registered occurrence here)
  have hpriority := priority?_of_definition hdefinition
  rw [hpriority, obeys.priority?_of_isFlat flat hpriority]

/-- Whether one occurrence may come before another by their ranks alone. -/
def byRank (first second : Occurrence) : Bool := first.rank ≤ second.rank

theorem byRank_trans (first second third : Occurrence) (one : byRank first second)
    (two : byRank second third) : byRank first third := by
  simp only [byRank, decide_eq_true_eq] at one two ⊢
  exact Nat.le_trans one two

theorem byRank_total (first second : Occurrence) : byRank first second || byRank second first := by
  simp only [byRank, Bool.or_eq_true, decide_eq_true_eq]
  exact Nat.le_total _ _

/-- Sorting by rank changes nothing exactly if ranks do not decrease. -/
theorem mergeSort_byRank_eq_iff {occurrences : List Occurrence} :
    occurrences.mergeSort byRank = occurrences ↔
      occurrences.Pairwise fun first second => first.rank ≤ second.rank := by
  have inOrder := List.pairwise_mergeSort byRank_trans byRank_total occurrences
  constructor
  · intro kept
    rw [kept] at inOrder
    exact inOrder.imp of_decide_eq_true
  · intro increasing
    exact List.mergeSort_of_pairwise (increasing.imp decide_eq_true)

/-- Among options of one priority ranks alone decide. -/
theorem ordered_of_isFlat (supported : invocation.IsSupported catalog)
    (hentry : catalog.entry invocation.name = .ok entry) (obeys : entry.ObeysPolicy)
    (flat : entry.policy.isFlat = true) (notLast : entry.mainIsLast = false) :
    invocation.ordered catalog = .ok (invocation.occurrences.mergeSort byRank) := by
  obtain ⟨running, hrunning⟩ := supported.exists_running hentry
  have same : ∀ occurrence ∈ invocation.occurrences, running occurrence.option = mainPriority := by
    intro occurrence here
    have ordinary : ¬(entry.mainIsLast = true ∧ occurrence.option = entry.mainOption) := by
      simp [notLast]
    exact obeys.priority?_of_isFlat flat (priority?_of_running ordinary (hrunning occurrence here))
  have agree : invocation.occurrences.Pairwise fun first second =>
      mayPrecede (running first.option, first) (running second.option, second) =
        byRank first second :=
    List.pairwise_of_forall_mem_list fun first hfirst second hsecond => by
      simp [mayPrecede, byRank, same first hfirst, same second hsecond]
  rw [ordered_eq_stableSort hentry hrunning, stableSort_congr agree,
    stableSort_eq_mergeSort byRank_trans byRank_total]

/-- An invocation is counted together as it is made if it has no occurrences or is of a command that
makes no difference. -/
theorem IsMade.countedTogether (reached : catalog.Reachable) (made : start.IsMade catalog)
    (flat : start.occurrences = [] ∨ catalog.isFlat start.name = true) :
    start.CountedTogether := by
  rcases flat with empty | flat
  · exact .of_occurrences_eq_nil empty
  · have unedited : ∀ edit ∈ ([] : List Edit), edit.keepsNames = true := nofun
    obtain ⟨entry, hentry, ranked⟩ := made.exists_ranked unedited
    exact .of_ranked ranked ((made.isSupported_applyAll []).priority?_eq hentry
      (reached.obeysPolicy _ entry hentry) (Catalog.isFlat_of_entry flat hentry))

/-- Let an invocation be made and edited, and let it end under a command that makes no difference
between its options and whose main option is not put last. Then its occurrences run in the order of
their ranks, and this is the order of attachment exactly if ranks do not decrease in it. It is so
if the occurrences were selected and attached under such commands, whichever they were and whatever
else was done meanwhile. -/
theorem attachment_order_kept (reached : catalog.Reachable) (made : start.IsMade catalog)
    (edits : List Edit) :
    let invocation := start.applyAll catalog edits
    ∃ entry, catalog.entry invocation.name = .ok entry ∧
      (entry.policy.isFlat = true → entry.mainIsLast = false →
        ∃ sorted, invocation.ordered catalog = .ok sorted ∧
          sorted = invocation.occurrences.mergeSort
            (fun first second => first.rank ≤ second.rank) ∧
          (sorted = invocation.occurrences ↔
            invocation.occurrences.Pairwise fun first second => first.rank ≤ second.rank) ∧
          (start.occurrences = [] ∨ catalog.isFlat start.name = true →
            start.attachesFlat catalog edits = true → sorted = invocation.occurrences)) := by
  intro invocation
  have supported := made.isSupported_applyAll edits
  obtain ⟨entry, hentry, -⟩ := id supported
  refine ⟨entry, hentry, fun flat notLast => ?_⟩
  refine ⟨_, ordered_of_isFlat supported hentry (reached.obeysPolicy _ entry hentry) flat notLast,
    rfl, mergeSort_byRank_eq_iff, fun atStart later => mergeSort_byRank_eq_iff.2 ?_⟩
  have counted := (made.countedTogether reached atStart).applyAll reached later
  exact (List.pairwise_map.1 counted.increasing).imp Nat.le_of_lt

/-- An invocation that is made of selections for one command, passes through a sequential one and
ends under a third. Of its occurrences one is detached and one renamed; an edit is refused. -/
theorem attachment_order_kept_renamed :
    let catalog := ({} : Catalog Unit).applyAll
      [.registerGroup "list" ["all", "long"] Action.idle, .register "list" none Action.idle,
        .putMainLast "list", .define "show" { isSequential := true, base := 7 },
        .register "show" (some "all") Action.idle, .register "show" (some "long") Action.idle,
        .register "print" (some "all") Action.idle, .register "print" (some "long") Action.idle,
        .continueBelowMain "print"]
    let edits : List Edit :=
      [.attach (some "size") [], .attach (some "long") ["x"], .rename "show", .detach "all",
        .renameAt 0 (some "all"), .rename "print", .attach (some "all") []]
    ∃ start : Invocation, start.IsMade catalog ∧ catalog.Reachable ∧
      ((start.applyAll catalog edits).ordered catalog).toOption =
        some (start.applyAll catalog edits).occurrences ∧
      (start.applyAll catalog edits).occurrences.map Occurrence.option = ["all", "long", "all"] ∧
      (start.applyAll catalog edits).ranks = [2, 3, 4] := by
  intro catalog edits
  let selections : List Selection := [⟨"all", []⟩, ⟨"long", ["y"]⟩]
  let start : Invocation :=
    { name := "list", occurrences := [⟨"all", [], 1⟩, ⟨"long", ["y"], 2⟩],
      counts := ⟨[(0, 2)]⟩ }
  have hmade : ofSelections catalog "list" selections = .ok start := by rfl
  have made : start.IsMade catalog := .selected hmade
  have reached : catalog.Reachable := Catalog.Reachable.empty.applyAll _
  have hname : (start.applyAll catalog edits).name = "print" := by decide +kernel
  have hprint : catalog.entry "print" = .ok (catalog.entryOrNew "print") := by rfl
  obtain ⟨entry, hentry, inOrder⟩ := attachment_order_kept reached made edits
  rw [hname] at hentry
  cases hprint.symm.trans hentry
  obtain ⟨sorted, hordered, -, -, same⟩ := inOrder (by decide +kernel) (by decide +kernel)
  rw [same (.inr (by decide +kernel)) (by decide +kernel)] at hordered
  exact ⟨start, made, reached, by rw [hordered]; rfl, by decide +kernel, by decide +kernel⟩

/-- Three occurrences attached under a sequential command, at two priorities. Renamed to a command
that makes no difference between them, the last runs before the second. -/
theorem attachment_order_lost :
    let catalog := ({} : Catalog Unit).applyAll
      [.define "steps" { isSequential := true }, .register "steps" (some "check") Action.idle,
        .register "steps" (some "notify") Action.idle, .register "plain" (some "check") Action.idle,
        .register "plain" (some "notify") Action.idle]
    let invocation := ({ name := "steps" } : Invocation).applyAll catalog
      [.attach (some "check") [], .attach (some "check") [], .attach (some "notify") [],
        .rename "plain"]
    (catalog.entry "plain").toOption.map (fun entry => (entry.policy.isFlat, entry.mainIsLast)) =
      some (true, false) ∧
    invocation.name = "plain" ∧
    invocation.occurrences.map Occurrence.option = ["check", "check", "notify"] ∧
    (invocation.ordered catalog).toOption.map (List.map Occurrence.option) =
      some ["check", "notify", "check"] := by
  decide +kernel

end Invocation

end CommandEngine
