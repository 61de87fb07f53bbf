import CommandEngine.Proofs.Catalog.Changing
/-!
# Priorities in sequence

A command whose policy is sequential gives each group of names that is registered a priority of its
own, in descending order. Three things decide which one: where the sequence stands, what was
assigned last, and whether priorities are frozen. An entry keeps all three, and over a run of
changes they interact.

Here they are read off the run itself. What happened to the priorities of a command is its history:
which names were registered and under which priority, when freezing was switched, when the sequence
was restarted below the main option. The history is observed from outside, by asking the catalog
after each change that was accepted; everything else about a run is left out. The rules of the
sequence are then functions of the history over the integers, where nothing overflows, and the
result says that every run obeys them (`Catalog.priorities_applyAll`).
-/

namespace CommandEngine

/-- What happened to the priorities of a command. -/
inductive Mark
  | /-- Options other than the main one were registered under a priority. -/
    assigned (names : List String) (priority : Int32)
  | switched
  | restarted
  deriving DecidableEq

/-- What happened to the priorities of a command, the latest first. -/
abbrev History : Type := List Mark

namespace History

/-- Priorities are frozen once freezing was switched an odd number of times. -/
def isFrozen (history : History) : Bool := history.count .switched % 2 == 1

/-- The priorities assigned since the sequence was started or restarted, the latest first. -/
def recent : History → List Int32
  | [] => []
  | .assigned _ priority :: older => priority :: recent older
  | .switched :: older => recent older
  | .restarted :: _ => []

/-- The priority that the next names share with those before them, if they share one. -/
def shared? (history : History) : Option Int32 :=
  if history.isFrozen then history.recent.head? else none

/-- Where the sequence stands. It falls by one with each priority that is not shared, down to the
least one. -/
def cursor (base : Int) : History → Int
  | [] => base
  | .assigned _ _ :: older =>
    if (shared? older).isSome then cursor base older
    else max Int32.minValue.toInt (cursor base older - 1)
  | .switched :: older => cursor base older
  | .restarted :: _ => -1

/-- The priority that the next names get. -/
def next (base : Int) (history : History) : Int :=
  match history.shared? with
  | some priority => priority.toInt
  | none => history.cursor base

/-- All priorities that were assigned, the latest first. -/
def priorities : History → List Int32
  | [] => []
  | .assigned _ priority :: older => priority :: priorities older
  | .switched :: older => priorities older
  | .restarted :: older => priorities older

/-- All names that were registered. -/
def names : History → List String
  | [] => []
  | .assigned names _ :: older => names ++ History.names older
  | .switched :: older => History.names older
  | .restarted :: older => History.names older

/-- Every priority was assigned by the rules. -/
def IsLawful (base : Int) : History → Prop
  | [] => True
  | .assigned _ priority :: older => priority.toInt = next base older ∧ IsLawful base older
  | .switched :: older => IsLawful base older
  | .restarted :: older => IsLawful base older

variable {base : Int} {history : History}

theorem next_of_shared {priority : Int32} (hshared : history.shared? = some priority) :
    history.next base = priority.toInt := by rw [next, hshared]

theorem next_of_not_shared (hshared : history.shared? = none) :
    history.next base = history.cursor base := by rw [next, hshared]

theorem cursor_of_shared {names : List String} {priority other : Int32}
    (hshared : history.shared? = some other) :
    cursor base (.assigned names priority :: history) = history.cursor base := by
  rw [cursor, hshared, if_pos Option.isSome_some]

theorem cursor_of_not_shared {names : List String} {priority : Int32}
    (hshared : history.shared? = none) :
    cursor base (.assigned names priority :: history) =
      max Int32.minValue.toInt (history.cursor base - 1) := by
  rw [cursor, hshared, if_neg (by simp)]

private theorem shared?_cases (history : History) :
    (∃ priority older, history.shared? = some priority ∧ history.recent = priority :: older) ∨
      history.shared? = none := by
  rw [shared?]
  split
  case isTrue =>
    cases hrecent : history.recent with
    | nil => exact .inr rfl
    | cons priority older => exact .inl ⟨priority, older, rfl, rfl⟩
  case isFalse => exact .inr rfl

/-- Under the rules the priorities since the last restart never increase, and the sequence stands no
higher than the lowest of them. -/
theorem IsLawful.pairwise_recent (lawful : history.IsLawful base) :
    history.recent.Pairwise (· ≤ ·) ∧
      ∀ priority ∈ history.recent, history.cursor base ≤ priority.toInt := by
  induction history with
  | nil => exact ⟨.nil, nofun⟩
  | cons mark older ih =>
      cases mark with
      | assigned names priority =>
          obtain ⟨hpriority, before⟩ := lawful
          obtain ⟨inOrder, above⟩ := ih before
          rcases shared?_cases older with ⟨latest, rest, hshared, hrecent⟩ | hshared
          · -- A shared priority is the latest one once more.
            rw [next_of_shared hshared] at hpriority
            obtain rfl := Int32.toInt_inj.1 hpriority
            have least : ∀ other ∈ recent older, priority ≤ other := by
              rw [hrecent] at inOrder ⊢
              exact List.forall_mem_cons.2
                ⟨Int32.le_refl priority, (List.pairwise_cons.1 inOrder).1⟩
            have here : priority ∈ recent older := hrecent ▸ List.mem_cons_self
            rw [recent, cursor_of_shared hshared]
            exact ⟨.cons least inOrder, List.forall_mem_cons.2 ⟨above priority here, above⟩⟩
          · rw [next_of_not_shared hshared] at hpriority
            have least : ∀ other ∈ recent older, priority ≤ other := fun other here =>
              Int32.le_iff_toInt_le.2 (hpriority ▸ above other here)
            have bounded := Int32.minValue_le_toInt priority
            have lower :
                max Int32.minValue.toInt (History.cursor base older - 1) ≤ priority.toInt := by
              omega
            rw [recent, cursor_of_not_shared hshared]
            refine ⟨.cons least inOrder, List.forall_mem_cons.2 ⟨lower, fun other here => ?_⟩⟩
            exact Int.le_trans lower (Int32.le_iff_toInt_le.1 (least other here))
      | switched => exact ih lawful
      | restarted => exact ⟨.nil, nofun⟩

private theorem recent_of_not_restarted (never : .restarted ∉ history) :
    history.recent = history.priorities := by
  induction history with
  | nil => rfl
  | cons mark older ih =>
      rw [List.mem_cons, not_or] at never
      cases mark with
      | assigned names priority => rw [recent, priorities, ih never.2]
      | switched => exact ih never.2
      | restarted => exact absurd rfl never.1

end History

/-! ## The history of a run -/

variable {ω : Type}

namespace Catalog.Change

/-- The assignment that an entry shows after names were registered. All of them share one priority,
so it is looked up under the first. -/
def assignment? (change : Catalog.Change ω) (changed : Entry ω) : Option Mark :=
  match change.optionNames with
  | [] => none
  | name :: _ =>
    match changed.definition name with
    | .error _ => none
    | .ok definition => some (.assigned change.optionNames definition.priority)

/-- What a change did to the priorities of its command, given the answer to it and the entry
afterwards. -/
def mark? (change : Catalog.Change ω) (answer : Except CatalogError Unit) (changed : Entry ω) :
    Option Mark :=
  match answer, change with
  | .error _, _ => none
  | .ok _, .switchFreezing _ => some .switched
  | .ok _, .continueBelowMain _ => some .restarted
  | .ok _, change => change.assignment? changed

/-- Only going on below the main option is a restart. -/
theorem eq_of_mark?_eq_restarted {change : Catalog.Change ω} {answer : Except CatalogError Unit}
    {changed : Entry ω} (restarts : change.mark? answer changed = some .restarted) :
    change = .continueBelowMain change.main := by
  have assigns : change.assignment? changed ≠ some .restarted := by
    rw [assignment?]
    split
    · exact nofun
    · split <;> simp
  cases answer with
  | error => cases restarts
  | ok =>
      cases change with
      | continueBelowMain => rfl
      | switchFreezing => cases restarts
      | _ => exact absurd restarts assigns

end Catalog.Change

namespace Catalog

/-- What a change did to the priorities of a command. -/
def mark? (catalog : Catalog ω) (main : String) (change : Change ω) : Option Mark :=
  if change.main = main then
    match (catalog.apply change).2.entry main with
    | .error _ => none
    | .ok changed => change.mark? (catalog.apply change).1 changed
  else none

/-- The history of a command after further changes. -/
def historyFrom (main : String) : Catalog ω → History → List (Change ω) → History
  | _, older, [] => older
  | catalog, older, change :: rest =>
    historyFrom main (catalog.apply change).2 ((catalog.mark? main change).toList ++ older) rest

/-- The history of a command over a run of changes. -/
def history (catalog : Catalog ω) (main : String) (changes : List (Change ω)) : History :=
  historyFrom main catalog [] changes

variable {catalog : Catalog ω} {main : String} {entry : Entry ω} {change : Change ω}
  {changes : List (Change ω)} {older : History}

private theorem historyFrom_append (catalog : Catalog ω) (older : History)
    (front back : List (Change ω)) :
    historyFrom main catalog older (front ++ back) =
      historyFrom main (catalog.applyAll front) (historyFrom main catalog older front) back := by
  induction front generalizing catalog older with
  | nil => rfl
  | cons change rest ih => exact ih _ _

theorem history_concat (catalog : Catalog ω) (changes : List (Change ω)) (change : Change ω) :
    catalog.history main (changes ++ [change]) =
      ((catalog.applyAll changes).mark? main change).toList ++ catalog.history main changes := by
  rw [history, historyFrom_append]
  rfl

/-- What holds of a command and its history and is kept by every change of the command holds after
every run of changes that does not withdraw the command. -/
theorem exists_entry_historyFrom {P : History → Entry ω → Prop} (older : History)
    (step : ∀ older entry change answer changed, P older entry →
      entry.Becomes change answer changed →
        P ((change.mark? answer changed).toList ++ older) changed)
    (hentry : catalog.entry main = .ok entry)
    (stays : ∀ change ∈ changes, change ≠ .withdrawCommand main) (start : P older entry) :
    ∃ after, (catalog.applyAll changes).entry main = .ok after ∧
      P (catalog.historyFrom main older changes) after := by
  induction changes generalizing catalog entry older with
  | nil => exact ⟨entry, hentry, start⟩
  | cons change rest ih =>
      obtain ⟨stay, later⟩ := List.forall_mem_cons.1 stays
      rw [applyAll_cons, historyFrom, mark?]
      by_cases same : change.main = main
      · subst same
        obtain ⟨changed, hchanged, becomes⟩ := exists_becomes hentry stay
        rw [if_pos rfl, hchanged]
        exact ih _ hchanged later (step _ _ _ _ _ start becomes)
      · rw [if_neg same]
        exact ih _ ((entry_apply_of_ne same).trans hentry) later start

/-- What holds of a command and is kept by every change of it holds after every run of changes that
does not withdraw it. -/
theorem exists_entry_applyAll {P : Entry ω → Prop}
    (step : ∀ entry change answer changed, P entry →
      entry.Becomes change answer changed → P changed)
    (hentry : catalog.entry main = .ok entry)
    (stays : ∀ change ∈ changes, change ≠ .withdrawCommand main) (start : P entry) :
    ∃ after, (catalog.applyAll changes).entry main = .ok after ∧ P after :=
  exists_entry_historyFrom (P := fun _ => P) [] (fun _ => step) hentry stays start

end Catalog

/-- The least priority has none below it, and otherwise the next lower one is one less. -/
theorem toInt_lowered (priority : Int32) :
    (lowered priority).toInt = max Int32.minValue.toInt (priority.toInt - 1) := by
  have bounded := Int32.minValue_le_toInt priority
  rw [lowered]
  split
  case isTrue least =>
    rw [least]
    omega
  case isFalse above =>
    have apart : priority.toInt ≠ Int32.minValue.toInt := fun same =>
      above (Int32.toInt_inj.1 same)
    have upper := Int32.toInt_lt priority
    rw [Int32.toInt_sub]
    rw [Int32.toInt_minValue] at *
    have one : (1 : Int32).toInt = 1 := rfl
    rw [one, Int.bmod_eq_of_le (by omega) (by omega)]
    omega

namespace Entry

variable {entry changed : Entry ω} {change : Catalog.Change ω} {answer : Except CatalogError Unit}
  {policy : Policy} {history : History}

/-- A sequential entry hands out the priority it shares, or else the one at its cursor. -/
theorem handOut_cases (sequential : entry.policy.isSequential = true) :
    (∃ priority, entry.isFrozen = true ∧ entry.lastAssigned = some priority ∧
      entry.handOut = (priority, entry)) ∨
    ((entry.isFrozen = false ∨ entry.lastAssigned = none) ∧
      entry.handOut = (entry.cursor,
        { entry with cursor := lowered entry.cursor, lastAssigned := some entry.cursor })) := by
  cases frozen : entry.isFrozen <;> cases last : entry.lastAssigned <;>
    simp [handOut, sequential, frozen, last]

theorem definition_setAliases {names : List String} {name : String} (here : name ∈ names)
    (action : Action ω) :
    (entry.setAliases names action).definition name = .ok ⟨entry.handOut.1, action⟩ := by
  rw [definition_eq_ok_iff, get?_setAliases, if_pos here]

theorem mark?_setAliases (names : change.optionNames ≠ []) (action : Action ω) :
    change.mark? (.ok ()) (entry.setAliases change.optionNames action) =
      some (.assigned change.optionNames entry.handOut.1) := by
  have hmark : change.mark? (.ok ()) (entry.setAliases change.optionNames action) =
      change.assignment? (entry.setAliases change.optionNames action) := by
    cases change with
    | register => rfl
    | registerGroup => rfl
    | _ => exact absurd rfl names
  rw [hmark, Catalog.Change.assignment?]
  split
  case h_1 empty => exact absurd empty names
  case h_2 name rest hnames =>
    have here : name ∈ change.optionNames := hnames ▸ List.mem_cons_self
    rw [definition_setAliases here]

theorem mark?_setMain (registers : change.registers = true) (noNames : change.optionNames = []) :
    change.mark? (.ok ()) changed = none := by
  have hassignment : change.assignment? changed = none := by
    rw [Catalog.Change.assignment?, noNames]
  cases change with
  | register => exact hassignment
  | registerGroup => exact hassignment
  | _ => cases registers

/-- An entry stands where the rules say after a history, and the history obeyed them. -/
structure Follows (entry : Entry ω) (policy : Policy) (history : History) : Prop where
  policy_eq : entry.policy = policy
  /-- Freezing is on after an odd number of switches. -/
  isFrozen_eq : entry.isFrozen = history.isFrozen
  /-- What is shared is the latest priority since the last restart. -/
  lastAssigned_eq : entry.lastAssigned = history.recent.head?
  cursor_eq : entry.cursor.toInt = history.cursor policy.base.toInt
  lawful : history.IsLawful policy.base.toInt

namespace Follows

theorem ofPolicy (name : String) (policy : Policy) :
    (Entry.ofPolicy name policy : Entry ω).Follows policy [] :=
  ⟨rfl, rfl, rfl, rfl, trivial⟩

/-- Where an entry stands depends on its policy and on what it keeps of the sequence. -/
theorem congr (follows : entry.Follows policy history) (hpolicy : changed.policy = entry.policy)
    (hfrozen : changed.isFrozen = entry.isFrozen)
    (hlast : changed.lastAssigned = entry.lastAssigned) (hcursor : changed.cursor = entry.cursor) :
    changed.Follows policy history :=
  ⟨hpolicy.trans follows.policy_eq, hfrozen.trans follows.isFrozen_eq,
    hlast.trans follows.lastAssigned_eq, (congrArg Int32.toInt hcursor).trans follows.cursor_eq,
    follows.lawful⟩

/-- An entry shares a priority exactly if the rules say so. -/
theorem handOut_cases (follows : entry.Follows policy history)
    (sequential : policy.isSequential = true) :
    (∃ priority, history.shared? = some priority ∧ entry.handOut = (priority, entry)) ∨
    (history.shared? = none ∧ entry.handOut = (entry.cursor,
      { entry with cursor := lowered entry.cursor, lastAssigned := some entry.cursor })) := by
  rw [History.shared?, ← follows.isFrozen_eq, ← follows.lastAssigned_eq]
  rcases Entry.handOut_cases (follows.policy_eq ▸ sequential) with
    ⟨priority, frozen, last, hhandOut⟩ | ⟨alone, hhandOut⟩
  · exact .inl ⟨priority, by rw [frozen, if_pos rfl, last], hhandOut⟩
  · refine .inr ⟨?_, hhandOut⟩
    rcases alone with running | first
    · rw [running]
      rfl
    · rw [first]
      split <;> rfl

/-- The priority handed out is the one that the rules call for. -/
theorem fst_handOut (follows : entry.Follows policy history)
    (sequential : policy.isSequential = true) :
    entry.handOut.1.toInt = history.next policy.base.toInt := by
  rcases follows.handOut_cases sequential with ⟨priority, hshared, hhandOut⟩ | ⟨alone, hhandOut⟩
  · rw [hhandOut, History.next_of_shared hshared]
  · rw [hhandOut, History.next_of_not_shared alone]
    exact follows.cursor_eq

theorem setAliases (follows : entry.Follows policy history)
    (sequential : policy.isSequential = true) (names : List String) (action : Action ω) :
    (entry.setAliases names action).Follows policy
      (.assigned names entry.handOut.1 :: history) := by
  have lawful := And.intro (follows.fst_handOut sequential) follows.lawful
  have hfrozen :
      History.isFrozen (.assigned names entry.handOut.1 :: history) = history.isFrozen := by
    simp [History.isFrozen]
  rcases follows.handOut_cases sequential with ⟨priority, hshared, hhandOut⟩ | ⟨alone, hhandOut⟩
  · rw [Entry.setAliases]
    rw [hhandOut] at lawful hfrozen ⊢
    have latest : history.recent.head? = some priority := by
      rw [History.shared?] at hshared
      split at hshared
      · exact hshared
      · cases hshared
    exact ⟨follows.policy_eq, follows.isFrozen_eq.trans hfrozen.symm,
      follows.lastAssigned_eq.trans latest,
      follows.cursor_eq.trans (History.cursor_of_shared hshared).symm, lawful⟩
  · rw [Entry.setAliases]
    rw [hhandOut] at lawful hfrozen ⊢
    refine ⟨follows.policy_eq, follows.isFrozen_eq.trans hfrozen.symm, rfl, ?_, lawful⟩
    rw [History.cursor_of_not_shared alone, ← follows.cursor_eq]
    exact toInt_lowered entry.cursor

/-- Every change of a command keeps to the rules. -/
theorem becomes (sequential : policy.isSequential = true) (follows : entry.Follows policy history)
    (becomes : entry.Becomes change answer changed) :
    changed.Follows policy ((change.mark? answer changed).toList ++ history) := by
  cases becomes with
  | refused => exact follows
  | setMain registers noNames action =>
      rw [mark?_setMain registers noNames]
      exact follows.congr rfl rfl rfl rfl
  | setAliases names free action =>
      rw [mark?_setAliases names action]
      exact follows.setAliases sequential change.optionNames action
  | withdraw names => exact follows.congr rfl rfl rfl rfl
  | switchFreezing =>
      have hfrozen : History.isFrozen (.switched :: history) = !history.isFrozen := by
        rw [History.isFrozen, History.isFrozen, List.count_cons_self]
        rcases Nat.mod_two_eq_zero_or_one (history.count .switched) with even | odd
        · simp [Nat.add_mod, even]
        · simp [Nat.add_mod, odd]
      exact ⟨follows.policy_eq, (congrArg not follows.isFrozen_eq).trans hfrozen.symm,
        follows.lastAssigned_eq, follows.cursor_eq, follows.lawful⟩
  | putMainLast => exact follows.congr rfl rfl rfl rfl
  | continueBelowMain =>
      have hfrozen : History.isFrozen (.restarted :: history) = history.isFrozen := by
        simp [History.isFrozen]
      exact ⟨follows.policy_eq, follows.isFrozen_eq.trans hfrozen.symm, rfl, rfl, follows.lawful⟩

end Follows

end Entry

/-! ## Runs obey the rules -/

namespace Catalog

variable {catalog : Catalog ω} {main : String} {changed : Entry ω} {change : Change ω}
  {changes : List (Change ω)} {policy : Policy}

private theorem applyAll_concat (catalog : Catalog ω) (changes : List (Change ω))
    (change : Change ω) :
    catalog.applyAll (changes ++ [change]) = ((catalog.applyAll changes).apply change).2 :=
  applyAll_append catalog changes [change]

theorem mark?_of_entry (hchanged : (catalog.apply change).2.entry change.main = .ok changed) :
    catalog.mark? change.main change = change.mark? (catalog.apply change).1 changed := by
  rw [mark?, if_pos rfl, hchanged]

theorem mark?_of_apply {answer : Except CatalogError Unit}
    (happly : catalog.apply change = (answer, catalog.put change.main changed)) :
    catalog.mark? change.main change = change.mark? answer changed := by
  have hchanged : (catalog.apply change).2.entry change.main = .ok changed := by
    rw [happly]
    exact (entry_put ..).trans (if_pos rfl)
  rw [mark?_of_entry hchanged, happly]

private theorem entry_define (unknown : catalog.contains main = false) (policy : Policy) :
    (catalog.apply (.define main policy)).2.entry main = .ok (.ofPolicy main policy) := by
  rw [apply, define, if_neg (Bool.eq_false_iff.1 unknown)]
  exact (entry_put ..).trans (if_pos rfl)

/-- A run without restarts has none in its history. -/
theorem restarted_not_mem_historyFrom {older : History}
    (onward : ∀ change ∈ changes, change ≠ .continueBelowMain main) (before : .restarted ∉ older) :
    .restarted ∉ catalog.historyFrom main older changes := by
  induction changes generalizing catalog older with
  | nil => exact before
  | cons change rest ih =>
      obtain ⟨first, later⟩ := List.forall_mem_cons.1 onward
      refine ih later fun here => ?_
      rcases List.mem_append.1 here with new | old
      · rw [Option.mem_toList, mark?] at new
        split at new
        case isFalse => cases new
        case isTrue same =>
          subst same
          split at new
          case h_1 => cases new
          case h_2 => exact first (Change.eq_of_mark?_eq_restarted new)
      · exact before old

/-- Let a command be defined with sequential priorities, and let any changes follow that do not
withdraw it. Where its sequence stands then, and whether it is frozen, is what the rules say of the
history of this run; so is the one priority that all names of the next registration get. Freezing
and restarting always succeed, and no other change moves the cursor. Without a restart the
priorities never increase. -/
theorem priorities_applyAll (sequential : policy.isSequential = true)
    (unknown : catalog.contains main = false)
    (stays : ∀ change ∈ changes, change ≠ .withdrawCommand main) :
    let start := (catalog.apply (.define main policy)).2
    let history := start.history main changes
    ∃ entry, (start.applyAll changes).entry main = .ok entry ∧ entry.policy = policy ∧
      entry.isFrozen = history.isFrozen ∧
      entry.cursor.toInt = history.cursor policy.base.toInt ∧
      (∀ change, change.main = main → change.optionNames ≠ [] →
        ((start.applyAll changes).apply change).1 = .ok () →
        ∃ priority, priority.toInt = history.next policy.base.toInt ∧
          start.history main (changes ++ [change]) =
            .assigned change.optionNames priority :: history ∧
          ∀ name ∈ change.optionNames, ∃ definition,
            (start.applyAll (changes ++ [change])).definition main name = .ok definition ∧
              definition.priority = priority) ∧
      start.history main (changes ++ [.switchFreezing main]) = .switched :: history ∧
      start.history main (changes ++ [.continueBelowMain main]) = .restarted :: history ∧
      (∀ change, change ≠ .withdrawCommand main → change ≠ .continueBelowMain main →
        (change.main = main → change.optionNames = [] ∨
          ((start.applyAll changes).apply change).1 ≠ .ok ()) →
        ∃ after, (start.applyAll (changes ++ [change])).entry main = .ok after ∧
          after.cursor = entry.cursor) ∧
      ((∀ change ∈ changes, change ≠ .continueBelowMain main) →
        history.priorities.Pairwise (· ≤ ·)) := by
  intro start history
  obtain ⟨entry, hentry, follows⟩ := exists_entry_historyFrom
    (P := fun history entry => entry.Follows policy history) []
    (fun _ _ _ _ _ follows => follows.becomes sequential) (entry_define unknown policy) stays
    (.ofPolicy main policy)
  refine ⟨entry, hentry, follows.policy_eq, follows.isFrozen_eq, follows.cursor_eq, ?_, ?_, ?_, ?_,
    ?_⟩
  · intro change same names accepted
    subst same
    have stay : change ≠ .withdrawCommand change.main := fun gone => names (gone ▸ rfl)
    obtain ⟨changed, hchanged, becomes⟩ := exists_becomes hentry stay
    rw [accepted] at becomes
    obtain ⟨-, action, rfl⟩ := becomes.eq_setAliases names
    refine ⟨entry.handOut.1, follows.fst_handOut sequential, ?_, fun name here => ?_⟩
    · rw [history_concat, mark?_of_entry hchanged, accepted, Entry.mark?_setAliases names]
      rfl
    · rw [applyAll_concat, Catalog.definition, hchanged]
      exact ⟨_, Entry.definition_setAliases here action, rfl⟩
  · rw [history_concat]
    have happly := apply_switchFreezing hentry (follows.policy_eq ▸ sequential)
    exact congrArg (·.toList ++ history) (mark?_of_apply happly)
  · rw [history_concat]
    exact congrArg (·.toList ++ history) (mark?_of_apply (apply_continueBelowMain hentry))
  · intro change stay onward idle
    rw [applyAll_concat]
    by_cases same : change.main = main
    · subst same
      obtain ⟨changed, hchanged, becomes⟩ := exists_becomes hentry stay
      exact ⟨changed, hchanged, becomes.cursor_eq (idle rfl) onward⟩
    · exact ⟨entry, (entry_apply_of_ne same).trans hentry, rfl⟩
  · intro onward
    have never : .restarted ∉ history := restarted_not_mem_historyFrom onward List.not_mem_nil
    rw [← History.recent_of_not_restarted never]
    exact follows.lawful.pairwise_recent.1

/-- A sequence that starts just above the least priority there is. The second group is refused, the
third shares its priority, and the fourth finds the sequence at its end. -/
theorem priorities_applyAll_exhausted :
    let policy : Policy := { isSequential := true, base := -2147483647 }
    let changes : List (Change Unit) :=
      [.registerGroup "deploy" ["n", "notify"] Action.idle, .register "deploy" none Action.idle,
        .registerGroup "deploy" ["check", ""] Action.idle, .switchFreezing "deploy",
        .register "deploy" (some "fast") Action.idle, .withdraw "deploy" ["n"],
        .switchFreezing "deploy", .register "deploy" (some "check") Action.idle]
    let start := (({} : Catalog Unit).apply (.define "deploy" policy)).2
    let history := start.history "deploy" changes
    history = [.assigned ["check"] (-2147483648), .switched, .assigned ["fast"] (-2147483647),
      .switched, .assigned ["n", "notify"] (-2147483647)] ∧
    history.next policy.base.toInt = -2147483648 ∧
    history.priorities.Pairwise (· ≤ ·) ∧
    ∃ entry, (start.applyAll changes).entry "deploy" = .ok entry ∧
      entry.cursor.toInt = -2147483648 := by
  intro policy changes start history
  have hhistory : history = [.assigned ["check"] (-2147483648), .switched,
      .assigned ["fast"] (-2147483647), .switched, .assigned ["n", "notify"] (-2147483647)] := by
    decide +kernel
  have stays : ∀ change ∈ changes, change ≠ .withdrawCommand "deploy" := by simp [changes]
  have onward : ∀ change ∈ changes, change ≠ .continueBelowMain "deploy" := by simp [changes]
  have sequential : policy.isSequential = true := rfl
  have unknown : ({} : Catalog Unit).contains "deploy" = false := rfl
  obtain ⟨entry, hentry, -, -, hcursor, -, -, -, -, inOrder⟩ :=
    priorities_applyAll sequential unknown stays
  have least : history.cursor policy.base.toInt = -2147483648 := by
    rw [hhistory]
    decide +kernel
  refine ⟨hhistory, ?_, inOrder onward, entry, hentry, hcursor.trans least⟩
  rw [hhistory]
  decide +kernel

end Catalog

end CommandEngine
