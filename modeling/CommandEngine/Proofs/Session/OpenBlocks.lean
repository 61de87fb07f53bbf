import CommandEngine.Proofs.Session.LineBreaks
import CommandEngine.Proofs.Session.WritingOrder
/-!
# Commands wait for their blocks

While a block is open nothing that has been written runs, neither the command before the block nor
those inside it, which are all in the same tree. So when entering a line does run the tree, all
blocks in what has been written have come to an end. A block can end in two ways, by its closing
mark or by being given up, which happens to all open blocks when a line is refused or the host
discards what is unfinished.

The second way is a trap. Giving blocks up does not take their commands out of the tree, and a line
that is refused by way of a handler which succeeds is followed by a run like any other: the refused
line is what makes the input complete. So the commands of a half-written block do run then
(`Session.enter_runs_half_written_block`), and what holds of all other blocks has to make an
exception for it (`Session.enter_waits_for_blocks`).

The invariant is that the open blocks are those that a count of `Session.Event`s comes to
(`Session.Counts`). It is kept by every request, like the order of writing.
-/

namespace CommandEngine

namespace Session

/-- What becomes of the blocks and the commands that wait. -/
inductive Event
  | opening
  | closing
  | command (invocation : Invocation)
  | /-- All open blocks are given up. -/
    givingUp
  deriving DecidableEq

/-- How a block has ended. -/
inductive Ending
  | pending
  | closed
  | givenUp
  deriving DecidableEq

namespace Event

variable {events : List Event}

/-- The event that an item of a batch is. -/
def ofItem : Batch.Item → Event
  | .openBlock => opening
  | .closeBlock => closing
  | .command invocation => command invocation

/-- The command that is written. -/
def invocation? : Event → Option Invocation
  | command invocation => some invocation
  | opening => none
  | closing => none
  | givingUp => none

/-- The number of open blocks after an event. -/
def count (depth : Nat) : Event → Nat
  | opening => depth + 1
  | closing => depth - 1
  | command _ => depth
  | givingUp => 0

/-- The number of open blocks after some events. -/
def depthAfter (events : List Event) : Nat := events.foldl count 0

/-- How a block ends in what follows its opening, given how many blocks inside it are open. -/
def ending : Nat → List Event → Ending
  | _, [] => .pending
  | inner, opening :: rest => ending (inner + 1) rest
  | 0, closing :: _ => .closed
  | inner + 1, closing :: rest => ending inner rest
  | inner, command _ :: rest => ending inner rest
  | _, givingUp :: _ => .givenUp

theorem depthAfter_append (front back : List Event) :
    depthAfter (front ++ back) = back.foldl count (depthAfter front) := List.foldl_append

/-- A block that is still open is counted, whatever is open around and inside it. -/
theorem lt_foldl_count_of_pending {inner : Nat} (pending : ending inner events = .pending)
    (outer : Nat) : outer < events.foldl count (outer + inner + 1) := by
  induction events generalizing inner with
  | nil =>
      show outer < outer + inner + 1
      omega
  | cons event rest ih =>
      cases event with
      | opening => exact ih pending
      | closing =>
          cases inner with
          | zero => cases pending
          | succ inner => exact ih pending
      | command invocation => exact ih pending
      | givingUp => cases pending

/-- As long as a block is open, some block is. -/
theorem depthAfter_pos_of_pending (front : List Event) {back : List Event}
    (pending : ending 0 back = .pending) : 0 < depthAfter (front ++ opening :: back) := by
  rw [depthAfter_append]
  exact Nat.lt_of_le_of_lt (Nat.zero_le _) (lt_foldl_count_of_pending pending (depthAfter front))

/-- A block that is given up is open until then. -/
theorem exists_of_ending_eq_givenUp {inner : Nat} (lost : ending inner events = .givenUp) :
    ∃ front back, events = front ++ givingUp :: back ∧ ending inner front = .pending := by
  induction events generalizing inner with
  | nil => cases lost
  | cons event rest ih =>
      cases event with
      | opening =>
          obtain ⟨front, back, rfl, pending⟩ := ih lost
          exact ⟨opening :: front, back, rfl, pending⟩
      | closing =>
          cases inner with
          | zero => cases lost
          | succ inner =>
              obtain ⟨front, back, rfl, pending⟩ := ih lost
              exact ⟨closing :: front, back, rfl, pending⟩
      | command invocation =>
          obtain ⟨front, back, rfl, pending⟩ := ih lost
          exact ⟨command invocation :: front, back, rfl, pending⟩
      | givingUp => exact ⟨[], rest, rfl, rfl⟩

/-- If nothing is given up while a block is open, every block is open or closed by its mark. -/
theorem ending_eq_pending_or_closed {front back : List Event}
    (orderly : ∀ before after, front ++ opening :: back = before ++ givingUp :: after →
      depthAfter before = 0) : ending 0 back = .pending ∨ ending 0 back = .closed := by
  cases lost : ending 0 back with
  | pending => exact .inl rfl
  | closed => exact .inr rfl
  | givenUp =>
      obtain ⟨inside, after, rfl, pending⟩ := exists_of_ending_eq_givenUp lost
      have none_open := orderly (front ++ opening :: inside) after (by simp)
      have some_open := depthAfter_pos_of_pending front pending
      omega

end Event

variable {ω : Type} {session : Session ω} {past : List Event} {statements : List Statement}

/-! ## What has been written, with its blocks -/

/-- The events of a line. -/
def eventsOf (session : Session ω) (line : String) : List Event :=
  if (session.accept line).1 = .accepted then
    ((Batch.items session.catalog session.settings.builder
      (session.statementsOf line)).toOption.getD []).map Event.ofItem
  else [.givingUp]

/-- The events of a request. -/
def eventsBy (session : Session ω) : Request ω → List Event
  | .submit line => session.eventsOf line
  | .enter line => session.eventsOf line
  | .execute => []
  | .discard => [.givingUp]
  | .changeCatalog _ => []
  | .replaceCatalog _ => []

/-- The events of a run of requests after some others, without those before the tree last ran. -/
def draft (session : Session ω) (past : List Event) : List (Request ω × ω) → List Event
  | [] => past
  | made :: rest =>
    (session.serve made.2 made.1).2.1.draft
      (if session.ran made.2 made.1 then [] else past ++ session.eventsBy made.1) rest

theorem eventsOf_of_statementsOf_eq_nil {line : String} {after : Session ω}
    (hnone : session.statementsOf line = []) (haccept : session.accept line = (.accepted, after)) :
    session.eventsOf line = [] := by
  rw [eventsOf, haccept, if_pos rfl, hnone]
  rfl

theorem eventsOf_of_refused {line : String} (hverdict : (session.accept line).1 ≠ .accepted) :
    session.eventsOf line = [.givingUp] := if_neg hverdict

theorem eventsOf_of_items {line : String} {batch : List Batch.Item} {after : Session ω}
    (haccept : session.accept line = (.accepted, after))
    (hitems : Batch.items session.catalog session.settings.builder (session.statementsOf line) =
      .ok batch) : session.eventsOf line = batch.map Event.ofItem := by
  rw [eventsOf, haccept, if_pos rfl, hitems]
  rfl

/-- The commands among the events of a line are those that the line writes. -/
theorem Sound.filterMap_eventsOf (sound : session.Sound) (line : String) :
    (session.eventsOf line).filterMap Event.invocation? = session.written line := by
  rcases accept_cases sound line with ⟨hnone, scanner, haccept⟩ |
    ⟨verdict, hverdict, -, haccept⟩ | ⟨scanner, last, grown, -, hplants, haccept⟩
  · rw [eventsOf_of_statementsOf_eq_nil hnone haccept, written, haccept, if_pos rfl, hnone]
    rfl
  · have refused : (session.accept line).1 ≠ .accepted := by rwa [haccept]
    rw [eventsOf_of_refused refused, written, if_neg refused]
    rfl
  · obtain ⟨-, batch, -, -, hitems, -⟩ := hplants
    have made :=
      Batch.forall₂_builds_of_items (session.command_nil_not_mem_statementsOf line) hitems
    rw [eventsOf_of_items haccept hitems, written, haccept, if_pos rfl, Batch.filterMap_built? made,
      List.filterMap_map]
    apply List.filterMap_congr
    intro item _
    cases item <;> rfl

theorem Sound.filterMap_eventsBy (sound : session.Sound) (request : Request ω) :
    (session.eventsBy request).filterMap Event.invocation? = session.writtenBy request := by
  cases request with
  | submit line => exact sound.filterMap_eventsOf line
  | enter line => exact sound.filterMap_eventsOf line
  | execute | discard | changeCatalog | replaceCatalog => rfl

theorem Sound.filterMap_draft (sound : session.Sound) (past : List Event)
    (requests : List (Request ω × ω)) :
    (session.draft past requests).filterMap Event.invocation? =
      session.journal (past.filterMap Event.invocation?) requests := by
  induction requests generalizing session past with
  | nil => rfl
  | cons made rest ih =>
      rw [draft, journal, ih (sound.serve made.2 made.1), ← sound.filterMap_eventsBy,
        ← List.filterMap_append]
      congr 1
      split <;> rfl

/-- The open blocks are those that the events come to, and there are none without a tree. -/
structure Counts (session : Session ω) (past : List Event) : Prop where
  sound : session.Sound
  depth_eq : session.nesting.depth = Event.depthAfter past
  closed : session.tree.isEmpty = true → session.nesting.depth = 0

/-- Planting opens and closes the blocks of its batch. -/
theorem depth_of_plant {anchor : Handle} {batch : List Batch.Item} {nesting last : Nesting}
    {tree grown : InvocationTree}
    (hplant : Batch.plant anchor batch nesting tree = .ok (last, grown)) :
    last.depth = (batch.map Event.ofItem).foldl Event.count nesting.depth := by
  induction batch generalizing nesting tree with
  | nil =>
      cases hplant
      rfl
  | cons item rest ih =>
      cases item with
      | openBlock => exact ih hplant
      | closeBlock =>
          have later := ih hplant
          rw [Nesting.depth_leave] at later
          exact later
      | command invocation =>
          rw [Batch.plant] at hplant
          split at hplant
          · cases hplant
          · have later := ih hplant
            exact later

theorem Sound.isEmpty_eq_false_of_plants (sound : session.Sound) {last : Nesting}
    {grown : InvocationTree} (hplants : session.Plants statements last grown) :
    grown.isEmpty = false := by
  obtain ⟨-, batch, anchor, rooted, -, hanchor, hplant⟩ := hplants
  obtain ⟨wg, hhead, -⟩ := Batch.anchor_spec sound.tree hanchor
  obtain ⟨-, -, hhead', -⟩ := Batch.plant_spec wg (wg.inTree_head hhead) hplant
  rw [Forest.isEmpty, hhead', hhead]
  rfl

namespace Counts

theorem ofSettings (settings : Settings ω) : (ofSettings settings).Counts [] where
  sound := sound_ofSettings settings
  depth_eq := rfl
  closed _ := rfl

theorem discard (counts : session.Counts past) : session.discard.Counts (past ++ [.givingUp]) where
  sound := counts.sound.discard
  depth_eq := by
    rw [Event.depthAfter_append]
    rfl
  closed _ := rfl

theorem depth_liveNesting (counts : session.Counts past) :
    session.liveNesting.depth = Event.depthAfter past := by
  unfold liveNesting
  split
  case isTrue empty => exact (counts.closed empty).symm.trans counts.depth_eq
  case isFalse => exact counts.depth_eq

theorem accept (counts : session.Counts past) (line : String) :
    (session.accept line).2.Counts (past ++ session.eventsOf line) := by
  have sound := counts.sound.accept line
  rcases accept_cases counts.sound line with ⟨hnone, scanner, haccept⟩ |
    ⟨verdict, hverdict, -, haccept⟩ | ⟨scanner, last, grown, -, hplants, haccept⟩
  · rw [eventsOf_of_statementsOf_eq_nil hnone haccept, List.append_nil, haccept]
    rw [haccept] at sound
    exact ⟨sound, counts.depth_eq, counts.closed⟩
  · rw [eventsOf_of_refused (by rwa [haccept]), haccept]
    exact counts.discard
  · have occupied := counts.sound.isEmpty_eq_false_of_plants hplants
    obtain ⟨-, batch, anchor, rooted, hitems, -, hplant⟩ := hplants
    rw [eventsOf_of_items haccept hitems, haccept]
    rw [haccept] at sound
    refine ⟨sound, ?_, fun empty => ?_⟩
    · rw [Event.depthAfter_append, ← counts.depth_liveNesting]
      exact depth_of_plant hplant
    · rw [occupied] at empty
      cases empty

/-- The blocks are forgotten if the tree ran; without a tree none is open. -/
theorem execute (counts : session.Counts past) (world : ω) :
    (session.execute world).2.1.Counts
      (if (session.execute world).1.isOk then [] else past) := by
  rcases execute_cases session world with ⟨hsame, idle⟩ | ⟨hcleared, succeeded⟩
  · rw [hsame]
    split
    case isFalse => exact counts
    case isTrue succeeded =>
      have empty : session.tree.isEmpty = true := by rw [Forest.isEmpty, idle succeeded]; rfl
      exact ⟨counts.sound, counts.closed empty, counts.closed⟩
  · have sound := counts.sound.execute world
    rw [if_pos succeeded]
    rw [hcleared] at sound ⊢
    exact ⟨sound, rfl, fun _ => rfl⟩

/-- Every request counts the blocks right. -/
theorem serve (counts : session.Counts past) (world : ω) (request : Request ω) :
    (session.serve world request).2.1.Counts
      (if session.ran world request then [] else past ++ session.eventsBy request) := by
  cases request with
  | submit line => exact counts.accept line
  | enter line =>
      rcases enter_cases session line world with ⟨hread, hran⟩ | ⟨later, hread, hran⟩
      · rw [Session.serve, hread, hran]
        exact counts.accept line
      · rw [Session.serve, hread, hran]
        exact (counts.accept line).execute later
  | execute =>
      rw [eventsBy, List.append_nil]
      exact counts.execute world
  | discard => exact counts.discard
  | changeCatalog change =>
      rw [eventsBy, List.append_nil]
      exact ⟨counts.sound.serve world (.changeCatalog change), counts.depth_eq, counts.closed⟩
  | replaceCatalog catalog =>
      rw [eventsBy, List.append_nil]
      exact ⟨counts.sound.serve world (.replaceCatalog catalog), counts.depth_eq, counts.closed⟩

theorem serveAll (counts : session.Counts past) (requests : List (Request ω × ω)) :
    (session.serveAll requests).Counts (session.draft past requests) := by
  induction requests generalizing session past with
  | nil => exact counts
  | cons made rest ih => exact ih (counts.serve made.2 made.1)

end Counts

/-- While a block is open, entering a line is no more than submitting it. -/
theorem enter_eq_submit_of_isOpen {line : String} (world : ω)
    (isOpen : (session.accept line).2.nesting.isOpen = true) :
    session.enter line world = session.submit line world := by
  rw [← session_submit session line world] at isOpen
  rw [enter]
  rcases hsubmit : session.submit line world with ⟨answer, after, later⟩
  rw [hsubmit] at isOpen
  cases answer with
  | error cause => rfl
  | ok done => simp [isComplete, isOpen]

theorem InOrder.tail_labels {written : List Invocation} (inOrder : session.InOrder written) :
    session.tree.labels.tail = written := by
  rcases inOrder.ordered with ⟨-, hempty, rfl⟩ | ⟨head, last, idle, -, -, hlabels⟩
  · rw [hempty]
    rfl
  · rw [hlabels]
    rfl

/-- What waits in the tree when a line has been read are the commands written since the tree last
ran. If a block that was opened since then is still open, entering the line runs nothing. So
if entering it does run the tree, and nothing has been given up while a block was open, then every
block that was opened has been closed by its mark. -/
theorem enter_waits_for_blocks (settings : Settings ω) (requests : List (Request ω × ω))
    (line : String) (world : ω) :
    let session := (ofSettings settings).serveAll requests
    let events := (ofSettings settings).draft [] requests ++ session.eventsOf line
    (session.accept line).2.tree.labels.tail = events.filterMap Event.invocation? ∧
    ∀ front back, events = front ++ .opening :: back →
      (Event.ending 0 back = .pending → session.enter line world = session.submit line world) ∧
      ((∀ before after, events = before ++ .givingUp :: after → Event.depthAfter before = 0) →
        session.enter line world ≠ session.submit line world →
        Event.ending 0 back = .closed) := by
  intro session events
  have start := sound_ofSettings settings
  have counts := ((Counts.ofSettings settings).serveAll requests).accept line
  have inOrder := ((InOrder.ofSettings settings).serveAll requests).accept line
  have waits {front back : List Event} (hevents : events = front ++ .opening :: back)
      (pending : Event.ending 0 back = .pending) :
      session.enter line world = session.submit line world := by
    apply enter_eq_submit_of_isOpen
    have some_open := Event.depthAfter_pos_of_pending front pending
    have depth : (session.accept line).2.nesting.depth = Event.depthAfter events := counts.depth_eq
    rw [hevents] at depth
    rw [← depth, Nesting.depth] at some_open
    simpa [Nesting.isOpen] using List.ne_nil_of_length_pos some_open
  constructor
  · have sound : session.Sound := ((Counts.ofSettings settings).serveAll requests).sound
    rw [inOrder.tail_labels, List.filterMap_append, start.filterMap_draft, sound.filterMap_eventsOf]
    rfl
  · intro front back hevents
    refine ⟨waits hevents, fun orderly ran => ?_⟩
    rw [hevents] at orderly
    rcases Event.ending_eq_pending_or_closed orderly with pending | closed
    · exact absurd (waits hevents pending) ran
    · exact closed

/-- The settings `bracketed` in a world that is a list of texts. -/
def recording : Settings (List String) where
  grammar := bracketed.grammar
  onUnknownCommand _ log := (.ok (), log)
  onUnknownOption _ log := (.ok (), log)

/-- A command that records its name is registered, and it opens a block. -/
def halfWritten : List (Request (List String) × List String) :=
  [(.changeCatalog (.register "a" none fun _ log => (.ok (), log ++ ["a"])), []),
    (.enter "a (", [])]

/-- A line inside the block runs nothing, and one that closes it runs both commands. -/
theorem enter_waits_for_blocks_of_two_lines :
    let session := (ofSettings recording).serveAll halfWritten
    let events := (ofSettings recording).draft [] halfWritten ++ session.eventsOf "a;)"
    session.enter "a;" [] = session.submit "a;" [] ∧
    (session.submit "a;)" []).2.2 = [] ∧ (session.enter "a;)" []).2.2 = ["a", "a"] ∧
    ∃ front back, events = front ++ .opening :: back ∧ Event.ending 0 back = .closed := by
  intro session events
  have submitted : (session.submit "a;)" []).2.2 = [] := by decide +kernel
  have entered : (session.enter "a;)" []).2.2 = ["a", "a"] := by decide +kernel
  have ran : session.enter "a;)" [] ≠ session.submit "a;)" [] := by
    intro same
    rw [same, submitted] at entered
    cases entered
  have opened : events = events.take 1 ++ .opening :: events.drop 2 := by decide +kernel
  have keeps : Event.givingUp ∉ events := by decide +kernel
  have waits := (enter_waits_for_blocks recording halfWritten "a;" []).2
    (events.take 1) (session.eventsOf "a;") (by decide +kernel)
  have closes := (enter_waits_for_blocks recording halfWritten "a;)" []).2
    (events.take 1) (events.drop 2) opened
  refine ⟨waits.1 (by decide +kernel), submitted, entered, _, _, opened, closes.2 ?_ ran⟩
  intro before after hevents
  have lost : Event.givingUp ∈ before ++ .givingUp :: after :=
    List.mem_append_right before List.mem_cons_self
  rw [← hevents] at lost
  exact absurd lost keeps

/-- A line that is refused inside the block runs the command before the block. -/
theorem enter_runs_half_written_block :
    let session := (ofSettings recording).serveAll halfWritten
    session.nesting.isOpen = true ∧ (session.accept "b;").1 = .unknownCommand "b" ∧
    (session.submit "b;" []).2.2 = [] ∧ (session.enter "b;" []).1 = .ok () ∧
    (session.enter "b;" []).2.2 = ["a"] := by
  decide +kernel

end Session

end CommandEngine
