import CommandEngine.Proofs.Session.LineBreaks
/-!
# A line is taken as a whole or not at all

Nodes are inserted one by one, and an insertion can be refused, so it is not plain that no line is
left half-way. It holds because everything that could be refused is asked before the first
insertion, and a batch is then planted to its end (`Session.acceptStatements_cases`). What remains
is to say what a planted batch leaves behind, in words that do not mention planting: `Session.Takes`
lists the new nodes and says that nothing else has moved.

Neither the builder nor the catalog matters, and the host may have edited the tree in any way
before, or put another in its place.
-/

namespace CommandEngine

namespace Batch

variable {ω : Type} {catalog : Catalog ω} {builder : Builder ω}

/-- The words of a command are built into an invocation. -/
def Builds (catalog : Catalog ω) (builder : Builder ω) (words : List String)
    (invocation : Invocation) : Prop :=
  ∃ name rest, words = name :: rest ∧ build catalog builder name rest = .ok invocation

/-- If all commands have words, there is one invocation for each of them. -/
theorem forall₂_builds_of_items {batch : List Item} {statements : List Statement}
    (named : Statement.command [] ∉ statements)
    (hitems : items catalog builder statements = .ok batch) :
    List.Forall₂ (Builds catalog builder) (statements.filterMap Statement.words?)
      (batch.filterMap Item.invocation?) := by
  induction statements generalizing batch with
  | nil =>
      cases hitems
      exact .nil
  | cons statement rest ih =>
      rw [List.mem_cons, not_or] at named
      obtain ⟨front, more, hfront, hrest, rfl⟩ := items_cons_eq_ok_iff.1 hitems
      have later := ih named.2 hrest
      cases statement with
      | openBlock =>
          cases hfront
          exact later
      | closeBlock =>
          cases hfront
          exact later
      | command words =>
          cases words with
          | nil => exact absurd rfl named.1
          | cons name words =>
              cases hbuild : build catalog builder name words with
              | error cause => simp [itemsOf, hbuild, Except.map] at hfront
              | ok invocation =>
                  simp only [itemsOf, hbuild, Except.map, Except.ok.injEq] at hfront
                  subst hfront
                  exact .cons ⟨name, words, rfl, hbuild⟩ later

end Batch

namespace Session

variable {ω : Type} {session : Session ω} {statements : List Statement} {grown : InvocationTree}

/-- A tree that has taken all commands of a batch and is otherwise as before. -/
structure Takes (session : Session ω) (statements : List Statement) (grown : InvocationTree) :
    Prop where
  /-- There is one new node for each command, in their order. Before them comes a head, if there are
  statements and there was none. -/
  labels : ∃ heads made,
    (if statements = [] then heads = []
      else Batch.Heads session.catalog session.settings.builder session.tree heads) ∧
    List.Forall₂ (Batch.Builds session.catalog session.settings.builder)
      (statements.filterMap Statement.words?) made ∧
    grown.labels = session.tree.labels ++ (heads ++ made) ∧
    grown.size = session.tree.size + (heads ++ made).length
  /-- The first of the new nodes is the head, if there was none. -/
  head : grown.head =
    if statements = [] then session.tree.head
    else some (session.tree.head.getD session.tree.nextHandle)
  inTree : ∀ handle, grown.contains handle = true → session.tree.contains handle = false →
    grown.inTree handle = true
  /-- Every old node keeps its invocation, its parent and, in front, its children. -/
  extends_tree : session.tree.Extends grown
  epoch : grown.epoch = session.tree.epoch

/-- A batch without statements leaves the tree alone. -/
theorem takes_nil (session : Session ω) : session.Takes [] session.tree where
  labels := ⟨[], [], rfl, .nil, by simp, rfl⟩
  head := rfl
  inTree handle known unknown := by
    rw [known] at unknown
    cases unknown
  extends_tree := .refl _
  epoch := rfl

/-- Planting takes all commands. -/
theorem Plants.takes {last : Nesting} (sound : session.Sound)
    (named : Statement.command [] ∉ statements) (nonempty : statements ≠ [])
    (hplants : session.Plants statements last grown) : session.Takes statements grown := by
  obtain ⟨-, batch, anchor, rooted, hitems, hanchor, hplant⟩ := hplants
  obtain ⟨wg, hhead, ext, hepoch, hsame, hfresh, heads, hheads, hlabels, hsize, hnew⟩ :=
    Batch.anchor_spec sound.tree hanchor
  obtain ⟨wh, ext', hhead', hepoch', hlabels', hsize', hnew'⟩ :=
    Batch.plant_spec wg (wg.inTree_head hhead) hplant
  refine
    { labels := ⟨heads, batch.filterMap Batch.Item.invocation?, ?_,
        Batch.forall₂_builds_of_items named hitems, ?_, ?_⟩
      head := ?_
      inTree := ?_
      extends_tree := ext.trans ext'
      epoch := hepoch'.trans hepoch }
  · rw [if_neg nonempty]
    exact hheads
  · rw [hlabels', hlabels, List.append_assoc]
  · rw [hsize', hsize, List.length_append]
    omega
  · rw [if_neg nonempty, hhead', hhead]
    cases hold : session.tree.head with
    | none => rw [hfresh hold, Option.getD_none]
    | some head =>
        rw [hsame head hold, hold] at hhead
        rw [Option.getD_some, ← hhead]
  · intro handle known unknown
    by_cases here : rooted.contains handle = true
    · rw [ext'.inTree_eq wg.toLinked wh.toLinked hhead' here]
      exact hnew handle here unknown
    · exact hnew' handle known (by simpa using here)

theorem command_nil_not_mem_statementsOf (session : Session ω) (line : String) :
    Statement.command [] ∉ session.statementsOf line := by
  unfold statementsOf
  split
  · exact List.not_mem_nil
  · exact Scanner.command_nil_not_mem_read _ _ _

/-- The host hears of a line: its submission is an error, or it calls the handler of an unknown
name. -/
def Objects (session : Session ω) (line : String) (world : ω) : Prop :=
  (∃ cause, (session.submit line world).1 = .error cause) ∨
  (∃ name, (session.accept line).1 = .unknownCommand name) ∨
  ∃ name, (session.accept line).1 = .unknownOption name

theorem objects_iff {line : String} {world : ω} :
    session.Objects line world ↔ (session.accept line).1 ≠ .accepted := by
  rw [Objects, submit]
  rcases session.accept line with ⟨verdict, after⟩
  cases verdict with
  | accepted => simp [respond]
  | unknownCommand name => simp
  | unknownOption name => simp
  | failed cause => simp [respond]

/-- In every session that a host can bring about, a line that the host hears of leaves the tree as
it was, and nothing waits for more text. Of any other line, the tree takes all commands. -/
theorem submit_all_or_nothing {settings : Settings ω} (reached : Reachable settings session)
    (line : String) (world : ω) :
    let after := (session.submit line world).2.1
    (session.Objects line world →
      after.tree = session.tree ∧ after.scanner = Scanner.fresh ∧ after.nesting = {}) ∧
    (¬ session.Objects line world → session.Takes (session.statementsOf line) after.tree) := by
  intro after
  have sound := reached.sound
  have hafter : after = (session.accept line).2 := session_submit session line world
  rw [objects_iff, hafter]
  rcases accept_cases sound line with ⟨hnone, scanner, haccept⟩ |
    ⟨verdict, hverdict, -, haccept⟩ | ⟨scanner, last, grown, nonempty, hplants, haccept⟩
  · rw [haccept, hnone]
    exact ⟨fun objects => absurd rfl objects, fun _ => session.takes_nil⟩
  · rw [haccept]
    exact ⟨fun _ => ⟨rfl, rfl, rfl⟩, fun silent => absurd hverdict silent⟩
  · rw [haccept]
    have takes := hplants.takes sound (session.command_nil_not_mem_statementsOf line) nonempty
    exact ⟨fun objects => absurd rfl objects, fun _ => takes⟩

/-- A line has opened a block, and then the tree of another session takes the place of the own one.
The next line is taken as a whole, below a node of the new tree, or it leaves that tree alone. -/
theorem submit_all_or_nothing_of_exchange :
    let lines (line : String) : List (Call Unit × Unit) := [(.request (.submit line), ())]
    let opened := (ofSettings bracketed).performAll (lines "__NOP__(")
    let other := (ofSettings bracketed).performAll (lines "__NOP__; __NOP__;")
    let session : Session Unit := { opened with tree := other.tree }
    session.nesting.blocks = [.node ⟨1, 0⟩] ∧ session.tree.size = 3 ∧
    (session.statementsOf "__NOP__; __NOP__;)").length = 3 ∧
    session.Takes (session.statementsOf "__NOP__; __NOP__;)")
      (session.submit "__NOP__; __NOP__;)" ()).2.1.tree ∧
    (session.submit "__NOP__; a;" ()).2.1.tree = session.tree := by
  intro lines opened other session
  have hother : Reachable bracketed other := Reachable.start.performAll (lines "__NOP__; __NOP__;")
  have reached : Reachable bracketed session :=
    (Reachable.start.performAll (lines "__NOP__(")).exchangeTree hother.sound.tree
  have silent : ¬ session.Objects "__NOP__; __NOP__;)" () := by
    rw [objects_iff]
    decide +kernel
  have heard : session.Objects "__NOP__; a;" () := by
    rw [objects_iff]
    decide +kernel
  exact ⟨by decide +kernel, by decide +kernel, by decide +kernel,
    (submit_all_or_nothing reached _ ()).2 silent, ((submit_all_or_nothing reached _ ()).1 heard).1⟩

end Session

end CommandEngine
