import CommandEngine.Proofs.Batch.Planting
import Mathlib.Data.Finset.Card
/-!
# Matching the marks of a batch

Staging keeps a stack of places: an opening mark pushes one, a closing mark pops one if there is
one. What comes of it can be said without a stack. Match every closing mark with the innermost block
that is open before it, which is the one opened last in the batch or, failing that, the innermost of
those carried over from earlier text; a closing mark for which there is none means nothing
(`Batch.Matching`). Then the innermost open block alone tells where a command belongs
(`Batch.HasPlace`), and a batch that can be staged is staged just so (`Batch.stage_nests`).

Two stacks are followed through the batch side by side, one of blocks (`Batch.openAt`) and one of
places (`Batch.nestingAt`). The first holds what is open at each position, whatever the matching
(`Batch.Matching.stacked`), so that there is but one matching; the second holds the places of the
first (`Batch.blocks_nestingAt`).
-/

namespace CommandEngine

namespace Batch

/-- A block that a closing mark may close. -/
inductive Block
  | /-- A block of the batch, by the position of its opening mark. -/
    opened (start : Nat)
  | /-- A block that was open before the batch, counted from the innermost. -/
    carried (index : Nat)
  deriving DecidableEq

/-- Whether a block lies inside another one, both being open: blocks of the batch are inside all
carried ones, and of two of them the one opened later is inside. -/
inductive Block.Inside : Block → Block → Prop
  | later {start later : Nat} (after : start < later) : Inside (.opened later) (.opened start)
  | new (start index : Nat) : Inside (.opened start) (.carried index)
  | inner {index outer : Nat} (before : index < outer) : Inside (.carried index) (.carried outer)

theorem Block.Inside.asymm {block other : Block} (inside : block.Inside other) :
    ¬other.Inside block := by
  intro outside
  cases inside with
  | later after =>
      cases outside with
      | later before => exact Nat.lt_asymm after before
  | new start index => cases outside
  | inner before =>
      cases outside with
      | inner after => exact Nat.lt_asymm before after

theorem Block.Inside.ne {block other : Block} (inside : block.Inside other) : block ≠ other := by
  rintro rfl
  exact inside.asymm inside

/-- The number of commands in a batch; a command without words is none. -/
def commandCount (statements : List Statement) : Nat :=
  (statements.filterMap Statement.name?).length

section Marks

variable (statements : List Statement) (nesting : Nesting) (partner : Nat → Option Block)

/-- A block has begun before a position: its mark stands there, or it was carried over. -/
def HasBegun (stop : Nat) : Block → Prop
  | .opened start => start < stop ∧ statements[start]? = some .openBlock
  | .carried index => index < nesting.depth

/-- A block is open at a position: it has begun before, and no closing mark before the position is
matched with it. -/
def IsOpen (stop : Nat) (block : Block) : Prop :=
  HasBegun statements nesting stop block ∧
    ∀ position < stop, statements[position]? = some .closeBlock → partner position ≠ some block

/-- The innermost of the blocks that are open at a position, if there is one. -/
inductive Innermost (stop : Nat) : Option Block → Prop
  | block {block : Block} (isOpen : IsOpen statements nesting partner stop block)
      (inside : ∀ other, IsOpen statements nesting partner stop other →
        other = block ∨ block.Inside other) : Innermost stop (some block)
  | none (closed : ∀ block, ¬IsOpen statements nesting partner stop block) : Innermost stop none

/-- Where a command at a position belongs. If the innermost open block was opened in the batch, that
is below the command last before its mark: one of the batch if there is one, else the one written
last before the batch, and if there was none either, wherever a command in place of the mark would
belong. A carried block has its place already, and without any block it is the anchor. -/
inductive HasPlace : Nat → Place → Prop
  | afterCommand {stop start count : Nat}
      (innermost : Innermost statements nesting partner stop (some (.opened start)))
      (hcount : commandCount (statements.take start) = count + 1) :
      HasPlace stop (.staged count)
  | afterEarlier {stop start : Nat} {place : Place}
      (innermost : Innermost statements nesting partner stop (some (.opened start)))
      (hcount : commandCount (statements.take start) = 0)
      (hlast : nesting.last = some place) : HasPlace stop place
  | likeMark {stop start : Nat} {place : Place}
      (innermost : Innermost statements nesting partner stop (some (.opened start)))
      (hcount : commandCount (statements.take start) = 0)
      (hlast : nesting.last = none)
      (mark : HasPlace start place) : HasPlace stop place
  | carried {stop index : Nat} {place : Place}
      (innermost : Innermost statements nesting partner stop (some (.carried index)))
      (hplace : nesting.blocks[index]? = some place) : HasPlace stop place
  | anchor {stop : Nat} (innermost : Innermost statements nesting partner stop none) :
      HasPlace stop .anchor

/-- A matching of the closing marks of a batch: each closes the innermost block open before it, and
none if no block is. -/
structure Matching where
  partner : Nat → Option Block
  innermost : ∀ stop, statements[stop]? = some .closeBlock →
    Innermost statements nesting partner stop (partner stop)

end Marks

variable {statements : List Statement} {nesting : Nesting} {partner : Nat → Option Block}

theorem Innermost.unique {stop : Nat} {first second : Option Block}
    (hfirst : Innermost statements nesting partner stop first)
    (hsecond : Innermost statements nesting partner stop second) : first = second := by
  cases hfirst with
  | block isOpen inside =>
      cases hsecond with
      | block isOpen' inside' =>
          rcases inside _ isOpen' with same | less
          · rw [same]
          rcases inside' _ isOpen with same | more
          · rw [same]
          exact absurd more less.asymm
      | none closed => exact absurd isOpen (closed _)
  | none closed =>
      cases hsecond with
      | block isOpen => exact absurd isOpen (closed _)
      | none => rfl

section Stack

variable (statements nesting)

/-- The open blocks before a position, from the inside outwards, found by a stack. -/
def openAt : Nat → List Block
  | 0 => (List.range nesting.depth).map .carried
  | position + 1 =>
    match statements[position]? with
    | some .openBlock => .opened position :: openAt position
    | some .closeBlock => (openAt position).tail
    | _ => openAt position

variable (partner)

/-- The stack at a position holds the blocks open there, from the inside outwards. -/
structure Stacked (position : Nat) : Prop where
  mem_iff : ∀ block,
    block ∈ openAt statements nesting position ↔ IsOpen statements nesting partner position block
  sorted : (openAt statements nesting position).Pairwise Block.Inside
  started : ∀ stop < position, statements[stop]? = some .closeBlock →
    ∀ start, partner stop = some (.opened start) → start < stop

end Stack

private theorem hasBegun_succ_iff {position : Nat} {block : Block} :
    HasBegun statements nesting (position + 1) block ↔
      HasBegun statements nesting position block ∨
        statements[position]? = some .openBlock ∧ block = .opened position := by
  cases block with
  | opened start =>
      simp only [HasBegun, Block.opened.injEq, Nat.lt_succ_iff_lt_or_eq]
      constructor
      · rintro ⟨before | rfl, hmark⟩
        · exact .inl ⟨before, hmark⟩
        · exact .inr ⟨hmark, rfl⟩
      · rintro (⟨before, hmark⟩ | ⟨hmark, rfl⟩)
        · exact ⟨.inl before, hmark⟩
        · exact ⟨.inr rfl, hmark⟩
  | carried index => simp [HasBegun]

/-- What is open after a statement was open before it or is opened by it, and is not closed by
it. -/
private theorem isOpen_succ_iff {position : Nat} {block : Block}
    (started : ∀ stop < position, statements[stop]? = some .closeBlock →
      partner stop ≠ some (.opened position)) :
    IsOpen statements nesting partner (position + 1) block ↔
      (IsOpen statements nesting partner position block ∨
        statements[position]? = some .openBlock ∧ block = .opened position) ∧
      (statements[position]? = some .closeBlock → partner position ≠ some block) := by
  rw [IsOpen, hasBegun_succ_iff, Nat.forall_lt_succ_right, IsOpen]
  constructor
  · rintro ⟨begun | ⟨hmark, rfl⟩, closed, spared⟩
    · exact ⟨.inl ⟨begun, closed⟩, spared⟩
    · exact ⟨.inr ⟨hmark, rfl⟩, spared⟩
  · rintro ⟨⟨begun, closed⟩ | ⟨hmark, rfl⟩, spared⟩
    · exact ⟨.inl begun, closed, spared⟩
    · exact ⟨.inr ⟨hmark, rfl⟩, started, spared⟩

/-- A block about to be opened is inside all that have begun. -/
theorem HasBegun.inside {position : Nat} {block : Block}
    (begun : HasBegun statements nesting position block) :
    (Block.opened position).Inside block := by
  cases block with
  | opened start => exact .later begun.1
  | carried index => exact .new position index

namespace Stacked

variable {position : Nat}

theorem zero : Stacked statements nesting partner 0 where
  mem_iff block := by
    cases block <;> simp [openAt, IsOpen, HasBegun]
  sorted := List.pairwise_map.2 (List.pairwise_lt_range.imp .inner)
  started := nofun

/-- The top of the stack is the innermost open block. -/
theorem innermost (stacked : Stacked statements nesting partner position) :
    Innermost statements nesting partner position (openAt statements nesting position).head? := by
  have hsorted := stacked.sorted
  have hmem := stacked.mem_iff
  cases hstack : openAt statements nesting position with
  | nil =>
      rw [hstack] at hmem
      exact .none fun block isOpen => List.not_mem_nil ((hmem block).2 isOpen)
  | cons top rest =>
      rw [hstack] at hsorted hmem
      refine .block ((hmem top).1 List.mem_cons_self) fun other isOpen => ?_
      exact (List.mem_cons.1 ((hmem other).2 isOpen)).imp_right
        (List.rel_of_pairwise_cons hsorted)

/-- Popping the stack removes the block on top and no other. -/
theorem mem_tail_iff (stacked : Stacked statements nesting partner position) {block : Block} :
    block ∈ (openAt statements nesting position).tail ↔
      block ∈ openAt statements nesting position ∧
        (openAt statements nesting position).head? ≠ some block := by
  have hsorted := stacked.sorted
  cases hstack : openAt statements nesting position with
  | nil => simp
  | cons top rest =>
      rw [hstack] at hsorted
      have once {block : Block} (here : block ∈ rest) : top ≠ block :=
        (List.rel_of_pairwise_cons hsorted here).ne
      rw [List.tail_cons, List.head?_cons, List.mem_cons, Ne, Option.some.injEq]
      constructor
      · exact fun here => ⟨.inr here, once here⟩
      · rintro ⟨rfl | here, other⟩
        · exact absurd rfl other
        · exact here

/-- A statement does to the stack what it does to the open blocks, provided that a closing mark
closes the block on top. -/
theorem succ (stacked : Stacked statements nesting partner position)
    (agree : statements[position]? = some .closeBlock →
      partner position = (openAt statements nesting position).head?) :
    Stacked statements nesting partner (position + 1) := by
  -- Nothing closes a block in advance; of a function that is not known to be a matching yet, this
  -- has to be carried along.
  have started : ∀ stop < position, statements[stop]? = some .closeBlock →
      partner stop ≠ some (.opened position) := fun stop before hmark closes =>
    Nat.lt_asymm before (stacked.started stop before hmark position closes)
  refine { mem_iff := fun block => ?_, sorted := ?_, started := ?_ }
  · rw [isOpen_succ_iff started, ← stacked.mem_iff, openAt]
    split
    case h_1 hmark => simp [hmark, or_comm]
    case h_2 hmark => simp [hmark, agree hmark, stacked.mem_tail_iff]
    case h_3 hopen hclose =>
      rw [or_iff_left fun ⟨hmark, _⟩ => hopen hmark, and_iff_left fun hmark => absurd hmark hclose]
  · rw [openAt]
    split
    · exact List.pairwise_cons.2
        ⟨fun block here => ((stacked.mem_iff block).1 here).1.inside, stacked.sorted⟩
    · exact stacked.sorted.tail
    · exact stacked.sorted
  · refine Nat.forall_lt_succ_right.2 ⟨stacked.started, fun hmark start closes => ?_⟩
    rw [agree hmark] at closes
    exact ((stacked.mem_iff _).1 (List.mem_of_head? closes)).1.1

end Stacked

/-- The matching that the stack finds. -/
def Matching.ofStack (statements : List Statement) (nesting : Nesting) :
    Matching statements nesting where
  partner position := (openAt statements nesting position).head?
  innermost stop _ := by
    have stacked : ∀ position,
        Stacked statements nesting (fun position => (openAt statements nesting position).head?)
          position := by
      intro position
      induction position with
      | zero => exact .zero
      | succ position ih => exact ih.succ fun _ => rfl
    exact (stacked stop).innermost

/-- In every matching, the stack holds the open blocks. -/
theorem Matching.stacked (matching : Matching statements nesting) (position : Nat) :
    Stacked statements nesting matching.partner position := by
  induction position with
  | zero => exact .zero
  | succ position ih =>
      exact ih.succ fun hmark => (matching.innermost position hmark).unique ih.innermost

/-! ## The stack of places -/

section Places

theorem commandCount_take_succ (position : Nat) :
    commandCount (statements.take (position + 1)) =
      commandCount (statements.take position) +
        (statements[position]?.bind Statement.name?).toList.length := by
  rw [commandCount, List.take_add_one, List.filterMap_append, List.length_append]
  cases statements[position]? <;> rfl

variable (statements nesting)

/-- The nesting before a position. -/
def nestingAt : Nat → Nesting
  | 0 => nesting
  | position + 1 =>
    match statements[position]? with
    | some .openBlock => (nestingAt position).enter
    | some .closeBlock => (nestingAt position).leave
    | some (.command (_ :: _)) =>
      (nestingAt position).wrote (commandCount (statements.take position))
    | _ => nestingAt position

/-- The place of a block: the command written last before its mark, or else where a command in place
of the mark would belong. -/
def placeOf : Block → Place
  | .opened start =>
    (nestingAt statements nesting start).last.getD (nestingAt statements nesting start).current
  | .carried index => nesting.blocks.getD index .anchor

/-- The nesting holds the places of the open blocks. -/
theorem blocks_nestingAt (position : Nat) :
    (nestingAt statements nesting position).blocks =
      (openAt statements nesting position).map (placeOf statements nesting) := by
  induction position with
  | zero =>
      refine List.ext_getElem (by simp [nestingAt, openAt, Nesting.depth]) fun index here _ => ?_
      simp only [nestingAt] at here
      simp [nestingAt, openAt, placeOf, here]
  | succ position ih =>
      rcases hmark : statements[position]? with _ | (_ | ⟨name, words⟩) | _ | _ <;>
        simp only [nestingAt, openAt, hmark]
      case none => exact ih
      case some.command.nil => exact ih
      case some.command.cons => exact ih
      case some.openBlock => exact congrArg (_ :: ·) ih
      case some.closeBlock => rw [Nesting.leave, ih, List.map_tail]

/-- The command written last is the last one of the batch, if there is one before the position. -/
theorem last_nestingAt (position : Nat) :
    (nestingAt statements nesting position).last =
      match commandCount (statements.take position) with
      | 0 => nesting.last
      | count + 1 => some (.staged count) := by
  induction position with
  | zero => rfl
  | succ position ih =>
      rw [commandCount_take_succ]
      rcases hmark : statements[position]? with _ | (_ | ⟨name, words⟩) | _ | _ <;>
        simp only [nestingAt, hmark]
      case none => exact ih
      case some.command.nil => exact ih
      case some.command.cons => rfl
      case some.openBlock => exact ih
      case some.closeBlock => exact ih

variable {statements nesting} in
/-- All places of the batch that the nesting holds are those of commands before the position. -/
theorem stagedBelow_nestingAt (settled : nesting.IsSettled) (position : Nat) :
    (nestingAt statements nesting position).StagedBelow
      (commandCount (statements.take position)) := by
  induction position with
  | zero => exact settled
  | succ position ih =>
      rw [commandCount_take_succ]
      rcases hmark : statements[position]? with _ | (_ | ⟨name, words⟩) | _ | _ <;>
        simp only [nestingAt, hmark]
      case none => exact ih
      case some.command.nil => exact ih
      case some.command.cons => exact ih.wrote
      case some.openBlock => exact ih.enter
      case some.closeBlock => exact ih.leave

variable {statements nesting}

/-- The parent of the next command is the place of the innermost open block. -/
theorem Matching.current_nestingAt (matching : Matching statements nesting) {position : Nat}
    {block : Option Block}
    (innermost : Innermost statements nesting matching.partner position block) :
    (nestingAt statements nesting position).current =
      (block.map (placeOf statements nesting)).getD .anchor := by
  have top := innermost.unique (matching.stacked position).innermost
  rw [Nesting.current, blocks_nestingAt, List.headD_eq_head?_getD, List.head?_map, top]

/-- A position has no other place than the parent that the nesting gives. -/
theorem HasPlace.eq_current {matching : Matching statements nesting} {position : Nat}
    {place : Place} (hplace : HasPlace statements nesting matching.partner position place) :
    place = (nestingAt statements nesting position).current := by
  induction hplace with
  | afterCommand innermost hcount =>
      rw [matching.current_nestingAt innermost]
      simp [placeOf, last_nestingAt, hcount]
  | afterEarlier innermost hcount hlast =>
      rw [matching.current_nestingAt innermost]
      simp [placeOf, last_nestingAt, hcount, hlast]
  | likeMark innermost hcount hlast mark ih =>
      rw [matching.current_nestingAt innermost]
      simp [placeOf, last_nestingAt, hcount, hlast, ih]
  | carried innermost hplace =>
      rw [matching.current_nestingAt innermost]
      simp [placeOf, hplace]
  | anchor innermost =>
      rw [matching.current_nestingAt innermost]
      rfl

/-- Every position has a place. An opened block asks for the place of its mark, which stands before
the position, and so the induction is on positions. -/
theorem Matching.hasPlace_current (matching : Matching statements nesting) (position : Nat) :
    HasPlace statements nesting matching.partner position
      (nestingAt statements nesting position).current := by
  induction position using Nat.strongRecOn with
  | ind position ih =>
      have innermost := (matching.stacked position).innermost
      rw [matching.current_nestingAt innermost]
      generalize (openAt statements nesting position).head? = top at innermost
      rcases innermost with @⟨start | index, isOpen, inside⟩ | ⟨closed⟩
      · have hlast := last_nestingAt statements nesting start
        rw [Option.map_some, Option.getD_some, placeOf, hlast]
        cases hcount : commandCount (statements.take start) with
        | succ count => exact .afterCommand (.block isOpen inside) hcount
        | zero =>
            cases hearlier : nesting.last with
            | some place => exact .afterEarlier (.block isOpen inside) hcount hearlier
            | none =>
                exact .likeMark (.block isOpen inside) hcount hearlier (ih start isOpen.1.1)
      · have hplace := List.getElem?_eq_getElem (l := nesting.blocks) isOpen.1
        rw [Option.map_some, Option.getD_some, placeOf, List.getD_eq_getElem?_getD, hplace]
        exact .carried (.block isOpen inside) hplace
      · exact .anchor (.none closed)

end Places

/-! ## Staging -/

section Staging

variable {ω : Type} {catalog : Catalog ω} {builder : Builder ω} {position : Nat}
  {staged : List Staged}

/-- The commands before a position have been staged where the nesting put them. -/
structure StagedTo (catalog : Catalog ω) (builder : Builder ω) (statements : List Statement)
    (nesting : Nesting) (position : Nat) (staged : List Staged) : Prop where
  length_eq : staged.length = commandCount (statements.take position)
  command : ∀ stop < position, ∀ name words,
    statements[stop]? = some (.command (name :: words)) →
    ∃ one, staged[commandCount (statements.take stop)]? = some one ∧
      build catalog builder name words = .ok one.invocation ∧
      one.place = (nestingAt statements nesting stop).current
  earlier : ∀ (number : Nat) (one : Staged) (index : Nat), staged[number]? = some one →
    one.place = .staged index → index < number

theorem StagedTo.zero : StagedTo catalog builder statements nesting 0 [] where
  length_eq := rfl
  command := nofun
  earlier := nofun

/-- A statement that is no command adds nothing. -/
theorem StagedTo.idle (done : StagedTo catalog builder statements nesting position staged)
    (idle : statements[position]?.bind Statement.name? = none) :
    StagedTo catalog builder statements nesting (position + 1) staged where
  length_eq := by
    rw [done.length_eq, commandCount_take_succ, idle]
    rfl
  command := Nat.forall_lt_succ_right.2 ⟨done.command, fun name words hcommand => by
    rw [hcommand] at idle
    cases idle⟩
  earlier := done.earlier

/-- A command is staged below the parent of its position. -/
theorem StagedTo.concat (settled : nesting.IsSettled)
    (done : StagedTo catalog builder statements nesting position staged) {name : String}
    {words : List String} {invocation : Invocation}
    (hcommand : statements[position]? = some (.command (name :: words)))
    (hbuild : build catalog builder name words = .ok invocation) :
    StagedTo catalog builder statements nesting (position + 1)
      (staged ++ [⟨(nestingAt statements nesting position).current, invocation⟩]) where
  length_eq := by
    rw [List.length_append, done.length_eq, commandCount_take_succ, hcommand]
    rfl
  command := by
    refine Nat.forall_lt_succ_right.2 ⟨fun stop before other more hother => ?_, ?_⟩
    · obtain ⟨one, here, built⟩ := done.command stop before other more hother
      have within := (List.getElem?_eq_some_iff.1 here).1
      exact ⟨one, (List.getElem?_append_left within).trans here, built⟩
    · intro other more hother
      rw [hcommand] at hother
      cases hother
      exact ⟨_, by rw [← done.length_eq, List.getElem?_concat_length], hbuild, rfl⟩
  earlier := by
    intro number one index here hplace
    rcases Nat.lt_trichotomy number staged.length with before | rfl | after
    · rw [List.getElem?_append_left before] at here
      exact done.earlier number one index here hplace
    · rw [List.getElem?_concat_length] at here
      cases here
      rw [done.length_eq]
      exact current_staged_lt (stagedBelow_nestingAt settled position) index hplace
    · rw [List.getElem?_eq_none (by rwa [List.length_append])] at here
      cases here

/-- Staging the rest of a batch goes through its positions in turn. -/
theorem StagedTo.stageFrom (settled : nesting.IsSettled) {front rest : List Statement}
    {all : List Staged} {last : Nesting} (split : front ++ rest = statements)
    (done : StagedTo catalog builder statements nesting front.length staged)
    (hstage : Batch.stageFrom catalog builder rest (nestingAt statements nesting front.length)
      staged = (.ok all, last)) :
    StagedTo catalog builder statements nesting statements.length all ∧
      last = nestingAt statements nesting statements.length := by
  induction rest generalizing front staged with
  | nil =>
      cases hstage
      rw [List.append_nil] at split
      subst split
      exact ⟨done, rfl⟩
  | cons statement rest ih =>
      have here : statements[front.length]? = some statement := by simp [← split]
      have next {staged : List Staged} := @ih staged (front ++ [statement]) (by simpa using split)
      rw [List.length_append, List.length_singleton, nestingAt, here] at next
      rcases statement with (_ | ⟨name, words⟩) | _ | _
      · exact next (done.idle (by rw [here]; rfl)) hstage
      · rw [Batch.stageFrom] at hstage
        split at hstage
        · cases hstage
        case h_2 invocation hbuild =>
          rw [done.length_eq] at hstage
          exact next (done.concat settled here hbuild) hstage
      · exact next (done.idle (by rw [here]; rfl)) hstage
      · exact next (done.idle (by rw [here]; rfl)) hstage

/-- What the marks of a batch mean for its commands and for the nesting after it. -/
structure Nests (catalog : Catalog ω) (builder : Builder ω) (statements : List Statement)
    (nesting : Nesting) (staged : List Staged) (last : Nesting) : Prop where
  length_eq : staged.length = commandCount statements
  matchable : Nonempty (Matching statements nesting)
  /-- The staged commands are in the order of the batch; each was built from its words, and its
  place is the one that the matching gives to its position. -/
  command : ∀ (matching : Matching statements nesting) (stop : Nat) (name : String)
    (words : List String), statements[stop]? = some (.command (name :: words)) →
    ∃ one, staged[commandCount (statements.take stop)]? = some one ∧
      build catalog builder name words = .ok one.invocation ∧
      ∀ place, HasPlace statements nesting matching.partner stop place ↔ place = one.place
  earlier : ∀ (number : Nat) (one : Staged) (index : Nat), staged[number]? = some one →
    one.place = .staged index → index < number
  /-- The depth afterwards is the number of blocks, new and carried, that are left open. -/
  depth_eq : ∀ matching : Matching statements nesting, ∃ left : Finset Block,
    (∀ block, block ∈ left ↔
      IsOpen statements nesting matching.partner statements.length block) ∧
    last.depth = left.card

/-- A batch that can be staged is nested by its marks. -/
theorem stage_nests {last : Nesting} (settled : nesting.IsSettled)
    (hstage : stage catalog builder statements nesting = (.ok staged, last)) :
    Nests catalog builder statements nesting staged last := by
  rw [stage] at hstage
  split at hstage
  · cases hstage
  obtain ⟨done, rfl⟩ := StagedTo.stageFrom settled (List.nil_append statements) .zero hstage
  refine { length_eq := ?_, matchable := ⟨.ofStack statements nesting⟩, command := ?_,
           earlier := done.earlier, depth_eq := ?_ }
  · rw [done.length_eq, List.take_length]
  · intro matching stop name words hcommand
    have within := (List.getElem?_eq_some_iff.1 hcommand).1
    obtain ⟨one, here, hbuild, hplace⟩ := done.command stop within name words hcommand
    refine ⟨one, here, hbuild, fun place => ?_⟩
    rw [hplace]
    exact ⟨HasPlace.eq_current, fun same => same ▸ matching.hasPlace_current stop⟩
  · intro matching
    have stacked := matching.stacked statements.length
    have nodup : (openAt statements nesting statements.length).Nodup :=
      stacked.sorted.imp Block.Inside.ne
    refine ⟨⟨openAt statements nesting statements.length, nodup⟩, stacked.mem_iff, ?_⟩
    rw [Nesting.depth, blocks_nestingAt, List.length_map]
    rfl

/-- A block has been opened, and no command written yet. -/
def opening : Nesting := { blocks := [.anchor] }

/-- The first closing mark closes the block carried in and the second one nothing. The block after
them begins before any command and stays open; the other one is below a command inside it. -/
def strayMarks : List Statement :=
  [.closeBlock, .closeBlock, .openBlock, .command [idleCommand], .openBlock,
    .command [idleCommand], .closeBlock, .command [idleCommand]]

/-- The commands of the block that begins before any command belong where its mark does. -/
theorem stage_nests_strayMarks :
    let catalog : Catalog Unit := .initial
    let closes := (Matching.ofStack strayMarks opening).partner
    opening.IsSettled ∧ closes 0 = some (.carried 0) ∧ closes 1 = none ∧
      closes 6 = some (.opened 4) ∧
      ∃ staged last, stage catalog .standard strayMarks opening = (.ok staged, last) ∧
        staged.map (·.place) = [.anchor, .staged 0, .anchor] ∧ last.depth = 1 ∧
        Nests catalog .standard strayMarks opening staged last := by
  intro catalog closes
  have settled : opening.IsSettled := fun index here => by simp [opening, Nesting.places] at here
  exact ⟨settled, by decide +kernel, by decide +kernel, by decide +kernel, _, _, rfl,
    by decide +kernel, by decide +kernel, stage_nests settled rfl⟩

end Staging

end Batch

end CommandEngine
