import CommandEngine.Proofs.Batch.Planting
/-!
# The order of open blocks

A block is opened inside those that are open already, so the command before it was written after
theirs. As long as a tree is not cleared, later commands have greater handles. Hence, of two open
blocks in one epoch, the inner one never stands at the older node (`Nesting.Ordered`), and this
survives whatever else becomes of the tree: commands are removed, the tree is cleared or another one
takes its place.

It matters for a batch that is planted. The first command of the batch goes below the innermost
block that is still open by then, so the node of this block is in the tree. By the order, all blocks
around it stand at nodes that were issued earlier still, or in other epochs. None of them can be
mistaken for a node of the batch (`Batch.required_of_plant_of_ordered`).
-/

namespace CommandEngine

/-- A block at the first place may be open around one at the second: if it stands at a node, so does
the other, and not at an older node of the same epoch. -/
def Place.MayEnclose (outer inner : Place) : Prop :=
  ∀ handle, outer = .node handle → ∃ within, inner = .node within ∧
    (handle.epoch = within.epoch → handle.index ≤ within.index)

theorem Place.mayEnclose_refl (place : Place) : place.MayEnclose place :=
  fun handle same => ⟨handle, same, fun _ => Nat.le_refl _⟩

namespace Nesting

variable {nesting : Nesting} {tree : InvocationTree} {anchor parent handle : Handle}

/-- The open blocks alone, which is all that the next command looks at. -/
def blocksOnly (nesting : Nesting) : Nesting := { nesting with last := none }

@[simp]
theorem mem_places_blocksOnly {place : Place} :
    place ∈ nesting.blocksOnly.places ↔ place ∈ nesting.blocks := by
  simp [blocksOnly, places]

/-- The open blocks, and inside all of them the command written last, stand in their order. -/
def Ordered (nesting : Nesting) : Prop :=
  (nesting.last.toList ++ nesting.blocks).Pairwise fun inner outer => outer.MayEnclose inner

theorem ordered_of_blocks_eq_nil (hblocks : nesting.blocks = []) : nesting.Ordered := by
  rw [Ordered, hblocks, List.append_nil]
  cases nesting.last with
  | none => exact .nil
  | some place => exact List.pairwise_singleton _ place

namespace Ordered

theorem blocks (ordered : nesting.Ordered) :
    nesting.blocks.Pairwise fun inner outer => outer.MayEnclose inner :=
  (List.pairwise_append.1 ordered).2.1

/-- A block may be opened once more where the innermost place is. -/
private theorem double {place : Place} {places : List Place}
    (ordered : (place :: places).Pairwise fun inner outer => outer.MayEnclose inner) :
    (place :: place :: places).Pairwise fun inner outer => outer.MayEnclose inner := by
  refine List.pairwise_cons.2 ⟨fun outer here => ?_, ordered⟩
  rcases List.mem_cons.1 here with rfl | outside
  · exact outer.mayEnclose_refl
  · exact (List.pairwise_cons.1 ordered).1 outer outside

theorem enter (ordered : nesting.Ordered) : nesting.enter.Ordered := by
  obtain ⟨blocks, last⟩ := nesting
  cases last with
  | some place => exact double ordered
  | none =>
      cases blocks with
      | nil => exact List.pairwise_singleton _ _
      | cons block rest => exact double ordered

theorem leave (ordered : nesting.Ordered) : nesting.leave.Ordered :=
  ordered.sublist ((List.tail_sublist nesting.blocks).append_left nesting.last.toList)

/-- If the next command goes below a node of the tree, all open blocks were issued before it. -/
theorem index_lt (ordered : nesting.Ordered)
    (hparent : nesting.current.handle? anchor [] = some parent)
    (attached : tree.inTree parent = true) (here : Place.node handle ∈ nesting.blocks)
    (current : handle.epoch = tree.epoch) : handle.index < tree.nodes.size := by
  have enclosed : (Place.node handle).MayEnclose nesting.current := by
    have inOrder := ordered.blocks
    obtain ⟨blocks, last⟩ := nesting
    cases blocks with
    | nil => cases here
    | cons block rest =>
        rcases List.mem_cons.1 here with rfl | outside
        · exact Place.mayEnclose_refl _
        · exact (List.pairwise_cons.1 inOrder).1 _ outside
  obtain ⟨within, hwithin, older⟩ := enclosed handle rfl
  rw [hwithin] at hparent
  cases hparent
  obtain ⟨hepoch, inside⟩ := Forest.contains_iff.1 (Forest.contains_of_inTree attached)
  exact Nat.lt_of_le_of_lt (older (current.trans hepoch.symm)) inside

theorem wroteAt (ordered : nesting.Ordered)
    (hparent : nesting.current.handle? anchor [] = some parent)
    (attached : tree.inTree parent = true) : (nesting.wroteAt tree.nextHandle).Ordered := by
  refine List.pairwise_cons.2 ⟨?_, ordered.blocks⟩
  rintro outer here handle rfl
  exact ⟨tree.nextHandle, rfl, fun current =>
    Nat.le_of_lt (ordered.index_lt hparent attached here current)⟩

end Ordered

/-- What a nesting is between two lines: no place waits for a node, and the blocks are in order. -/
structure IsProper (nesting : Nesting) : Prop where
  settled : nesting.IsSettled
  ordered : nesting.Ordered

theorem isProper_empty : IsProper {} := ⟨isSettled_empty, ordered_of_blocks_eq_nil rfl⟩

namespace IsProper

theorem enter (proper : nesting.IsProper) : nesting.enter.IsProper :=
  ⟨proper.settled.enter, proper.ordered.enter⟩

theorem leave (proper : nesting.IsProper) : nesting.leave.IsProper :=
  ⟨proper.settled.leave, proper.ordered.leave⟩

theorem wroteAt (proper : nesting.IsProper)
    (hparent : nesting.current.handle? anchor [] = some parent)
    (attached : tree.inTree parent = true) : (nesting.wroteAt tree.nextHandle).IsProper where
  settled := by
    intro index here
    rcases mem_places_of_mem_wroteAt here with absurd | old
    · cases absurd
    · exact proper.settled index old
  ordered := proper.ordered.wroteAt hparent attached

end IsProper

end Nesting

namespace Batch

variable {tree : InvocationTree} {anchor : Handle} {batch : List Item} {nesting : Nesting}

theorem isProper_of_plant {last : Nesting} {grown : InvocationTree} (wf : tree.WellFormed)
    (hanchor : tree.inTree anchor = true) (proper : nesting.IsProper)
    (hplant : plant anchor batch nesting tree = .ok (last, grown)) : last.IsProper :=
  plant_induction (P := fun nesting _ => nesting.IsProper) (fun proper => proper.enter)
    (fun proper => proper.leave)
    (fun _ _ hparent attached proper => proper.wroteAt hparent attached)
    wf hanchor proper hplant

/-- If planting succeeds, the old nodes that the batch hangs below are in place. Up to the first
command the tree is as it was; from then on no open block can be mistaken for a node of the batch,
whatever place is remembered as that of the last command. -/
theorem required_of_plant_of_ordered {grown : Nesting × InvocationTree} (wf : tree.WellFormed)
    (hanchor : tree.inTree anchor = true) (proper : nesting.IsProper)
    (hplant : plant anchor batch nesting tree = .ok grown) :
    ∀ one ∈ (stagedOf batch nesting 0).1, ∀ handle,
      one.place.required? = some handle → tree.inTree handle = true := by
  induction batch generalizing nesting with
  | nil => exact nofun
  | cons item rest ih =>
      cases item with
      | openBlock => exact ih proper.enter hplant
      | closeBlock => exact ih proper.leave hplant
      | command invocation =>
          obtain ⟨parent, hparent, attached, -⟩ := (plant_command_eq_ok_iff wf hanchor).1 hplant
          have hbound : nesting.blocksOnly.StagedBelow ([] : List Handle).length :=
            fun index here => proper.settled index
              (List.mem_append_left _ (Nesting.mem_places_blocksOnly.1 here))
          have hissued : nesting.blocksOnly.IssuedBefore tree := fun handle here =>
            proper.ordered.index_lt hparent attached (Nesting.mem_places_blocksOnly.1 here)
          -- Planting a command does not look at the command written last.
          have hplant' : plant anchor (.command invocation :: rest)
              (nesting.blocksOnly.settle []) tree = .ok grown := by
            rw [Nesting.settle_of_isSettled hbound]
            exact hplant
          exact required_of_plant wf hanchor hbound hissued hplant'

end Batch

end CommandEngine
