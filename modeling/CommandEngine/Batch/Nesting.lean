import CommandEngine.Forest
/-!
# Nesting of blocks

Commands between block marks are children of the command before the opening mark. Which command
that is may be settled by an earlier piece of text, by the batch being read, or not at all, so the
parent of a command is a `Place`: a node attached before, a command of the same batch that has no
node yet, or the anchor, which stands for the head of the tree.

A `Nesting` holds the places of the blocks that are open, innermost first, and the place of the
command written last. It outlives a batch: once the commands of the batch have nodes, settling the
nesting replaces their places by those nodes.
-/

namespace CommandEngine

/-- Where a command is attached. -/
inductive Place
  | /-- The head of the tree. -/
    anchor
  | node (handle : Handle)
  | /-- A command of the same batch, by its number from zero. -/
    staged (index : Nat)
  deriving DecidableEq

/-- The place once the commands of the batch have nodes; a command without a node leaves the
anchor. -/
def Place.settle (nodes : List Handle) : Place → Place
  | .anchor => .anchor
  | .node handle => .node handle
  | .staged index =>
    match nodes[index]? with
    | some handle => .node handle
    | none => .anchor

/-- The blocks that are open and the command written last. -/
structure Nesting where
  /-- The places of the open blocks, innermost first. -/
  blocks : List Place := []
  /-- The place of the command written last. -/
  last : Option Place := none
  deriving DecidableEq

namespace Nesting

def depth (nesting : Nesting) : Nat := nesting.blocks.length

def isOpen (nesting : Nesting) : Bool := !nesting.blocks.isEmpty

/-- The parent of the next command: the innermost open block, or the anchor. -/
def current (nesting : Nesting) : Place := nesting.blocks.headD .anchor

/-- Open a block below the command written last; before any command, below the current parent. -/
def enter (nesting : Nesting) : Nesting :=
  { nesting with blocks := nesting.last.getD nesting.current :: nesting.blocks }

/-- Close the innermost block, if one is open. -/
def leave (nesting : Nesting) : Nesting :=
  { nesting with blocks := nesting.blocks.tail }

/-- Remember a command of the batch as the one written last. -/
def wrote (nesting : Nesting) (index : Nat) : Nesting :=
  { nesting with last := some (.staged index) }

/-- The nesting once the commands of the batch have nodes. -/
def settle (nesting : Nesting) (nodes : List Handle) : Nesting :=
  { blocks := nesting.blocks.map (Place.settle nodes)
    last := nesting.last.map (Place.settle nodes) }

@[simp]
theorem depth_enter (nesting : Nesting) : nesting.enter.depth = nesting.depth + 1 := rfl

@[simp]
theorem depth_leave (nesting : Nesting) :
    nesting.leave.depth = nesting.depth - 1 := by
  simp [leave, depth]

@[simp]
theorem depth_settle (nesting : Nesting) (nodes : List Handle) :
    (nesting.settle nodes).depth = nesting.depth := by
  simp [settle, depth]

end Nesting

end CommandEngine
