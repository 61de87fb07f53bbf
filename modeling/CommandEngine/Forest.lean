/-!
# Forests of nodes

Nodes live in one arena and are addressed by handles. A node knows its parent and its children by
their handles, so a subtree can be taken out of the tree and put back as a whole without touching
what is below its root. One node may be the head; the nodes below the head, with the head itself,
form the tree proper, and all others wait, alone or in trees of their own, to be attached.

Clearing drops all nodes at once. A handle records how often the forest had been cleared when the
handle was issued, so a handle to a dropped node is never mistaken for one to a later node in the
same place. `Forest.node?` is the single way from a handle to a node and makes that comparison;
every other view of a node goes through it.
-/

namespace CommandEngine

/-- The address of a node. -/
structure Handle where
  index : Nat
  /-- How often the forest had been cleared when the node was created. -/
  epoch : UInt64
  deriving DecidableEq

def Handle.description (handle : Handle) : String :=
  "NodeId \x7b index: " ++ toString handle.index ++ ", epoch: "
    ++ toString handle.epoch.toNat ++ " \x7d"

/-- A node of a forest. -/
structure Node (α : Type) where
  label : α
  parent : Option Handle := none
  children : List Handle := []
  deriving DecidableEq

/-- Nodes in trees, one of which may be the tree proper. -/
structure Forest (α : Type) where
  nodes : Array (Node α) := #[]
  /-- The root of the tree proper. -/
  head : Option Handle := none
  /-- The number of nodes of the tree proper. -/
  size : Nat := 0
  /-- How often the forest was cleared. -/
  epoch : UInt64 := 0
  deriving DecidableEq

namespace Forest

variable {α : Type}

/-- The node that a handle addresses. -/
def node? (f : Forest α) (handle : Handle) : Option (Node α) :=
  if handle.epoch = f.epoch then f.nodes[handle.index]? else none

/-- Whether a handle addresses a node. -/
def contains (f : Forest α) (handle : Handle) : Bool := (f.node? handle).isSome

/-- What a node stands for. -/
def label? (f : Forest α) (handle : Handle) : Option α := (f.node? handle).map Node.label

/-- The node above a node. -/
def parent? (f : Forest α) (handle : Handle) : Option Handle := (f.node? handle).bind Node.parent

/-- The nodes directly below a node, in order. -/
def children? (f : Forest α) (handle : Handle) : Option (List Handle) :=
  (f.node? handle).map Node.children

/-- The nodes directly below a node, none if the handle addresses no node. -/
def children (f : Forest α) (handle : Handle) : List Handle := (f.children? handle).getD []

/-- Whether the forest has no tree proper. -/
def isEmpty (f : Forest α) : Bool := f.head.isNone

/-- The forest with a node changed where it stands. -/
def modify (f : Forest α) (handle : Handle) (change : Node α → Node α) : Forest α :=
  if handle.epoch = f.epoch then { f with nodes := f.nodes.modify handle.index change } else f

/-- A change of one node is seen at its handle and at no other. -/
theorem node?_modify (f : Forest α) (handle other : Handle) (change : Node α → Node α) :
    (f.modify handle change).node? other =
      if handle = other then (f.node? other).map change else f.node? other := by
  by_cases current : handle.epoch = f.epoch
  · by_cases same : handle = other
    · subst same
      simp [modify, node?, current, Array.getElem?_modify]
    · rw [if_neg same]
      by_cases here : other.epoch = f.epoch
      · have apart : handle.index ≠ other.index := by
          intro equal
          apply same
          cases handle
          cases other
          simp_all
        simp [modify, node?, current, here, Array.getElem?_modify, apart]
      · simp [modify, node?, current, here]
  · by_cases same : handle = other
    · subst same
      simp [modify, node?, current]
    · simp [modify, node?, current, same]

@[simp]
theorem epoch_modify (f : Forest α) (handle : Handle) (change : Node α → Node α) :
    (f.modify handle change).epoch = f.epoch := by
  unfold modify
  split <;> rfl

@[simp]
theorem head_modify (f : Forest α) (handle : Handle) (change : Node α → Node α) :
    (f.modify handle change).head = f.head := by
  unfold modify
  split <;> rfl

@[simp]
theorem size_nodes_modify (f : Forest α) (handle : Handle) (change : Node α → Node α) :
    (f.modify handle change).nodes.size = f.nodes.size := by
  unfold modify
  split <;> simp

/-- The forest with the label of a node changed. -/
def modifyLabel (f : Forest α) (handle : Handle) (change : α → α) : Forest α :=
  f.modify handle fun node => { node with label := change node.label }

end Forest

end CommandEngine
