import CommandEngine.Forest
/-!
# Walking up and down a forest

Upwards, a node has a lineage: itself, its parent, the parent of that, and so on. Downwards, it has
a subtree, which is listed in pre-order: a node first, then the subtrees of its children one after
the other. A node belongs to the tree proper when its lineage ends in the head.

Links are plain handles, so neither walk ends by its form. Both end because no lineage meets a node
twice: a lineage is at most as long as the arena, and so is the list of a subtree. The length of the
arena is therefore enough fuel for either, and the walks below carry it where no caller sees it.

The subtree is listed twice, once with an explicit list of nodes still to visit and once by
recursion on the children. The first is the one that runs; the second says what it should be.
-/

namespace CommandEngine.Forest

variable {α : Type}

/-- The first nodes of a lineage, at most one more than the fuel. -/
def lineageFor (f : Forest α) : Nat → Handle → List Handle
  | 0, handle => [handle]
  | fuel + 1, handle =>
    match f.parent? handle with
    | some parent => handle :: f.lineageFor fuel parent
    | none => [handle]

/-- A node followed by all nodes above it. -/
def lineage (f : Forest α) (handle : Handle) : List Handle := f.lineageFor f.nodes.size handle

/-- Whether a node belongs to the tree proper. -/
def inTree (f : Forest α) (handle : Handle) : Bool :=
  f.contains handle && (f.lineage handle).getLast? == f.head

/-- The subtrees of the nodes still to visit, at most as many nodes as the fuel. -/
def visitFor (f : Forest α) : Nat → List Handle → List Handle
  | 0, _ => []
  | _ + 1, [] => []
  | fuel + 1, handle :: waiting => handle :: f.visitFor fuel (f.children handle ++ waiting)

/-- A node and all nodes below it, in pre-order. -/
def preorder (f : Forest α) (handle : Handle) : List Handle :=
  if f.contains handle then f.visitFor f.nodes.size [handle] else []

def countBelow (f : Forest α) (handle : Handle) : Nat := (f.preorder handle).length - 1

/-- A node and the nodes at most as many levels below it as the fuel, by recursion. -/
def subtreeFor (f : Forest α) : Nat → Handle → List Handle
  | 0, handle => [handle]
  | fuel + 1, handle => handle :: (f.children handle).flatMap (f.subtreeFor fuel)

/-- A node and all nodes below it, by recursion on the children. -/
def subtree (f : Forest α) (handle : Handle) : List Handle := f.subtreeFor f.nodes.size handle

/-- The nodes at most as many levels below a node as the fuel, each with its depth. -/
def outlineFor (f : Forest α) : Nat → Nat → Handle → List (Nat × Handle)
  | 0, depth, handle => [(depth, handle)]
  | fuel + 1, depth, handle =>
    (depth, handle) :: (f.children handle).flatMap (f.outlineFor fuel (depth + 1))

/-- The tree proper in pre-order, each node with its depth below the head. -/
def outline (f : Forest α) : List (Nat × Handle) :=
  match f.head with
  | some head => f.outlineFor f.nodes.size 0 head
  | none => []

end CommandEngine.Forest
