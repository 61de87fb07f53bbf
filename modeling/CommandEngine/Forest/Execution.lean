import CommandEngine.Forest.Traversal
import CommandEngine.Invocation.Execution
/-!
# Running a tree of invocations

The nodes of a command tree are invocations. A tree runs in pre-order from a given node, each
invocation completely before the next, up to the first that stops.
-/

namespace CommandEngine

/-- A forest whose nodes are invocations. -/
abbrev InvocationTree : Type := Forest Invocation

namespace InvocationTree

variable {ω : Type}

/-- Run the invocations at several nodes in turn, up to the first that stops. -/
def executeNodes (catalog : Catalog ω) (quotes : List Char) (tree : InvocationTree) :
    List Handle → ω → Except ExecutionError Unit × ω
  | [], world => (.ok (), world)
  | handle :: rest, world =>
    match tree.label? handle with
    | none => tree.executeNodes catalog quotes rest world
    | some invocation =>
      match invocation.execute catalog quotes world with
      | (.error cause, world) => (.error cause, world)
      | (.ok _, world) => tree.executeNodes catalog quotes rest world

/-- Run a node and all nodes below it. -/
def execute (catalog : Catalog ω) (quotes : List Char) (tree : InvocationTree) (handle : Handle)
    (world : ω) : Except ExecutionError Unit × ω :=
  tree.executeNodes catalog quotes (tree.preorder handle) world

end InvocationTree

end CommandEngine
