import CommandEngine.Batch.Staging
import CommandEngine.Forest.Edit
import CommandEngine.Forest.Execution
/-!
# Attaching a batch

A staged batch becomes nodes of the tree, in order. The nodes that it hangs below may have been
edited away since their blocks were opened, so these are checked first; then the tree gets a head if
it has none, and then every invocation is inserted below its place. The node of a command of the
same batch is looked up by its number among the nodes made so far.
-/

namespace CommandEngine

/-- Why a batch cannot be attached. -/
inductive AttachmentError
  | /-- The builder refused to make the head. -/
    catalog (cause : CatalogError)
  | forest (cause : ForestError)
  deriving DecidableEq

/-- The handle of the node at a place, if there is one. -/
def Place.handle? (anchor : Handle) (nodes : List Handle) : Place → Option Handle
  | .anchor => some anchor
  | .node handle => some handle
  | .staged index => nodes[index]?

/-- The node that a place needs to be part of the tree already. -/
def Place.required? : Place → Option Handle
  | .anchor => none
  | .node handle => some handle
  | .staged _ => none

namespace Batch

variable {ω : Type}

/-- The first node that a batch hangs below and that is no part of the tree. -/
def firstLost? (tree : InvocationTree) (staged : List Staged) : Option Handle :=
  (staged.filterMap (·.place.required?)).find? fun handle => !tree.inTree handle

/-- The head of the tree; a tree without one gets the idle command as its head. -/
def anchor (catalog : Catalog ω) (builder : Builder ω) (tree : InvocationTree) :
    Except AttachmentError Handle × InvocationTree :=
  match tree.head with
  | some head => (.ok head, tree)
  | none =>
    match builder idleCommand [] catalog with
    | .error cause => (.error (.catalog cause), tree)
    | .ok idle =>
      let (inserted, tree) := tree.insert none idle
      (inserted.mapError .forest, tree)

/-- Insert invocations below their places, after the nodes made already. -/
def insertAll (anchor : Handle) :
    List Staged → List Handle → InvocationTree →
      Except AttachmentError (List Handle) × InvocationTree
  | [], nodes, tree => (.ok nodes, tree)
  | ⟨place, invocation⟩ :: rest, nodes, tree =>
    match tree.insert (place.handle? anchor nodes) invocation with
    | (.error cause, tree) => (.error (.forest cause), tree)
    | (.ok handle, tree) => insertAll anchor rest (nodes ++ [handle]) tree

/-- Attach a staged batch: its nodes, in the order of staging, or why it cannot be attached. -/
def attach (catalog : Catalog ω) (builder : Builder ω) (staged : List Staged)
    (tree : InvocationTree) : Except AttachmentError (List Handle) × InvocationTree :=
  match firstLost? tree staged with
  | some handle => (.error (.forest (.outsideTree handle)), tree)
  | none =>
    match anchor catalog builder tree with
    | (.error cause, tree) => (.error cause, tree)
    | (.ok head, tree) => insertAll head staged [] tree

end Batch

end CommandEngine
