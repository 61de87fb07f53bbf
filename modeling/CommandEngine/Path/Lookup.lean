import CommandEngine.Forest.Traversal
import CommandEngine.Path
/-!
# Following a path

A path is followed from a node by taking its steps in turn. A step looks at the children of the node
reached so far, keeps those of the name it asks for, and takes the one after those it passes over.
The walk fails at the first step that finds no such child. A forest whose nodes have names is all it
needs, so the name of a node is a parameter.
-/

namespace CommandEngine.Forest

variable {α : Type}

/-- The children of a node that have a name, in order. -/
def childrenNamed (nameOf : α → String) (f : Forest α) (handle : Handle) (name : String) :
    List Handle :=
  (f.children handle).filter fun child => (f.label? child).map nameOf == some name

/-- The child that a step leads to. -/
def stepTo? (nameOf : α → String) (f : Forest α) (handle : Handle) (step : PathStep) :
    Option Handle :=
  (f.childrenNamed nameOf handle step.name)[step.skip.toNat]?

/-- The node that steps lead to from a node. -/
def follow? (nameOf : α → String) (f : Forest α) (handle : Handle) :
    List PathStep → Option Handle
  | [] => some handle
  | step :: rest =>
    match f.stepTo? nameOf handle step with
    | some child => f.follow? nameOf child rest
    | none => none

/-- The node that a path leads to from a node. -/
def get? (nameOf : α → String) (f : Forest α) (handle : Handle) (path : Path) : Option Handle :=
  if f.contains handle then f.follow? nameOf handle path.steps else none

/-- The node that a path leads to from the head. -/
def find? (nameOf : α → String) (f : Forest α) (path : Path) : Option Handle :=
  match f.head with
  | some head => f.get? nameOf head path
  | none => none

end CommandEngine.Forest
