import CommandEngine.Forest.Traversal
/-!
# Editing a forest

Six edits change a forest. Creating adds a node that belongs to no tree; attaching makes the root of
a waiting tree the head or the last child of a node of the tree proper; inserting does both.
Removing takes a subtree out of the tree proper without destroying it, removing the children of a
node does so for each of them, and clearing drops everything. Removing the head clears.

The size of the tree proper is kept as a number and adjusted by each edit from the size of the
subtree it moves. An edit is a function to a result together with the forest afterwards: a refused
edit changes no link, but a refused insertion has already created its node.
-/

namespace CommandEngine

/-- Why an edit of a forest is refused. -/
inductive ForestError
  | noSuchNode (handle : Handle)
  | /-- The tree proper has a head, so a parent has to be named. -/
    noParentNamed
  | /-- The node is the head or has a parent. -/
    alreadyPlaced (handle : Handle)
  | outsideTree (handle : Handle)
  | belowItself (handle : Handle)
  deriving DecidableEq

def ForestError.message : ForestError → String
  | noSuchNode handle => "unknown node " ++ handle.description
  | noParentNamed => "a parent is required once the tree has a head"
  | alreadyPlaced handle => "node " ++ handle.description ++ " is already attached"
  | outsideTree handle => "node " ++ handle.description ++ " is not attached to the tree"
  | belowItself handle => "node " ++ handle.description ++ " cannot become a descendant of itself"

namespace Forest

variable {α : Type}

/-- The handle of the node created next. -/
def nextHandle (f : Forest α) : Handle := ⟨f.nodes.size, f.epoch⟩

/-- The forest with one more node, which belongs to no tree. -/
def create (f : Forest α) (label : α) : Handle × Forest α :=
  (f.nextHandle, { f with nodes := f.nodes.push { label } })

/-- Creating a node is seen at the next handle and at no other. -/
theorem node?_create (f : Forest α) (label : α) (handle : Handle) :
    (f.create label).2.node? handle =
      if handle = f.nextHandle then some { label } else f.node? handle := by
  cases handle with
  | mk index epoch =>
    by_cases current : epoch = f.epoch
    · subst current
      simp [create, node?, nextHandle, Array.getElem?_push]
    · simp [create, node?, nextHandle, current]

/-- Make a node the last child of another. -/
def link (f : Forest α) (parent child : Handle) : Forest α :=
  (f.modify child fun node => { node with parent := some parent }).modify parent
    fun node => { node with children := node.children ++ [child] }

/-- Make a node the root of a tree of its own. -/
def unlink (f : Forest α) (child : Handle) : Forest α :=
  match f.parent? child with
  | none => f
  | some parent =>
    (f.modify child fun node => { node with parent := none }).modify parent
      fun node => { node with children := node.children.filter (· != child) }

/-- Make several nodes roots of trees of their own, without looking at their parents. -/
def orphan (f : Forest α) (children : List Handle) : Forest α :=
  children.foldl (fun f child => f.modify child fun node => { node with parent := none }) f

/-- Attach a waiting tree, given its root: as the tree proper if there is none, whatever parent is
named, else below the parent, which must be part of the tree proper. -/
def attach (f : Forest α) (parent : Option Handle) (handle : Handle) :
    Except ForestError Unit × Forest α :=
  match f.node? handle with
  | none => (.error (.noSuchNode handle), f)
  | some node =>
    if node.parent.isSome || f.head == some handle then (.error (.alreadyPlaced handle), f)
    else
      let grown := f.countBelow handle + 1
      if f.isEmpty then (.ok (), { f with head := some handle, size := grown })
      else
        match parent with
        | none => (.error .noParentNamed, f)
        | some parent =>
          if !f.contains parent then (.error (.noSuchNode parent), f)
          else if !f.inTree parent then (.error (.outsideTree parent), f)
          else if (f.lineage parent).contains handle then (.error (.belowItself handle), f)
          else (.ok (), { f.link parent handle with size := f.size + grown })

def insert (f : Forest α) (parent : Option Handle) (label : α) :
    Except ForestError Handle × Forest α :=
  let (handle, f) := f.create label
  let (attached, f) := f.attach parent handle
  (attached.map fun _ => handle, f)

def clear (f : Forest α) : Forest α := { epoch := f.epoch + 1 }

/-- No handle of a current epoch survives clearing, and there are no nodes under the next one. -/
@[simp]
theorem node?_clear (f : Forest α) (handle : Handle) : f.clear.node? handle = none := by
  simp [clear, node?]

/-- Take a subtree out of the tree proper, given its root; taking out the head clears. -/
def remove (f : Forest α) (handle : Handle) : Except ForestError Unit × Forest α :=
  if !f.contains handle then (.error (.noSuchNode handle), f)
  else if f.head == some handle then (.ok (), f.clear)
  else if !f.inTree handle then (.error (.outsideTree handle), f)
  else
    let cut := f.unlink handle
    (.ok (), { cut with size := f.size - (cut.countBelow handle + 1) })

/-- Take the subtrees of all children of a node out, in any tree; the answer is the children. -/
def removeChildren (f : Forest α) (handle : Handle) :
    Except ForestError (List Handle) × Forest α :=
  match f.node? handle with
  | none => (.error (.noSuchNode handle), f)
  | some node =>
    let size := if f.inTree handle then f.size - f.countBelow handle else f.size
    let cut := f.modify handle fun node => { node with children := [] }
    (.ok node.children, { cut.orphan node.children with size })

/-- An edit of a forest. -/
inductive Edit (α : Type)
  | /-- Add a node that belongs to no tree. -/
    create (label : α)
  | insert (parent : Option Handle) (label : α)
  | attach (parent : Option Handle) (handle : Handle)
  | remove (handle : Handle)
  | removeChildren (handle : Handle)
  | clear
  deriving DecidableEq

/-- Whether an edit is accepted, and the forest afterwards. -/
def apply (f : Forest α) : Edit α → Except ForestError Unit × Forest α
  | .create label => (.ok (), (f.create label).2)
  | .insert parent label =>
    let (inserted, f) := f.insert parent label
    (inserted.map fun _ => (), f)
  | .attach parent handle => f.attach parent handle
  | .remove handle => f.remove handle
  | .removeChildren handle =>
    let (removed, f) := f.removeChildren handle
    (removed.map fun _ => (), f)
  | .clear => (.ok (), f.clear)

/-- The forest after a sequence of edits, accepted or refused. -/
def applyAll (f : Forest α) (edits : List (Edit α)) : Forest α :=
  edits.foldl (fun f edit => (f.apply edit).2) f

@[simp]
theorem applyAll_nil (f : Forest α) : f.applyAll [] = f := rfl

@[simp]
theorem applyAll_cons (f : Forest α) (edit : Edit α) (rest : List (Edit α)) :
    f.applyAll (edit :: rest) = (f.apply edit).2.applyAll rest := rfl

end Forest

end CommandEngine
