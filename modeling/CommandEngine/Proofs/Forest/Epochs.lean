import CommandEngine.Proofs.Forest.Growth
/-!
# The same forest in a later epoch

A forest that has been cleared a number of times more differs in the epoch and in nothing else, so
adding a number to every epoch in it, in the links as well as in its own, should not be noticed by
anything but the handles that come out. `Forest.later` adds it, and it commutes with every view of a
forest and with the edits that a session makes. Adding is injective on the epochs, although these
are machine words and wrap around; this is the only fact about them that is used, apart from
`clear`, which adds as well.
-/

namespace CommandEngine

variable {α : Type} {d : UInt64}

/-- The handle in an epoch that is later by some number. -/
def Handle.later (d : UInt64) (handle : Handle) : Handle :=
  { handle with epoch := handle.epoch + d }

/-- The node with its links in a later epoch. -/
def Node.later (d : UInt64) (node : Node α) : Node α where
  label := node.label
  parent := node.parent.map (Handle.later d)
  children := node.children.map (Handle.later d)

theorem Handle.later_injective (d : UInt64) : Function.Injective (Handle.later d) := by
  rintro ⟨index, epoch⟩ ⟨index', epoch'⟩ same
  simp only [Handle.later, Handle.mk.injEq, UInt64.add_left_inj] at same
  rw [same.1, same.2]

namespace Forest

variable {f : Forest α} {handle parent : Handle}

/-- The forest as it would be in a later epoch. -/
def later (d : UInt64) (f : Forest α) : Forest α where
  nodes := f.nodes.map (Node.later d)
  head := f.head.map (Handle.later d)
  size := f.size
  epoch := f.epoch + d

theorem node?_later (d : UInt64) (f : Forest α) (handle : Handle) :
    (f.later d).node? (handle.later d) = (f.node? handle).map (Node.later d) := by
  by_cases current : handle.epoch = f.epoch
  · simp [node?, later, Handle.later, current]
  · have apart : ¬handle.epoch + d = f.epoch + d := fun same =>
      current ((UInt64.add_left_inj d).1 same)
    rw [node?, node?, if_neg current, later, Handle.later, if_neg apart, Option.map_none]

@[simp]
theorem contains_later (d : UInt64) (f : Forest α) (handle : Handle) :
    (f.later d).contains (handle.later d) = f.contains handle := by
  simp [contains, node?_later]

@[simp]
theorem label?_later (d : UInt64) (f : Forest α) (handle : Handle) :
    (f.later d).label? (handle.later d) = f.label? handle := by
  simp [label?, node?_later, Function.comp_def, Node.later]

@[simp]
theorem parent?_later (d : UInt64) (f : Forest α) (handle : Handle) :
    (f.later d).parent? (handle.later d) = (f.parent? handle).map (Handle.later d) := by
  rw [parent?, parent?, node?_later]
  cases f.node? handle <;> rfl

@[simp]
theorem children_later (d : UInt64) (f : Forest α) (handle : Handle) :
    (f.later d).children (handle.later d) = (f.children handle).map (Handle.later d) := by
  rw [children, children, children?, children?, node?_later]
  cases f.node? handle <;> rfl

@[simp]
theorem size_nodes_later (d : UInt64) (f : Forest α) :
    (f.later d).nodes.size = f.nodes.size := Array.size_map

private theorem lineageFor_later (d : UInt64) (f : Forest α) (fuel : Nat) (handle : Handle) :
    (f.later d).lineageFor fuel (handle.later d) =
      (f.lineageFor fuel handle).map (Handle.later d) := by
  induction fuel generalizing handle with
  | zero => rfl
  | succ fuel ih =>
      rw [lineageFor, lineageFor, parent?_later]
      cases f.parent? handle with
      | none => rfl
      | some parent => simp [ih]

@[simp]
theorem inTree_later (d : UInt64) (f : Forest α) (handle : Handle) :
    (f.later d).inTree (handle.later d) = f.inTree handle := by
  have hlast : ((f.later d).lineage (handle.later d)).getLast? =
      (f.lineage handle).getLast?.map (Handle.later d) := by
    rw [lineage, lineage, lineageFor_later, size_nodes_later, List.getLast?_map]
  have hhead : (f.later d).head = f.head.map (Handle.later d) := rfl
  rw [inTree, inTree, contains_later, hlast, hhead, Bool.eq_iff_iff, Bool.and_eq_true,
    Bool.and_eq_true, beq_iff_eq, beq_iff_eq,
    (Option.map_injective (Handle.later_injective d)).eq_iff]

private theorem visitFor_later (d : UInt64) (f : Forest α) (fuel : Nat) (waiting : List Handle) :
    (f.later d).visitFor fuel (waiting.map (Handle.later d)) =
      (f.visitFor fuel waiting).map (Handle.later d) := by
  induction fuel generalizing waiting with
  | zero => rfl
  | succ fuel ih =>
      cases waiting with
      | nil => rfl
      | cons handle rest =>
          rw [List.map_cons, visitFor, visitFor, children_later, ← List.map_append, ih,
            List.map_cons]

theorem preorder_later (d : UInt64) (f : Forest α) (handle : Handle) :
    (f.later d).preorder (handle.later d) = (f.preorder handle).map (Handle.later d) := by
  have hvisit := visitFor_later d f f.nodes.size [handle]
  rw [List.map_singleton] at hvisit
  rw [preorder, preorder, contains_later, size_nodes_later, hvisit]
  split <;> rfl

theorem nextHandle_later (d : UInt64) (f : Forest α) :
    (f.later d).nextHandle = f.nextHandle.later d := by
  simp [nextHandle, later, Handle.later]

theorem create_later (d : UInt64) (f : Forest α) (label : α) :
    ((f.later d).create label).2 = (f.create label).2.later d := by
  simp [create, later, Node.later]

private theorem modify_later (d : UInt64) (f : Forest α) (handle : Handle)
    {change change' : Node α → Node α}
    (hchange : ∀ node, change' (node.later d) = (change node).later d) :
    (f.later d).modify (handle.later d) change' = (f.modify handle change).later d := by
  have hnodes : (f.nodes.map (Node.later d)).modify handle.index change' =
      (f.nodes.modify handle.index change).map (Node.later d) := by
    apply Array.ext_getElem?
    intro index
    rw [Array.getElem?_modify, Array.getElem?_map, Array.getElem?_map, Array.getElem?_modify]
    split
    · simp [Option.map_map, Function.comp_def, hchange]
    · rfl
  by_cases current : handle.epoch = f.epoch
  · simp [modify, later, Handle.later, current, hnodes]
  · have apart : ¬handle.epoch + d = f.epoch + d := fun same =>
      current ((UInt64.add_left_inj d).1 same)
    rw [modify, modify, if_neg current, Handle.later, later, if_neg apart]

theorem link_later (d : UInt64) (f : Forest α) (parent child : Handle) :
    (f.later d).link (parent.later d) (child.later d) = (f.link parent child).later d := by
  rw [link, link, modify_later, modify_later]
  · intro node
    simp [Node.later]
  · intro node
    simp [Node.later]

theorem sprout_later (d : UInt64) (f : Forest α) (parent : Handle) (label : α) :
    (f.later d).sprout (parent.later d) label = (f.sprout parent label).later d := by
  rw [sprout, sprout, create_later, nextHandle_later, link_later]
  rfl

theorem clear_later (d : UInt64) (f : Forest α) : (f.later d).clear = f.clear.later d := by
  simp [clear, later, UInt64.add_assoc, UInt64.add_comm]

end Forest

end CommandEngine
