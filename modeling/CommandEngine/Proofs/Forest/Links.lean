import CommandEngine.Forest.Edit
import CommandEngine.Proofs.Forest.WellFormed
/-!
# What the edits do to the links

Creating a node changes no link. Linking adds one, seen upwards at the child and downwards at the
parent, and unlinking takes one away. Each statement below gives a whole view of the edited forest
in terms of the same view of the forest before, so that later arguments never look into the arena.
-/

namespace CommandEngine.Forest

variable {α : Type} {f g : Forest α} {handle parent child : Handle}

@[simp]
theorem node?_nextHandle (f : Forest α) : f.node? f.nextHandle = none := by
  simp [node?, nextHandle]

theorem not_contains_nextHandle (f : Forest α) : f.contains f.nextHandle = false := by
  simp [contains]

theorem ne_nextHandle_of_contains (known : f.contains handle = true) :
    handle ≠ f.nextHandle := by
  rintro rfl
  simp [not_contains_nextHandle] at known

theorem node?_create_of_contains (label : α) (known : f.contains handle = true) :
    (f.create label).2.node? handle = f.node? handle := by
  rw [node?_create, if_neg (ne_nextHandle_of_contains known)]

@[simp]
theorem parent?_create (f : Forest α) (label : α) (handle : Handle) :
    (f.create label).2.parent? handle = f.parent? handle := by
  by_cases fresh : handle = f.nextHandle <;> simp [parent?, node?_create, fresh]

@[simp]
theorem children_create (f : Forest α) (label : α) (handle : Handle) :
    (f.create label).2.children handle = f.children handle := by
  by_cases fresh : handle = f.nextHandle <;> simp [children, children?, node?_create, fresh]

@[simp]
theorem head_create (f : Forest α) (label : α) : (f.create label).2.head = f.head := rfl

@[simp]
theorem epoch_create (f : Forest α) (label : α) : (f.create label).2.epoch = f.epoch := rfl

@[simp]
theorem size_nodes_create (f : Forest α) (label : α) :
    (f.create label).2.nodes.size = f.nodes.size + 1 := by
  simp [create]

theorem contains_create (f : Forest α) (label : α) (handle : Handle) :
    (f.create label).2.contains handle = true ↔
      handle = f.nextHandle ∨ f.contains handle = true := by
  by_cases fresh : handle = f.nextHandle <;> simp [contains, node?_create, fresh]

theorem handles_create (f : Forest α) (label : α) :
    (f.create label).2.handles = f.handles ++ [f.nextHandle] := by
  simp [handles, List.range_succ, nextHandle]

@[simp]
theorem handles_modify (f : Forest α) (handle : Handle) (change : Node α → Node α) :
    (f.modify handle change).handles = f.handles := by
  simp [handles]

@[simp]
theorem size_modify (f : Forest α) (handle : Handle) (change : Node α → Node α) :
    (f.modify handle change).size = f.size := by
  unfold modify
  split <;> rfl

@[simp]
theorem contains_modify (f : Forest α) (handle other : Handle) (change : Node α → Node α) :
    (f.modify handle change).contains other = f.contains other := by
  rw [contains, node?_modify, contains]
  split <;> simp

theorem parent?_modify (f : Forest α) (handle other : Handle) (change : Node α → Node α) :
    (f.modify handle change).parent? other =
      if handle = other then (f.node? other).bind fun node => (change node).parent
      else f.parent? other := by
  by_cases same : handle = other
  · rw [parent?, node?_modify, if_pos same, if_pos same, Option.bind_map]
    rfl
  · rw [parent?, node?_modify, if_neg same, if_neg same, parent?]

theorem children_modify (f : Forest α) (handle other : Handle) (change : Node α → Node α) :
    (f.modify handle change).children other =
      if handle = other then ((f.node? other).map fun node => (change node).children).getD []
      else f.children other := by
  by_cases same : handle = other <;> simp [children, children?, node?_modify, same,
    Function.comp_def]

/-- A change that keeps the parent is not seen upwards. -/
theorem parent?_modify_of_parent_eq (f : Forest α) (handle other : Handle)
    {change : Node α → Node α} (keeps : ∀ node, (change node).parent = node.parent) :
    (f.modify handle change).parent? other = f.parent? other := by
  rw [parent?_modify]
  split
  · simp only [keeps, parent?]
  · rfl

/-- A change that keeps the children is not seen downwards. -/
theorem children_modify_of_children_eq (f : Forest α) (handle other : Handle)
    {change : Node α → Node α} (keeps : ∀ node, (change node).children = node.children) :
    (f.modify handle change).children other = f.children other := by
  rw [children_modify]
  split
  · simp only [keeps]
    rfl
  · rfl

@[simp]
theorem handles_link (f : Forest α) (parent child : Handle) :
    (f.link parent child).handles = f.handles := by
  simp [link]

@[simp]
theorem head_link (f : Forest α) (parent child : Handle) :
    (f.link parent child).head = f.head := by
  simp [link]

theorem parent?_link (known : f.contains child = true) (parent other : Handle) :
    (f.link parent child).parent? other =
      if other = child then some parent else f.parent? other := by
  rw [link, parent?_modify_of_parent_eq _ _ _ (by intro node; rfl), parent?_modify]
  by_cases same : child = other
  · obtain ⟨node, hnode⟩ := exists_node?_of_contains known
    subst same
    simp [hnode]
  · simp [same, Ne.symm same]

theorem children_link (known : f.contains parent = true) (child other : Handle) :
    (f.link parent child).children other =
      if other = parent then f.children parent ++ [child] else f.children other := by
  rw [link, children_modify]
  by_cases same : parent = other
  · subst same
    obtain ⟨node, hnode⟩ := exists_node?_of_contains known
    by_cases itself : child = parent <;>
      simp [node?_modify, itself, children_of_node? hnode, hnode]
  · rw [if_neg same, if_neg (Ne.symm same)]
    exact children_modify_of_children_eq _ _ _ fun _ => rfl

@[simp]
theorem handles_unlink (f : Forest α) (child : Handle) :
    (f.unlink child).handles = f.handles := by
  unfold unlink
  split <;> simp

@[simp]
theorem head_unlink (f : Forest α) (child : Handle) : (f.unlink child).head = f.head := by
  unfold unlink
  split <;> simp

theorem parent?_unlink (f : Forest α) (child other : Handle) :
    (f.unlink child).parent? other = if other = child then none else f.parent? other := by
  unfold unlink
  cases hparent : f.parent? child with
  | none =>
      by_cases same : other = child
      · simp [same, hparent]
      · simp [same]
  | some parent =>
      dsimp only
      rw [parent?_modify_of_parent_eq _ _ _ (by intro node; rfl), parent?_modify]
      by_cases same : child = other
      · simp [same]
      · simp [same, Ne.symm same]

theorem children_unlink (wf : f.Linked) (child other : Handle) :
    (f.unlink child).children other = (f.children other).filter (· != child) := by
  unfold unlink
  cases hparent : f.parent? child with
  | none =>
      refine (List.filter_eq_self.2 fun member here => ?_).symm
      rw [wf.mem_children_iff] at here
      rw [bne_iff_ne]
      rintro rfl
      rw [hparent] at here
      cases here
  | some parent =>
      dsimp only
      rw [children_modify]
      by_cases same : parent = other
      · subst same
        obtain ⟨node, hnode⟩ := exists_node?_of_contains (wf.contains_parent hparent)
        by_cases itself : child = parent <;>
          simp [node?_modify, itself, children_of_node? hnode, hnode]
      · rw [if_neg same]
        rw [children_modify_of_children_eq _ _ _ (by intro node; rfl)]
        refine (List.filter_eq_self.2 fun member here => ?_).symm
        rw [wf.mem_children_iff] at here
        rw [bne_iff_ne]
        rintro rfl
        rw [hparent, Option.some.injEq] at here
        exact same here

@[simp]
theorem handles_orphan (f : Forest α) (children : List Handle) :
    (f.orphan children).handles = f.handles := by
  induction children generalizing f with
  | nil => rfl
  | cons child rest ih => exact (ih _).trans (handles_modify _ _ _)

@[simp]
theorem head_orphan (f : Forest α) (children : List Handle) :
    (f.orphan children).head = f.head := by
  induction children generalizing f with
  | nil => rfl
  | cons child rest ih => exact (ih _).trans (head_modify _ _ _)

theorem parent?_orphan (f : Forest α) (children : List Handle) (other : Handle) :
    (f.orphan children).parent? other = if other ∈ children then none else f.parent? other := by
  induction children generalizing f with
  | nil => simp [orphan]
  | cons child rest ih =>
      refine (ih _).trans ?_
      rw [parent?_modify]
      by_cases later : other ∈ rest
      · simp [later]
      · by_cases same : child = other
        · simp [same]
        · simp [later, same, Ne.symm same]

@[simp]
theorem children_orphan (f : Forest α) (children : List Handle) (other : Handle) :
    (f.orphan children).children other = f.children other := by
  induction children generalizing f with
  | nil => rfl
  | cons child rest ih =>
      exact (ih _).trans (children_modify_of_children_eq f child other fun _ => rfl)

end CommandEngine.Forest
