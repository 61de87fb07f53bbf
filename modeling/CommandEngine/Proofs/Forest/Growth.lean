import CommandEngine.Proofs.Forest.Editing
/-!
# Growing the tree proper

Inserting below a node of the tree proper never fails: the new node has no links yet, so it cannot
be above anything. The result is `Forest.sprout`, and its views are those of the forest before
except at the new node and at the end of one list of children. `Extends` records what survives any
number of such insertions: every old node keeps its label and its parent, and its old children come
first.
-/

namespace CommandEngine.Forest

variable {α : Type} {f g : Forest α} {handle parent child : Handle} {label : α}

/-- A forest in which every node of another stands with at most further children. -/
def Extends (f g : Forest α) : Prop :=
  ∀ handle node, f.node? handle = some node →
    ∃ more, g.node? handle = some { node with children := node.children ++ more }

namespace Extends

theorem refl (f : Forest α) : Extends f f :=
  fun _ _ hnode => ⟨[], by rw [hnode, List.append_nil]⟩

theorem trans {h : Forest α} (first : Extends f g) (second : Extends g h) : Extends f h := by
  intro handle node hnode
  obtain ⟨more, hnode⟩ := first handle node hnode
  obtain ⟨later, hnode⟩ := second handle _ hnode
  exact ⟨more ++ later, by rw [hnode, List.append_assoc]⟩

theorem contains (ext : Extends f g) (known : f.contains handle = true) :
    g.contains handle = true := by
  obtain ⟨node, hnode⟩ := exists_node?_of_contains known
  obtain ⟨more, hnode⟩ := ext handle node hnode
  exact contains_of_node?_eq_some hnode

theorem parent?_eq (ext : Extends f g) (known : f.contains handle = true) :
    g.parent? handle = f.parent? handle := by
  obtain ⟨node, hnode⟩ := exists_node?_of_contains known
  obtain ⟨more, hnode'⟩ := ext handle node hnode
  rw [parent?_of_node? hnode, parent?_of_node? hnode']

/-- The nodes above an old node are the same as before. -/
theorem lineage_eq (ext : Extends f g) (wf : f.Linked) (wg : g.Linked)
    (known : f.contains handle = true) : g.lineage handle = f.lineage handle := by
  induction handle using wf.induction_up with
  | root handle hroot =>
      rw [wf.lineage_of_root hroot, wg.lineage_of_root (by rw [ext.parent?_eq known, hroot])]
  | below handle parent hparent ih =>
      rw [wf.lineage_of_parent hparent,
        wg.lineage_of_parent (by rw [ext.parent?_eq known, hparent]),
        ih (wf.contains_parent hparent)]

/-- An old node belongs to the tree proper if it did before. -/
theorem inTree_eq (ext : Extends f g) (wf : f.Linked) (wg : g.Linked) (hhead : g.head = f.head)
    (known : f.contains handle = true) : g.inTree handle = f.inTree handle := by
  rw [inTree, inTree, ext.lineage_eq wf wg known, hhead, known, ext.contains known]

end Extends

theorem extends_create (f : Forest α) (label : α) : Extends f (f.create label).2 := by
  intro handle node hnode
  refine ⟨[], ?_⟩
  rw [node?_create_of_contains label (contains_of_node?_eq_some hnode), hnode, List.append_nil]

/-- The forest with a new node as the last child of another. -/
def sprout (f : Forest α) (parent : Handle) (label : α) : Forest α :=
  { (f.create label).2.link parent f.nextHandle with size := f.size + 1 }

@[simp]
theorem head_sprout (f : Forest α) (parent : Handle) (label : α) :
    (f.sprout parent label).head = f.head := by
  simp [sprout]

@[simp]
theorem epoch_sprout (f : Forest α) (parent : Handle) (label : α) :
    (f.sprout parent label).epoch = f.epoch := by
  simp [sprout, link]

@[simp]
theorem size_nodes_sprout (f : Forest α) (parent : Handle) (label : α) :
    (f.sprout parent label).nodes.size = f.nodes.size + 1 := by
  simp [sprout, link]

theorem node?_sprout (known : f.contains parent = true) (label : α) (handle : Handle) :
    (f.sprout parent label).node? handle =
      if handle = f.nextHandle then some { label, parent := some parent }
      else if handle = parent then
        (f.node? parent).map fun node =>
          { node with children := node.children ++ [f.nextHandle] }
      else f.node? handle := by
  have hsame : (f.sprout parent label).node? handle =
      ((f.create label).2.link parent f.nextHandle).node? handle := rfl
  have apart : parent ≠ f.nextHandle := ne_nextHandle_of_contains known
  rw [hsame, link, node?_modify, node?_modify, node?_create]
  by_cases fresh : handle = f.nextHandle
  · subst fresh
    simp [apart]
  · by_cases here : handle = parent
    · subst here
      simp [fresh, Ne.symm fresh]
    · simp [fresh, Ne.symm fresh, here, Ne.symm here]

theorem extends_sprout (known : f.contains parent = true) (label : α) :
    Extends f (f.sprout parent label) := by
  intro handle node hnode
  rw [node?_sprout known,
    if_neg (ne_nextHandle_of_contains (contains_of_node?_eq_some hnode))]
  by_cases here : handle = parent
  · subst here
    exact ⟨[f.nextHandle], by rw [if_pos rfl, hnode]; rfl⟩
  · exact ⟨[], by rw [if_neg here, hnode, List.append_nil]⟩

theorem contains_sprout (known : f.contains parent = true) (label : α) (handle : Handle) :
    (f.sprout parent label).contains handle = true ↔
      handle = f.nextHandle ∨ f.contains handle = true := by
  constructor
  · intro hcontains
    rw [Forest.contains, node?_sprout known] at hcontains
    split_ifs at hcontains with fresh here
    · exact .inl fresh
    · exact .inr (here ▸ known)
    · exact .inr hcontains
  · rintro (rfl | old)
    · simp [Forest.contains, node?_sprout known]
    · exact (extends_sprout known label).contains old

theorem parent?_sprout_nextHandle (known : f.contains parent = true) (label : α) :
    (f.sprout parent label).parent? f.nextHandle = some parent := by
  simp [parent?, node?_sprout known]

namespace WellFormed

variable (wf : f.WellFormed)
include wf

theorem countBelow_nextHandle (label : α) :
    (f.create label).2.countBelow f.nextHandle = 0 := by
  have wg := wf.create label
  have fresh : (f.create label).2.node? f.nextHandle = some { label } := by
    rw [node?_create, if_pos rfl]
  have hcount := wg.countBelow_add_one (contains_of_node?_eq_some fresh)
  rw [wg.subtree_eq, children_of_node? fresh] at hcount
  simpa using hcount

/-- Inserting below a node of the tree proper succeeds. -/
theorem insert_of_inTree (attached : f.inTree parent = true) (label : α) :
    f.insert (some parent) label = (.ok f.nextHandle, f.sprout parent label) := by
  have known := contains_of_inTree attached
  have wg := wf.create label
  have fresh : (f.create label).2.node? f.nextHandle = some { label } := by
    rw [node?_create, if_pos rfl]
  have hlineage := (extends_create f label).lineage_eq wf.toLinked wg.toLinked known
  have hattached : (f.create label).2.inTree parent = true := by
    rw [(extends_create f label).inTree_eq wf.toLinked wg.toLinked rfl known, attached]
  have hbelow := wf.countBelow_nextHandle label
  obtain ⟨head, hhead⟩ := wf.exists_head attached
  have new : head ≠ f.nextHandle := ne_nextHandle_of_contains (wf.contains_head head hhead)
  have above : f.nextHandle ∉ f.lineage parent := fun here =>
    ne_nextHandle_of_contains
      (wf.contains_of_mem_isLineage (wf.isLineage_lineage parent) known _ here) rfl
  have hcreate : f.create label = (f.nextHandle, (f.create label).2) := rfl
  have hattach : (f.create label).2.attach (some parent) f.nextHandle =
      (.ok (), f.sprout parent label) := by
    have hknown := contains_of_inTree hattached
    simp [Forest.attach, fresh, hhead, new, isEmpty, hknown, hattached, hlineage, above, hbelow,
      sprout]
    rfl
  rw [Forest.insert, hcreate]
  simp only [hattach]
  rfl

theorem sprout (attached : f.inTree parent = true) (label : α) :
    (f.sprout parent label).WellFormed := by
  have grown := wf.insert (some parent) label
  rwa [wf.insert_of_inTree attached] at grown

theorem inTree_sprout (attached : f.inTree parent = true) (label : α) (handle : Handle) :
    (f.sprout parent label).inTree handle = true ↔
      handle = f.nextHandle ∨ f.inTree handle = true := by
  have known := contains_of_inTree attached
  have wg := wf.sprout attached label
  have ext := extends_sprout known label
  have old {other : Handle} (hother : f.contains other = true) :=
    ext.inTree_eq wf.toLinked wg.toLinked (head_sprout f parent label) hother
  by_cases fresh : handle = f.nextHandle
  · subst fresh
    refine iff_of_true ?_ (.inl rfl)
    obtain ⟨head, hhead⟩ := wf.exists_head attached
    have hhead' : (f.sprout parent label).head = some head := by simp [hhead]
    rw [wg.inTree_iff hhead', wg.lineage_of_parent (parent?_sprout_nextHandle known label)]
    refine List.mem_cons_of_mem _ ((wg.inTree_iff hhead').1 ?_)
    rw [old known, attached]
  · by_cases hknown : f.contains handle = true
    · simp [fresh, old hknown]
    · have unknown : (f.sprout parent label).contains handle ≠ true := by
        rw [ne_eq, contains_sprout known]
        simp [fresh, hknown]
      simp [inTree, fresh, unknown, hknown]

/-- A forest without a tree proper takes a new node as its head. -/
theorem insert_of_isEmpty (hhead : f.head = none) (target : Option Handle) (label : α) :
    f.insert target label =
      (.ok f.nextHandle, { (f.create label).2 with head := some f.nextHandle, size := 1 }) := by
  have fresh : (f.create label).2.node? f.nextHandle = some { label } := by
    rw [node?_create, if_pos rfl]
  have hbelow := wf.countBelow_nextHandle label
  have hcreate : f.create label = (f.nextHandle, (f.create label).2) := rfl
  rw [Forest.insert, hcreate]
  simp [Forest.attach, fresh, hhead, isEmpty, hbelow]
  rfl

end WellFormed

/-- Below a head, insertion succeeds in no other way. -/
theorem WellFormed.insert_eq_ok_iff (wf : f.WellFormed) {head : Handle} (hhead : f.head = some head)
    {target : Option Handle} {label : α} :
    f.insert target label = (.ok handle, g) ↔ ∃ parent, target = some parent ∧
      f.inTree parent = true ∧ handle = f.nextHandle ∧ g = f.sprout parent label := by
  constructor
  · intro hinsert
    have hresult : f.insert target label =
        (((f.create label).2.attach target f.nextHandle).1.map fun _ => f.nextHandle,
          ((f.create label).2.attach target f.nextHandle).2) := rfl
    rcases attach_cases (f.create label).2 target f.nextHandle with ⟨cause, hattach⟩ |
      ⟨-, -, hempty, -⟩ | ⟨parent, rfl, -, -, -, attached, -, -⟩
    · rw [hinsert, hattach] at hresult
      cases (Prod.mk.inj hresult).1
    · rw [head_create, hhead] at hempty
      cases hempty
    · -- The new node is not yet part of the tree, so the parent is an old one.
      have wg := wf.create label
      have known : f.contains parent = true := by
        rcases (contains_create f label parent).1 (contains_of_inTree attached) with rfl | known
        · have hroot : (f.create label).2.parent? f.nextHandle = none := by
            rw [parent?_create, parent?_of_not_contains f.not_contains_nextHandle]
          rw [wg.inTree_iff hhead, wg.lineage_of_root hroot, List.mem_singleton] at attached
          exact absurd attached (ne_nextHandle_of_contains (wf.contains_head head hhead))
        · exact known
      rw [(extends_create f label).inTree_eq wf.toLinked wg.toLinked rfl known] at attached
      rw [wf.insert_of_inTree attached] at hinsert
      cases hinsert
      exact ⟨parent, rfl, attached, rfl, rfl⟩
  · rintro ⟨parent, rfl, attached, rfl, rfl⟩
    exact wf.insert_of_inTree attached label

/-- The labels of all nodes, in the order of creation. -/
def labels (f : Forest α) : List α := f.nodes.toList.map Node.label

@[simp]
theorem labels_create (f : Forest α) (label : α) :
    (f.create label).2.labels = f.labels ++ [label] := by
  simp [labels, create]

theorem labels_modify (f : Forest α) (handle : Handle) {change : Node α → Node α}
    (keeps : ∀ node, (change node).label = node.label) :
    (f.modify handle change).labels = f.labels := by
  unfold modify
  split
  · simp only [labels, Array.toList_modify]
    apply List.ext_getElem?
    intro index
    simp only [List.getElem?_map, List.getElem?_modify]
    cases f.nodes.toList[index]? with
    | none => rfl
    | some node =>
        by_cases here : handle.index = index <;> simp [here, keeps]
  · rfl

@[simp]
theorem labels_sprout (f : Forest α) (parent : Handle) (label : α) :
    (f.sprout parent label).labels = f.labels ++ [label] := by
  have hsame : (f.sprout parent label).labels =
      ((f.create label).2.link parent f.nextHandle).labels := rfl
  rw [hsame, link, labels_modify _ _ (by intro node; rfl), labels_modify _ _ (by intro node; rfl),
    labels_create]

theorem length_labels (f : Forest α) : f.labels.length = f.nodes.size := by
  simp [labels]

/-- The handles and the labels list the nodes in the same order. -/
theorem map_label?_handles (f : Forest α) : f.handles.map f.label? = f.labels.map some := by
  apply List.ext_getElem?
  intro index
  simp only [handles, labels, List.map_map, List.getElem?_map, Function.comp_def]
  by_cases within : index < f.nodes.size
  · simp [within, label?, node?]
  · simp [within]

@[simp]
theorem head_modifyLabel (f : Forest α) (handle : Handle) (change : α → α) :
    (f.modifyLabel handle change).head = f.head := head_modify _ _ _

theorem parent?_modifyLabel (f : Forest α) (handle : Handle) (change : α → α) (other : Handle) :
    (f.modifyLabel handle change).parent? other = f.parent? other :=
  parent?_modify_of_parent_eq f handle other fun _ => rfl

theorem children_modifyLabel (f : Forest α) (handle : Handle) (change : α → α) (other : Handle) :
    (f.modifyLabel handle change).children other = f.children other :=
  children_modify_of_children_eq f handle other fun _ => rfl

/-- A change of labels alone keeps a forest well-formed. -/
theorem WellFormed.modifyLabel (wf : f.WellFormed) (handle : Handle) (change : α → α) :
    (f.modifyLabel handle change).WellFormed := by
  have hparent := f.parent?_modifyLabel handle change
  have rooted : (f.modifyLabel handle change).Rooted :=
    { toLinked := wf.toLinked.congr hparent (f.children_modifyLabel handle change)
      contains_head := fun head hhead => by
        rw [Forest.modifyLabel, contains_modify]
        exact wf.contains_head head (f.head_modifyLabel handle change ▸ hhead)
      parent?_head := fun head hhead => by
        rw [hparent]
        exact wf.parent?_head head (f.head_modifyLabel handle change ▸ hhead) }
  have hinTree := wf.toRooted.inTree_congr rooted (f.head_modifyLabel handle change)
    (wf.toLinked.lineage_congr rooted.toLinked hparent)
  refine { toRooted := rooted, size_eq := ?_ }
  rw [Forest.modifyLabel, size_modify, handles_modify, wf.size_eq]
  exact List.countP_congr fun other _ => by rw [← Forest.modifyLabel, hinTree]

/-- A change of labels alone takes no node out of the tree proper. -/
theorem WellFormed.inTree_modifyLabel (wf : f.WellFormed) (handle : Handle) (change : α → α)
    (other : Handle) : (f.modifyLabel handle change).inTree other = f.inTree other := by
  have wg := wf.modifyLabel handle change
  exact wf.toRooted.inTree_congr wg.toRooted (f.head_modifyLabel handle change)
    (wf.toLinked.lineage_congr wg.toLinked (f.parent?_modifyLabel handle change)) other

/-! ## What a host can make of a forest -/

/-- A forest that comes from the empty one by edits, accepted or refused, and by changes of what its
nodes stand for, in any order. -/
inductive Reachable : Forest α → Prop
  | empty : Reachable {}
  | edit {f : Forest α} (reached : Reachable f) (edit : Edit α) : Reachable (f.apply edit).2
  | relabel {f : Forest α} (reached : Reachable f) (handle : Handle) (change : α → α) :
    Reachable (f.modifyLabel handle change)

theorem Reachable.wellFormed (reached : f.Reachable) : f.WellFormed := by
  induction reached with
  | empty => exact .empty
  | edit _ edit wf => exact wf.apply edit
  | relabel _ handle change wf => exact wf.modifyLabel handle change

theorem Reachable.applyAll (reached : f.Reachable) (edits : List (Edit α)) :
    (f.applyAll edits).Reachable := by
  induction edits generalizing f with
  | nil => exact reached
  | cons edit rest ih => exact ih (reached.edit edit)

end CommandEngine.Forest
