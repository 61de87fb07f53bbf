import CommandEngine.Proofs.Forest.Grafting
import CommandEngine.Proofs.Forest.Links
/-!
# Editing keeps a forest well-formed

Each edit of a forest either refuses and changes no link, or is one graft or one cut. The links are
then right by the description of that change, and what is left is the size, which an edit corrects
by the size of the subtree it moves. `size_graft` and `size_cut` say that this is the correct
amount; read the other way round they also say that no edit subtracts more than there is.

The main statement, `representation_applyAll`, is about every forest that edits lead to from the
empty one, whatever handles the edits name and whether they are accepted.
-/

namespace CommandEngine.Forest

variable {α : Type} {f g : Forest α} {handle parent child : Handle}

/-- Two disjoint parts of a list are counted apart. -/
theorem countP_eq_add_of_disjoint {β : Type} {whole first second : β → Bool} {values : List β}
    (split : ∀ value ∈ values, whole value = (first value || second value))
    (disjoint : ∀ value ∈ values, first value = true → second value = true → False) :
    values.countP whole = values.countP first + values.countP second := by
  induction values with
  | nil => rfl
  | cons value rest ih =>
      have hsplit := split value List.mem_cons_self
      have hdisjoint := disjoint value List.mem_cons_self
      have hrest := ih (fun other here => split other (List.mem_cons_of_mem _ here))
        fun other here => disjoint other (List.mem_cons_of_mem _ here)
      rw [List.countP_cons, List.countP_cons, List.countP_cons, hrest, hsplit]
      cases hfirst : first value <;> cases hsecond : second value <;> simp_all <;> omega

/-- The number of nodes below a node counts the lineages that go on to it. -/
theorem Linked.countBelow_eq_countP (wf : f.Linked) (known : f.contains handle = true) :
    f.countBelow handle =
      f.handles.countP fun lower => decide (handle ∈ f.lineage lower ∧ lower ≠ handle) := by
  have whole := wf.countBelow_add_one known
  rw [wf.length_subtree_eq_countP known] at whole
  have parts : (f.handles.countP fun lower => decide (handle ∈ f.lineage lower)) =
      f.handles.countP (· == handle) +
        f.handles.countP fun lower => decide (handle ∈ f.lineage lower ∧ lower ≠ handle) := by
    refine countP_eq_add_of_disjoint (fun lower _ => ?_) fun lower _ same apart => ?_
    · by_cases same : lower = handle
      · simp [same, wf.mem_lineage_self handle]
      · simp [same]
    · simp only [beq_iff_eq] at same
      simp [same] at apart
  have once : f.handles.countP (· == handle) = 1 :=
    List.count_eq_one_of_mem f.nodup_handles (mem_handles.2 known)
  omega

/-- A graft below a node of the tree proper makes it larger by the grafted tree. -/
theorem IsGraft.size_graft (graft : IsGraft f g parent child) (wf : f.WellFormed)
    (known : f.contains child = true) (fresh : f.head ≠ some child)
    (attached : f.inTree parent = true) :
    g.handles.countP g.inTree = f.size + (f.countBelow child + 1) := by
  rw [wf.countBelow_add_one known, wf.length_subtree_eq_countP known, wf.size_eq,
    graft.handles_eq]
  refine countP_eq_add_of_disjoint (fun other _ => ?_) fun other _ hfirst hsecond => ?_
  · rw [Bool.eq_iff_iff, graft.inTree_iff wf.toRooted fresh attached, Bool.or_eq_true,
      decide_eq_true_iff]
  · -- A node cannot have both the head and another root above it.
    obtain ⟨head, hroot⟩ := wf.exists_head hfirst
    have same := wf.toLinked.eq_of_roots (wf.parent?_head head hroot) graft.parent?_child
      ((wf.inTree_iff hroot).1 hfirst) (of_decide_eq_true hsecond)
    exact fresh (hroot.trans (congrArg some same))

/-- A cut makes the tree proper smaller by its nodes that have a node cut loose above them. -/
theorem IsCut.size_cut {loose : List Handle} (cut : IsCut f g loose) (wf : f.WellFormed)
    (placed : ∀ node ∈ loose, f.parent? node ≠ none) :
    f.size = g.handles.countP g.inTree + f.handles.countP fun lower =>
      decide (f.inTree lower = true ∧ ∃ node ∈ f.lineage lower, node ∈ loose) := by
  rw [wf.size_eq, cut.handles_eq]
  refine countP_eq_add_of_disjoint (fun other _ => ?_) fun other _ hfirst hsecond => ?_
  · rw [Bool.eq_iff_iff, Bool.or_eq_true, cut.inTree_iff wf.toRooted placed, decide_eq_true_iff,
      ← and_or_left]
    refine (and_iff_left ?_).symm
    by_cases free : ∀ node ∈ f.lineage other, node ∉ loose
    · exact .inl free
    · exact .inr (by simpa using free)
  · rw [cut.inTree_iff wf.toRooted placed] at hfirst
    obtain ⟨-, node, above, here⟩ := of_decide_eq_true hsecond
    exact hfirst.2 node above here

theorem WellFormed.empty : (({} : Forest α)).WellFormed where
  mem_children_iff parent child := by simp [children, children?, parent?, node?]
  nodup_children handle := by simp [children, children?, node?]
  grounded handle := ⟨[handle], .root (by simp [parent?, node?])⟩
  contains_head head hhead := by cases hhead
  parent?_head head hhead := by cases hhead
  size_eq := rfl

theorem WellFormed.clear (f : Forest α) : f.clear.WellFormed where
  mem_children_iff parent child := by simp [children, children?, parent?]
  nodup_children handle := by simp [children, children?]
  grounded handle := ⟨[handle], .root (by simp [parent?])⟩
  contains_head head hhead := by cases hhead
  parent?_head head hhead := by cases hhead
  size_eq := rfl

/-- What attaching a waiting tree comes to: a refusal, a new head, or a graft. -/
theorem attach_cases (f : Forest α) (target : Option Handle) (handle : Handle) :
    (∃ cause, f.attach target handle = (.error cause, f)) ∨
    (f.contains handle = true ∧ f.parent? handle = none ∧ f.head = none ∧
      f.attach target handle =
        (.ok (), { f with head := some handle, size := f.countBelow handle + 1 })) ∨
    (∃ parent, target = some parent ∧ f.contains handle = true ∧ f.parent? handle = none ∧
      f.head ≠ some handle ∧ f.inTree parent = true ∧ handle ∉ f.lineage parent ∧
      f.attach target handle =
        (.ok (), { f.link parent handle with size := f.size + (f.countBelow handle + 1) })) := by
  unfold attach
  cases hnode : f.node? handle with
  | none => exact .inl ⟨_, rfl⟩
  | some node =>
      have known := contains_of_node?_eq_some hnode
      dsimp only
      split_ifs with placed vacant
      · exact .inl ⟨_, rfl⟩
      · rw [Bool.or_eq_true, not_or, beq_iff_eq] at placed
        have hroot : f.parent? handle = none := by simpa [parent?, hnode] using placed.1
        exact .inr (.inl ⟨known, hroot, Option.isNone_iff_eq_none.1 vacant, rfl⟩)
      · rw [Bool.or_eq_true, not_or, beq_iff_eq] at placed
        have hroot : f.parent? handle = none := by simpa [parent?, hnode] using placed.1
        cases target with
        | none => exact .inl ⟨_, rfl⟩
        | some parent =>
            dsimp only
            split_ifs with unknown detached above
            · exact .inl ⟨_, rfl⟩
            · exact .inl ⟨_, rfl⟩
            · exact .inl ⟨_, rfl⟩
            · exact .inr (.inr ⟨parent, rfl, known, hroot, placed.2, by simpa using detached,
                by simpa using above, rfl⟩)

/-- What removing a node comes to: a refusal, a clearing, or a cut. -/
theorem remove_cases (f : Forest α) (handle : Handle) :
    (∃ cause, f.remove handle = (.error cause, f)) ∨
    (f.contains handle = true ∧ f.head = some handle ∧ f.remove handle = (.ok (), f.clear)) ∨
    (f.inTree handle = true ∧ f.head ≠ some handle ∧
      f.remove handle = (.ok (),
        { f.unlink handle with size := f.size - ((f.unlink handle).countBelow handle + 1) })) := by
  unfold remove
  split_ifs with unknown hhead detached
  · exact .inl ⟨_, rfl⟩
  · exact .inr (.inl ⟨by simpa using unknown, beq_iff_eq.1 hhead, rfl⟩)
  · exact .inl ⟨_, rfl⟩
  · exact .inr (.inr ⟨by simpa using detached, fun same => hhead (beq_iff_eq.2 same), rfl⟩)

/-- What removing the children of a node comes to: a refusal, or a cut. -/
theorem removeChildren_cases (f : Forest α) (handle : Handle) :
    (f.contains handle = false ∧ f.removeChildren handle = (.error (.noSuchNode handle), f)) ∨
    (f.contains handle = true ∧
      f.removeChildren handle = (.ok (f.children handle),
        { (f.modify handle fun node => { node with children := [] }).orphan (f.children handle) with
          size := if f.inTree handle then f.size - f.countBelow handle else f.size })) := by
  unfold removeChildren
  cases hnode : f.node? handle with
  | none => exact .inl ⟨by simp [contains, hnode], rfl⟩
  | some node =>
      rw [children_of_node? hnode]
      exact .inr ⟨contains_of_node?_eq_some hnode, rfl⟩

/-- Linking a root below a node of another tree is a graft. -/
theorem isGraft_link (known : f.contains parent = true) (hchild : f.contains child = true)
    (hroot : f.parent? child = none) (apart : child ∉ f.lineage parent) :
    IsGraft f (f.link parent child) parent child where
  handles_eq := handles_link f parent child
  head_eq := head_link f parent child
  parent?_eq := parent?_link hchild parent
  children_eq := children_link known child
  parent?_child := hroot
  apart := apart

theorem isCut_unlink (wf : f.Linked) (child : Handle) : IsCut f (f.unlink child) [child] where
  handles_eq := handles_unlink f child
  head_eq := head_unlink f child
  parent?_eq other := by simp [parent?_unlink]
  children_eq other := by
    rw [children_unlink wf]
    apply List.filter_congr
    intro lower _
    rw [Bool.eq_iff_iff]
    simp

/-- Taking the children of a node out cuts all of them loose. -/
theorem isCut_orphan (wf : f.Linked) (handle : Handle) :
    IsCut f ((f.modify handle fun node => { node with children := [] }).orphan
      (f.children handle)) (f.children handle) where
  handles_eq := by simp
  head_eq := by simp
  parent?_eq other := by
    rw [parent?_orphan, parent?_modify_of_parent_eq _ _ _ (by intro node; rfl)]
  children_eq other := by
    rw [children_orphan, children_modify]
    by_cases same : handle = other
    · subst same
      rw [if_pos rfl, (List.filter_eq_nil_iff.2 fun lower here => by simpa using here)]
      cases f.node? handle <;> rfl
    · rw [if_neg same]
      refine (List.filter_eq_self.2 fun lower here => ?_).symm
      rw [decide_eq_true_iff, wf.mem_children_iff]
      intro elsewhere
      rw [wf.mem_children_iff, elsewhere, Option.some.injEq] at here
      exact same here

/-! ## Every edit keeps the invariant -/

/-- A rooted forest is well-formed once its size is set to the right number. -/
theorem Rooted.wellFormed_of_size (wf : f.Rooted) {size : Nat}
    (hsize : size = f.handles.countP f.inTree) : ({ f with size } : Forest α).WellFormed where
  toLinked := wf.toLinked.congr (fun _ => rfl) fun _ => rfl
  contains_head := wf.contains_head
  parent?_head := wf.parent?_head
  size_eq := by
    have linked : ({ f with size } : Forest α).Linked :=
      wf.toLinked.congr (fun _ => rfl) fun _ => rfl
    refine hsize.trans (List.countP_congr fun handle _ => ?_)
    rw [inTree, inTree, wf.toLinked.lineage_congr linked fun _ => rfl]
    rfl

namespace WellFormed

variable (wf : f.WellFormed)
include wf

theorem create (label : α) : (f.create label).2.WellFormed := by
  have linked : (f.create label).2.Linked :=
    wf.toLinked.congr (parent?_create f label) (children_create f label)
  have rooted : (f.create label).2.Rooted :=
    { toLinked := linked
      contains_head := fun head hhead =>
        (contains_create f label head).2 (.inr (wf.contains_head head hhead))
      parent?_head := fun head hhead => by
        rw [parent?_create]
        exact wf.parent?_head head hhead }
  have inTree_eq := wf.toRooted.inTree_congr rooted rfl
    (wf.toLinked.lineage_congr linked (parent?_create f label))
  apply rooted.wellFormed_of_size
  have outside : f.inTree f.nextHandle = false := by
    rw [inTree, not_contains_nextHandle, Bool.false_and]
  rw [handles_create, List.countP_append, List.countP_singleton, inTree_eq, outside,
    List.countP_congr fun handle _ => by rw [inTree_eq]]
  exact wf.size_eq

theorem attach (target : Option Handle) (handle : Handle) :
    (f.attach target handle).2.WellFormed := by
  rcases attach_cases f target handle with ⟨cause, hresult⟩ | ⟨known, hroot, hhead, hresult⟩ |
    ⟨parent, -, known, hroot, fresh, attached, apart, hresult⟩
  · rw [hresult]
    exact wf
  · rw [hresult]
    let headed : Forest α := { f with head := some handle }
    have linked : headed.Linked := wf.toLinked.congr (fun _ => rfl) fun _ => rfl
    have rooted : headed.Rooted :=
      { toLinked := linked
        contains_head := fun head same => Option.some.inj same ▸ known
        parent?_head := fun head same => Option.some.inj same ▸ hroot }
    have lineage_eq := wf.toLinked.lineage_congr linked fun _ => rfl
    apply rooted.wellFormed_of_size
    rw [wf.countBelow_add_one known, wf.length_subtree_eq_countP known]
    apply List.countP_congr
    intro other _
    rw [decide_eq_true_iff, rooted.inTree_iff rfl, lineage_eq]
  · rw [hresult]
    have graft := isGraft_link (contains_of_inTree attached) known hroot apart
    exact (graft.rooted wf.toRooted fresh).wellFormed_of_size
      (graft.size_graft wf known fresh attached).symm

theorem insert (target : Option Handle) (label : α) :
    (f.insert target label).2.WellFormed :=
  (wf.create label).attach target f.nextHandle

/-- Taking out a subtree leaves what is counted less the nodes of the subtree. -/
theorem size_unlink (attached : f.inTree handle = true) (inner : f.head ≠ some handle) :
    f.size = (f.unlink handle).handles.countP (f.unlink handle).inTree +
      ((f.unlink handle).countBelow handle + 1) := by
  have cut := isCut_unlink wf.toLinked handle
  have wg := cut.linked wf.toLinked
  have known := contains_of_inTree attached
  obtain ⟨head, hroot⟩ := wf.exists_head attached
  have placed : ∀ node ∈ [handle], f.parent? node ≠ none := by
    intro node here hnone
    rw [List.mem_singleton.1 here] at hnone
    rw [wf.inTree_iff hroot, wf.lineage_of_root hnone, List.mem_singleton] at attached
    exact inner (hroot.trans (congrArg some attached))
  rw [wg.countBelow_add_one ((cut.contains_eq handle).trans known),
    wg.length_subtree_eq_countP ((cut.contains_eq handle).trans known), cut.size_cut wf placed,
    handles_unlink]
  congr 1
  apply List.countP_congr
  intro lower _
  rw [decide_eq_true_iff, decide_eq_true_iff, cut.mem_lineage_iff_of_singleton wf.toLinked,
    wf.inTree_iff hroot]
  simp only [List.mem_singleton, exists_eq_right, and_iff_right_iff_imp]
  exact wf.mem_lineage_trans ((wf.inTree_iff hroot).1 attached)

theorem remove (handle : Handle) : (f.remove handle).2.WellFormed := by
  rcases remove_cases f handle with ⟨cause, hresult⟩ | ⟨-, -, hresult⟩ |
    ⟨attached, inner, hresult⟩
  · rw [hresult]
    exact wf
  · rw [hresult]
    exact .clear f
  · rw [hresult]
    have hsize := wf.size_unlink attached inner
    apply ((isCut_unlink wf.toLinked handle).rooted wf.toRooted).wellFormed_of_size
    omega

/-- A node has one of the children of another above it exactly when it stands below the other. -/
theorem exists_child_mem_lineage_iff {lower : Handle} :
    (∃ child ∈ f.lineage lower, child ∈ f.children handle) ↔
      handle ∈ f.lineage lower ∧ lower ≠ handle := by
  constructor
  · rintro ⟨child, above, here⟩
    refine ⟨wf.mem_lineage_trans ?_ above, ?_⟩
    · rw [wf.lineage_child here]
      exact List.mem_cons_of_mem _ (wf.mem_lineage_self handle)
    · rintro rfl
      exact wf.child_not_mem_lineage here above
  · rintro ⟨above, apart⟩
    induction lower using wf.induction_up with
    | root lower hroot =>
        rw [wf.lineage_of_root hroot, List.mem_singleton] at above
        exact absurd above.symm apart
    | below lower parent hparent ih =>
        rcases (wf.mem_lineage_child hparent).1 above with same | higher
        · exact absurd same.symm apart
        · by_cases here : parent = handle
          · exact ⟨lower, wf.mem_lineage_self lower, (wf.mem_children_iff handle lower).2
              (here ▸ hparent)⟩
          · obtain ⟨child, above, hchild⟩ := ih higher here
            exact ⟨child, (wf.mem_lineage_child hparent).2 (.inr above), hchild⟩

/-- Taking out the children of a node leaves what is counted less the nodes below it, if it belongs
to the tree proper, and otherwise what is counted. -/
theorem size_orphan (hcut : IsCut f g (f.children handle)) (known : f.contains handle = true) :
    f.size = g.handles.countP g.inTree +
      if f.inTree handle = true then f.countBelow handle else 0 := by
  have placed : ∀ node ∈ f.children handle, f.parent? node ≠ none := by
    intro node here
    rw [wf.mem_children_iff] at here
    simp [here]
  rw [hcut.size_cut wf placed]
  congr 1
  simp only [wf.exists_child_mem_lineage_iff]
  split
  case isTrue attached =>
    rw [wf.countBelow_eq_countP known]
    apply List.countP_congr
    intro lower _
    rw [decide_eq_true_iff, decide_eq_true_iff, and_iff_right_iff_imp]
    rintro ⟨above, -⟩
    obtain ⟨head, hroot⟩ := wf.exists_head attached
    rw [wf.inTree_iff hroot] at attached ⊢
    exact wf.mem_lineage_trans attached above
  case isFalse detached =>
    rw [List.countP_eq_zero]
    rintro lower - hlower
    obtain ⟨attached, above, -⟩ := of_decide_eq_true hlower
    apply detached
    obtain ⟨head, hroot⟩ := wf.exists_head attached
    -- The head has nothing above it, so it is above every member of a lineage it ends.
    rw [wf.inTree_iff hroot] at attached ⊢
    apply (wf.mem_lineage_or_mem_lineage attached above).resolve_right
    intro higher
    rw [wf.lineage_of_root (wf.parent?_head head hroot), List.mem_singleton] at higher
    exact detached (higher ▸ wf.inTree_head hroot)

theorem removeChildren (handle : Handle) : (f.removeChildren handle).2.WellFormed := by
  rcases removeChildren_cases f handle with ⟨-, hresult⟩ | ⟨known, hresult⟩
  · rw [hresult]
    exact wf
  · rw [hresult]
    have cut := isCut_orphan wf.toLinked handle
    have hsize := wf.size_orphan cut known
    apply (cut.rooted wf.toRooted).wellFormed_of_size
    split at hsize <;> simp_all

theorem apply (edit : Edit α) : (f.apply edit).2.WellFormed := by
  cases edit with
  | create label => exact wf.create label
  | insert parent label => exact wf.insert parent label
  | attach parent handle => exact wf.attach parent handle
  | remove handle => exact wf.remove handle
  | removeChildren handle => exact wf.removeChildren handle
  | clear => exact .clear f

theorem applyAll (edits : List (Edit α)) : (f.applyAll edits).WellFormed := by
  induction edits generalizing f with
  | nil => exact wf
  | cons edit rest ih => exact ih (wf.apply edit)

private theorem size_eq_countBelow {head : Handle} (hhead : f.head = some head) :
    f.size = 1 + f.countBelow head := by
  rw [wf.size_eq_length_subtree hhead,
    ← wf.countBelow_add_one (wf.contains_head head hhead), Nat.add_comm]

end WellFormed

/-- Every forest that edits lead to stores its links consistently. Both copies of a link agree, no
child is stored twice, and every stored handle is valid. Walking upwards ends, without repetition;
walking downwards meets every node below exactly once. The head has no parent, and the size counts
the nodes of the tree proper, so that neither of the edits that lower it takes away too much. -/
theorem representation_applyAll {α : Type} (edits : List (Edit α)) :
    let f := ({} : Forest α).applyAll edits
    (∀ parent child, child ∈ f.children parent ↔ f.parent? child = some parent) ∧
    (∀ handle, (f.children handle).Nodup) ∧
    (∀ handle node, f.node? handle = some node →
      (∀ parent, node.parent = some parent → f.contains parent = true) ∧
      ∀ child ∈ node.children, f.contains child = true) ∧
    (∀ handle, f.IsLineage handle (f.lineage handle) ∧ (f.lineage handle).Nodup) ∧
    (∀ handle, f.contains handle = true → (f.preorder handle).Nodup ∧
      ∀ lower, lower ∈ f.preorder handle ↔ handle ∈ f.lineage lower) ∧
    (∀ head, f.head = some head → f.contains head = true ∧ f.parent? head = none) ∧
    f.size = f.handles.countP f.inTree ∧
    f.size = (match f.head with
      | some head => 1 + f.countBelow head
      | none => 0) ∧
    (∀ handle, f.inTree handle = true → f.head ≠ some handle →
      (f.unlink handle).countBelow handle + 1 ≤ f.size) ∧
    (∀ handle, f.inTree handle = true → f.countBelow handle ≤ f.size) := by
  intro f
  have wf : f.WellFormed := WellFormed.empty.applyAll edits
  refine ⟨wf.mem_children_iff, wf.nodup_children, ?_, ?_, ?_, ?_, wf.size_eq, ?_, ?_, ?_⟩
  · intro handle node hnode
    refine ⟨fun parent hparent => ?_, fun child here => ?_⟩
    · exact wf.contains_parent ((parent?_of_node? hnode).trans hparent)
    · exact wf.contains_child (children_of_node? hnode ▸ here)
  · exact fun handle => ⟨wf.isLineage_lineage handle, wf.nodup_lineage handle⟩
  · intro handle known
    rw [wf.preorder_eq known]
    exact ⟨wf.nodup_subtree handle, fun lower => wf.mem_subtree_iff⟩
  · exact fun head hhead => ⟨wf.contains_head head hhead, wf.parent?_head head hhead⟩
  · cases hhead : f.head with
    | some head => exact wf.size_eq_countBelow hhead
    | none => exact wf.size_eq_zero hhead
  · intro handle attached inner
    have hsize := wf.size_unlink attached inner
    omega
  · intro handle attached
    have hsize := wf.size_orphan (isCut_orphan wf.toLinked handle) (contains_of_inTree attached)
    rw [if_pos attached] at hsize
    omega

end CommandEngine.Forest
