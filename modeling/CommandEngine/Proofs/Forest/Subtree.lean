import CommandEngine.Proofs.Forest.WellFormed
import Mathlib.Data.List.Flatten
/-!
# Walking down a well-formed forest

Upwards a walk ends because every lineage is finite; downwards it ends because a lineage is at most
as long as the arena, and each step down makes it longer. `Linked.induction_down` packages that
argument, and both listings of a subtree follow from it: the recursive one satisfies its equation
without any fuel, and the walk with a list of waiting nodes lists the same nodes in the same order.

The two directions then agree: a node is listed below another exactly when the other stands in its
lineage, and it is listed once. The size of a subtree is therefore a number of lineages, which is
what the edits of a forest are counted by.
-/

namespace CommandEngine.Forest

variable {α : Type} {f : Forest α} {handle parent child : Handle}

namespace Linked

variable (wf : f.Linked)
include wf

theorem lineage_child (here : child ∈ f.children parent) :
    f.lineage child = child :: f.lineage parent :=
  wf.lineage_of_parent ((wf.mem_children_iff parent child).1 here)

/-- A node that has a child has room for it below. -/
theorem length_lineage_lt (here : child ∈ f.children parent) :
    (f.lineage parent).length < f.nodes.size := by
  have bound := length_le_of_nodup (wf.nodup_lineage child)
    (wf.contains_of_mem_isLineage (wf.isLineage_lineage child) (wf.contains_child here))
  rw [wf.lineage_child here, List.length_cons] at bound
  omega

/-- What holds of a node whenever it holds of its children holds of all nodes. -/
@[elab_as_elim]
theorem induction_down {motive : Handle → Prop}
    (node : ∀ handle, (∀ child ∈ f.children handle, motive child) → motive handle)
    (handle : Handle) : motive handle := by
  -- The room left below a node, measured by its lineage, shrinks with every step down.
  generalize hroom : f.nodes.size - (f.lineage handle).length = room
  induction room using Nat.strongRecOn generalizing handle with
  | _ room ih =>
      apply node handle
      intro child here
      have bound := wf.length_lineage_lt here
      refine ih (f.nodes.size - (f.lineage child).length) ?_ child rfl
      rw [wf.lineage_child here, List.length_cons]
      omega

/-- Fuel that reaches the deepest possible level lists as much as the arena's. -/
theorem subtreeFor_eq (handle : Handle) {fuel : Nat}
    (enough : f.nodes.size ≤ fuel + (f.lineage handle).length) :
    f.subtreeFor fuel handle = f.subtree handle := by
  unfold subtree
  generalize hsize : f.nodes.size = size at enough
  induction handle using wf.induction_down generalizing fuel size with
  | node handle ih =>
      cases hchildren : f.children handle with
      | nil =>
          have alone (fuel : Nat) : f.subtreeFor fuel handle = [handle] := by
            cases fuel <;> simp [subtreeFor, hchildren]
          rw [alone, alone]
      | cons first rest =>
          have here : first ∈ f.children handle := by simp [hchildren]
          have bound := wf.length_lineage_lt here
          cases fuel with
          | zero => omega
          | succ fuel =>
              cases size with
              | zero => omega
              | succ size =>
                  rw [subtreeFor, subtreeFor]
                  congr 1
                  apply List.flatMap_congr
                  intro child here
                  have longer := congrArg List.length (wf.lineage_child here)
                  rw [List.length_cons] at longer
                  exact (ih child here (size + 1) hsize (by omega)).trans
                    (ih child here (size + 1) hsize (by omega)).symm

/-- A subtree is its root followed by the subtrees of the children. -/
theorem subtree_eq (handle : Handle) :
    f.subtree handle = handle :: (f.children handle).flatMap f.subtree := by
  have deeper : f.subtreeFor (f.nodes.size + 1) handle = f.subtree handle :=
    wf.subtreeFor_eq handle (by omega)
  rw [← deeper]
  rfl

theorem mem_subtree_self (handle : Handle) : handle ∈ f.subtree handle := by
  rw [wf.subtree_eq]
  exact List.mem_cons_self

theorem mem_subtree_of_child {lower : Handle} (here : child ∈ f.children parent)
    (hlower : lower ∈ f.subtree child) : lower ∈ f.subtree parent := by
  rw [wf.subtree_eq]
  exact List.mem_cons_of_mem _ (List.mem_flatMap.2 ⟨child, here, hlower⟩)

/-- A subtree holds the children of all its nodes. -/
theorem child_mem_subtree (hparent : parent ∈ f.subtree handle)
    (here : child ∈ f.children parent) : child ∈ f.subtree handle := by
  induction handle using wf.induction_down with
  | node handle ih =>
      rw [wf.subtree_eq, List.mem_cons, List.mem_flatMap] at hparent
      rcases hparent with rfl | ⟨next, hnext, hparent⟩
      · exact wf.mem_subtree_of_child here (wf.mem_subtree_self child)
      · exact wf.mem_subtree_of_child hnext (ih next hnext hparent)

/-- A node is listed below another exactly when the other stands above it. -/
theorem mem_subtree_iff {upper lower : Handle} :
    lower ∈ f.subtree upper ↔ upper ∈ f.lineage lower := by
  constructor
  · intro here
    induction upper using wf.induction_down with
    | node upper ih =>
        rw [wf.subtree_eq, List.mem_cons, List.mem_flatMap] at here
        rcases here with rfl | ⟨child, hchild, here⟩
        · exact wf.mem_lineage_self _
        · refine wf.mem_lineage_trans ?_ (ih child hchild here)
          rw [wf.lineage_child hchild]
          exact List.mem_cons_of_mem _ (wf.mem_lineage_self upper)
  · intro here
    induction lower using wf.induction_up with
    | root lower hparent =>
        rw [wf.lineage_of_root hparent, List.mem_singleton] at here
        exact here ▸ wf.mem_subtree_self upper
    | below lower parent hparent ih =>
        rcases (wf.mem_lineage_child hparent).1 here with rfl | higher
        · exact wf.mem_subtree_self _
        · exact wf.child_mem_subtree (ih higher) ((wf.mem_children_iff parent lower).2 hparent)

/-- Of two nodes above a node, one is above the other. -/
theorem mem_lineage_or_mem_lineage {first second lower : Handle}
    (hfirst : first ∈ f.lineage lower) (hsecond : second ∈ f.lineage lower) :
    first ∈ f.lineage second ∨ second ∈ f.lineage first := by
  obtain ⟨_, hline, suffix⟩ := (wf.isLineage_lineage lower).exists_suffix hfirst
  obtain ⟨_, hline', suffix'⟩ := (wf.isLineage_lineage lower).exists_suffix hsecond
  rw [hline.unique (wf.isLineage_lineage first)] at suffix
  rw [hline'.unique (wf.isLineage_lineage second)] at suffix'
  rcases List.suffix_or_suffix_of_suffix suffix suffix' with inner | inner
  · exact .inl (inner.subset (wf.mem_lineage_self first))
  · exact .inr (inner.subset (wf.mem_lineage_self second))

/-- A child is not above its own parent. -/
theorem child_not_mem_lineage (here : child ∈ f.children parent) : child ∉ f.lineage parent := by
  have hnodup := wf.nodup_lineage child
  rw [wf.lineage_child here] at hnodup
  exact (List.nodup_cons.1 hnodup).1

/-- A node stands below one child of a node at most. -/
theorem eq_of_mem_subtree {other lower : Handle} (here : child ∈ f.children parent)
    (here' : other ∈ f.children parent) (below : lower ∈ f.subtree child)
    (below' : lower ∈ f.subtree other) : child = other := by
  rcases wf.mem_lineage_or_mem_lineage (wf.mem_subtree_iff.1 below)
    (wf.mem_subtree_iff.1 below') with above | above
  · rw [wf.lineage_child here', List.mem_cons] at above
    exact above.resolve_right (wf.child_not_mem_lineage here)
  · rw [wf.lineage_child here, List.mem_cons] at above
    exact (above.resolve_right (wf.child_not_mem_lineage here')).symm

/-- A subtree lists no node twice. -/
theorem nodup_subtree (handle : Handle) : (f.subtree handle).Nodup := by
  induction handle using wf.induction_down with
  | node handle ih =>
      rw [wf.subtree_eq, List.nodup_cons, List.nodup_flatMap]
      refine ⟨fun again => ?_, ih, ?_⟩
      · obtain ⟨child, here, again⟩ := List.mem_flatMap.1 again
        exact wf.child_not_mem_lineage here (wf.mem_subtree_iff.1 again)
      · apply (wf.nodup_children handle).imp_of_mem
        intro first second here here' apart lower below below'
        exact apart (wf.eq_of_mem_subtree here here' below below')

theorem contains_of_mem_subtree {lower : Handle} (known : f.contains handle = true)
    (here : lower ∈ f.subtree handle) : f.contains lower = true := by
  by_contra unknown
  have above := wf.mem_subtree_iff.1 here
  rw [wf.lineage_of_root (parent?_of_not_contains (by simpa using unknown)),
    List.mem_singleton] at above
  exact unknown (above ▸ known)

theorem length_subtree_le (known : f.contains handle = true) :
    (f.subtree handle).length ≤ f.nodes.size :=
  length_le_of_nodup (wf.nodup_subtree handle) fun _ => wf.contains_of_mem_subtree known

/-! ## The walk with waiting nodes -/

/-- With fuel for all of their nodes, the walk lists the subtrees of the waiting nodes in turn. -/
theorem visitFor_eq {fuel : Nat} {waiting : List Handle}
    (enough : (waiting.flatMap f.subtree).length ≤ fuel) :
    f.visitFor fuel waiting = waiting.flatMap f.subtree := by
  induction fuel generalizing waiting with
  | zero =>
      rw [visitFor]
      exact (List.length_eq_zero_iff.1 (Nat.le_zero.1 enough)).symm
  | succ fuel ih =>
      cases waiting with
      | nil => rfl
      | cons handle waiting =>
          have spread : (handle :: waiting).flatMap f.subtree =
              handle :: (f.children handle ++ waiting).flatMap f.subtree := by
            rw [List.flatMap_cons, wf.subtree_eq, List.cons_append, List.flatMap_append]
          rw [spread, List.length_cons] at enough
          rw [spread, visitFor, ih (Nat.le_of_succ_le_succ enough)]

/-- The listing that runs is the recursive one. -/
theorem preorder_eq (known : f.contains handle = true) :
    f.preorder handle = f.subtree handle := by
  have bound := wf.length_subtree_le known
  rw [preorder, if_pos known, wf.visitFor_eq (by simpa using bound), List.flatMap_singleton]

theorem countBelow_add_one (known : f.contains handle = true) :
    f.countBelow handle + 1 = (f.subtree handle).length := by
  rw [countBelow, wf.preorder_eq known, wf.subtree_eq, List.length_cons]
  rfl

/-- A subtree holds the nodes whose lineages go through its root, each once. -/
theorem perm_subtree (known : f.contains handle = true) :
    (f.subtree handle).Perm (f.handles.filter fun lower => handle ∈ f.lineage lower) := by
  refine (List.perm_ext_iff_of_nodup (wf.nodup_subtree handle)
    (f.nodup_handles.filter _)).2 fun lower => ?_
  rw [List.mem_filter, mem_handles, decide_eq_true_iff, wf.mem_subtree_iff]
  exact ⟨fun above => ⟨wf.contains_of_mem_subtree known (wf.mem_subtree_iff.2 above), above⟩,
    And.right⟩

theorem length_subtree_eq_countP (known : f.contains handle = true) :
    (f.subtree handle).length = f.handles.countP fun lower => handle ∈ f.lineage lower := by
  rw [List.countP_eq_length_filter, (wf.perm_subtree known).length_eq]

end Linked

namespace Rooted

variable {head : Handle} (wf : f.Rooted) (hhead : f.head = some head)
include wf hhead

/-- The nodes of the tree proper are those listed below its head. -/
theorem inTree_iff_mem_subtree : f.inTree handle = true ↔ handle ∈ f.subtree head := by
  rw [wf.inTree_iff hhead, wf.mem_subtree_iff]

/-- A node of the tree proper other than the head has its parent there. -/
theorem exists_parent_mem_subtree (attached : f.inTree handle = true) (inner : handle ≠ head) :
    ∃ parent, f.parent? handle = some parent ∧ parent ∈ f.subtree head := by
  have above := (wf.inTree_iff hhead).1 attached
  cases hparent : f.parent? handle with
  | none =>
      rw [wf.lineage_of_root hparent, List.mem_singleton] at above
      exact absurd above.symm inner
  | some parent =>
      rw [wf.mem_lineage_child hparent] at above
      exact ⟨parent, rfl, wf.mem_subtree_iff.2 (above.resolve_left (Ne.symm inner))⟩

/-- The nodes of the tree proper are those of the subtree of the head. -/
theorem perm_subtree_head : (f.subtree head).Perm (f.handles.filter f.inTree) := by
  have hfilter : (f.handles.filter fun lower => head ∈ f.lineage lower) =
      f.handles.filter f.inTree := by
    apply List.filter_congr
    intro handle _
    rw [Bool.eq_iff_iff, decide_eq_true_iff, wf.inTree_iff hhead]
  rw [← hfilter]
  exact wf.perm_subtree (wf.contains_head head hhead)

private theorem length_subtree_eq : (f.subtree head).length = f.handles.countP f.inTree := by
  rw [List.countP_eq_length_filter, (wf.perm_subtree_head hhead).length_eq]

end Rooted

namespace WellFormed

variable (wf : f.WellFormed)
include wf

theorem size_eq_length_subtree {head : Handle} (hhead : f.head = some head) :
    f.size = (f.subtree head).length := by
  rw [wf.size_eq, wf.length_subtree_eq hhead]

theorem size_eq_zero (hhead : f.head = none) : f.size = 0 := by
  rw [wf.size_eq, List.countP_eq_zero]
  simp [wf.inTree_eq_false_of_isEmpty hhead]

end WellFormed

end CommandEngine.Forest
