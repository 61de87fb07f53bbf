import CommandEngine.Proofs.Forest.Subtree
import CommandEngine.Proofs.Forest.Validity
/-!
# Listing a subtree step by step

The listing that runs keeps a list of waiting nodes. It takes the first of them, and the children of
that node wait in its place. Nothing about these steps says that they come to an end: the list may
grow with each of them, and in a forest whose links are broken it would never be empty.

`Walks` has the steps by themselves, without the fuel that the definition carries. In a linked
forest they always come to an end, by induction on what is below the first waiting node, and what
they list for one node is the node and then, for one child after the other, what they list for the
child (`preorder_is_recursive`). Which nodes are listed is a matter of the links upwards: the nodes
with the given one in their lineage, so those of the tree proper are the ones listed for its head.
-/

namespace CommandEngine.Forest

variable {α : Type} {f : Forest α} {handle : Handle} {waiting listed : List Handle}

/-- What is listed from waiting nodes. Every node that is taken has to be there. -/
inductive Walks (f : Forest α) : List Handle → List Handle → Prop
  | done : Walks f [] []
  | /-- The first waiting node is listed, and its children wait in its place. -/
    visit {handle : Handle} {waiting listed : List Handle} (known : f.contains handle = true)
      (rest : Walks f (f.children handle ++ waiting) listed) :
      Walks f (handle :: waiting) (handle :: listed)

/-- The steps leave no choice. -/
theorem Walks.unique {other : List Handle} (walks : f.Walks waiting listed)
    (walks' : f.Walks waiting other) : listed = other := by
  induction walks generalizing other with
  | done =>
      cases walks'
      rfl
  | visit _ _ ih =>
      cases walks' with
      | visit _ rest => rw [ih rest]

/-- If each of some nodes is listed with its subtree before the walk goes on, then so are all of
them in turn. -/
theorem walks_append {nodes : List Handle}
    (walks : ∀ node ∈ nodes, ∀ waiting listed, f.Walks waiting listed →
      f.Walks (node :: waiting) (f.subtree node ++ listed))
    (rest : f.Walks waiting listed) :
    f.Walks (nodes ++ waiting) (nodes.flatMap f.subtree ++ listed) := by
  induction nodes with
  | nil => exact rest
  | cons node nodes ih =>
      rw [List.forall_mem_cons] at walks
      rw [List.flatMap_cons, List.append_assoc]
      exact walks.1 _ _ (ih walks.2)

namespace Linked

variable (wf : f.Linked)
include wf

/-- The walk lists the subtree of the first waiting node before it comes to the others. -/
theorem walks_cons (known : f.contains handle = true) (rest : f.Walks waiting listed) :
    f.Walks (handle :: waiting) (f.subtree handle ++ listed) := by
  induction handle using wf.induction_down generalizing waiting listed with
  | node handle ih =>
      rw [wf.subtree_eq, List.cons_append]
      refine .visit known (walks_append (fun child here waiting listed rest => ?_) rest)
      exact ih child here (wf.contains_child here) rest

/-- The walk from a node comes to an end, and lists what the definition lists. -/
theorem walks_iff (known : f.contains handle = true) :
    f.Walks [handle] listed ↔ listed = f.preorder handle := by
  have walks : f.Walks [handle] (f.preorder handle) := by
    rw [wf.preorder_eq known, ← List.append_nil (f.subtree handle)]
    exact wf.walks_cons known .done
  constructor
  · exact fun other => other.unique walks
  · rintro rfl
    exact walks

/-- A node is listed first, and then what is listed for its children. -/
theorem preorder_eq_cons (known : f.contains handle = true) :
    f.preorder handle = handle :: (f.children handle).flatMap f.preorder := by
  rw [wf.preorder_eq known, wf.subtree_eq]
  congr 1
  exact List.flatMap_congr fun child here => (wf.preorder_eq (wf.contains_child here)).symm

/-- The nodes listed for a node are those with the node in their lineage. -/
theorem mem_preorder_iff {lower : Handle} (known : f.contains handle = true) :
    lower ∈ f.preorder handle ↔
      f.contains lower = true ∧ ∃ line, f.IsLineage lower line ∧ handle ∈ line := by
  rw [wf.preorder_eq known]
  constructor
  · intro here
    exact ⟨wf.contains_of_mem_subtree known here, f.lineage lower, wf.isLineage_lineage lower,
      wf.mem_subtree_iff.1 here⟩
  · rintro ⟨-, line, hline, above⟩
    rw [hline.unique (wf.isLineage_lineage lower)] at above
    exact wf.mem_subtree_iff.2 above

end Linked

/-- The nodes of the tree proper are those listed for its head. -/
theorem Rooted.inTree_iff_mem_preorder (wf : f.Rooted) :
    f.inTree handle = true ↔ ∃ head, f.head = some head ∧ handle ∈ f.preorder head := by
  constructor
  · intro attached
    obtain ⟨head, hhead⟩ := wf.exists_head attached
    refine ⟨head, hhead, ?_⟩
    rw [wf.preorder_eq (wf.contains_head head hhead)]
    exact (wf.inTree_iff_mem_subtree hhead).1 attached
  · rintro ⟨head, hhead, here⟩
    rw [wf.preorder_eq (wf.contains_head head hhead)] at here
    exact (wf.inTree_iff_mem_subtree hhead).2 here

/-- Let a forest come about by operations. The steps of the walk from a node come to an end, and
what they list is what the definition lists: the node, and then what it lists for each child in
turn. No node is listed twice, and those listed are the ones with the given node in their lineage,
so that the nodes below a node are counted without error. The nodes of the tree proper are those
listed for its head. -/
theorem preorder_is_recursive (operations : List (Operation α)) :
    let f := ({} : Forest α).performAll operations
    (∀ handle, f.contains handle = true →
      (∀ listed, f.Walks [handle] listed ↔ listed = f.preorder handle) ∧
      f.preorder handle = handle :: (f.children handle).flatMap f.preorder ∧
      (f.preorder handle).Nodup ∧
      (∀ lower, lower ∈ f.preorder handle ↔
        f.contains lower = true ∧ ∃ line, f.IsLineage lower line ∧ handle ∈ line) ∧
      f.countBelow handle =
        f.handles.countP fun lower => handle ∈ f.lineage lower ∧ lower ≠ handle) ∧
    (∀ handle, f.IsLineage handle (f.lineage handle)) ∧
    ∀ handle, f.inTree handle = true ↔ ∃ head, f.head = some head ∧ handle ∈ f.preorder head := by
  intro f
  have wf : f.WellFormed := (Reachable.empty.performAll operations).wellFormed
  refine ⟨fun handle known => ⟨fun listed => wf.walks_iff known, wf.preorder_eq_cons known, ?_,
    fun lower => wf.mem_preorder_iff known, wf.countBelow_eq_countP known⟩,
    wf.isLineage_lineage, fun handle => wf.toRooted.inTree_iff_mem_preorder⟩
  rw [wf.preorder_eq known]
  exact wf.nodup_subtree handle

end CommandEngine.Forest
