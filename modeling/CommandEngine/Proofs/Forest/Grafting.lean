import CommandEngine.Proofs.Forest.Subtree
/-!
# Joining and cutting trees

Two changes of links make up all edits of a forest. A graft hangs the root of one tree below a node
of another, and a cut makes some nodes roots of trees of their own. Both are described here by what
the two forests look like from outside, so that the edits, which reach them in several ways, share
one argument for each.

What an edit has to know is how lineages change. A graft prolongs exactly the lineages through the
grafted node; a cut shortens exactly those through a node it cuts loose. From this follow the links
of the changed forest and, by counting lineages through the head, the size of its tree proper.
-/

namespace CommandEngine.Forest

variable {α : Type} {f g : Forest α} {handle parent child : Handle}

/-- A lineage depends on nothing but the links upwards. -/
theorem IsLineage.congr {line : List Handle}
    (hparent : ∀ handle, g.parent? handle = f.parent? handle)
    (hline : f.IsLineage handle line) : g.IsLineage handle line := by
  induction hline with
  | root hroot => exact .root ((hparent _).trans hroot)
  | step hstep _ ih => exact .step ((hparent _).trans hstep) ih

namespace Linked

theorem congr (wf : f.Linked) (hparent : ∀ handle, g.parent? handle = f.parent? handle)
    (hchildren : ∀ handle, g.children handle = f.children handle) : g.Linked where
  mem_children_iff parent child := by
    rw [hchildren, hparent]
    exact wf.mem_children_iff parent child
  nodup_children handle := by
    rw [hchildren]
    exact wf.nodup_children handle
  grounded handle := ⟨f.lineage handle, (wf.isLineage_lineage handle).congr hparent⟩

theorem lineage_congr (wf : f.Linked) (wg : g.Linked)
    (hparent : ∀ handle, g.parent? handle = f.parent? handle) (handle : Handle) :
    g.lineage handle = f.lineage handle :=
  (wg.isLineage_lineage handle).unique ((wf.isLineage_lineage handle).congr hparent)

end Linked

/-- With the same head and the same lineages, the same nodes belong to the tree proper. -/
theorem Rooted.inTree_congr (wf : f.Rooted) (wg : g.Rooted) (hhead : g.head = f.head)
    (hline : ∀ handle, g.lineage handle = f.lineage handle) (handle : Handle) :
    g.inTree handle = f.inTree handle := by
  cases hroot : f.head with
  | none =>
      rw [wf.inTree_eq_false_of_isEmpty hroot, wg.inTree_eq_false_of_isEmpty (hhead.trans hroot)]
  | some head =>
      rw [Bool.eq_iff_iff, wf.inTree_iff hroot, wg.inTree_iff (hhead.trans hroot), hline]

/-- A forest in which the root of a tree has been hung below a node of another tree. -/
structure IsGraft (f g : Forest α) (parent child : Handle) : Prop where
  handles_eq : g.handles = f.handles
  head_eq : g.head = f.head
  parent?_eq : ∀ other, g.parent? other = if other = child then some parent else f.parent? other
  children_eq : ∀ other,
    g.children other = if other = parent then f.children parent ++ [child] else f.children other
  parent?_child : f.parent? child = none
  /-- It was not the root of the tree it is grafted to. -/
  apart : child ∉ f.lineage parent

namespace IsGraft

variable (graft : IsGraft f g parent child)
include graft

/-- A lineage that does not meet the grafted node stays as it is. -/
theorem isLineage_of_not_mem (wf : f.Linked) (elsewhere : child ∉ f.lineage handle) :
    g.IsLineage handle (f.lineage handle) := by
  induction handle using wf.induction_up with
  | root handle hroot =>
      rw [wf.lineage_of_root hroot, List.mem_singleton] at elsewhere
      rw [wf.lineage_of_root hroot]
      exact .root (by rw [graft.parent?_eq, if_neg (Ne.symm elsewhere), hroot])
  | below handle parent hparent ih =>
      rw [wf.lineage_of_parent hparent, List.mem_cons, not_or] at elsewhere
      rw [wf.lineage_of_parent hparent]
      exact .step (by rw [graft.parent?_eq, if_neg (Ne.symm elsewhere.1), hparent])
        (ih elsewhere.2)

/-- A lineage through the grafted node goes on above the node it is grafted to. -/
theorem isLineage (wf : f.Linked) (handle : Handle) :
    g.IsLineage handle
      (f.lineage handle ++ if child ∈ f.lineage handle then f.lineage parent else []) := by
  induction handle using wf.induction_up with
  | root handle hroot =>
      rw [wf.lineage_of_root hroot]
      simp only [List.mem_singleton]
      by_cases grafted : child = handle
      · subst grafted
        rw [if_pos rfl]
        exact .step (by rw [graft.parent?_eq, if_pos rfl])
          (graft.isLineage_of_not_mem wf graft.apart)
      · rw [if_neg grafted]
        exact .root (by rw [graft.parent?_eq, if_neg (Ne.symm grafted), hroot])
  | below handle above hparent ih =>
      have other : handle ≠ child := by
        rintro rfl
        rw [graft.parent?_child] at hparent
        cases hparent
      rw [wf.lineage_of_parent hparent, List.cons_append]
      simp only [List.mem_cons, Ne.symm other, false_or]
      exact .step (by rw [graft.parent?_eq, if_neg other, hparent]) ih

theorem linked (wf : f.Linked) : g.Linked where
  mem_children_iff upper lower := by
    rw [graft.children_eq, graft.parent?_eq]
    by_cases grafted : lower = child
    · subst grafted
      rw [if_pos rfl]
      by_cases here : upper = parent
      · simp [here]
      · rw [if_neg here, wf.mem_children_iff, graft.parent?_child]
        simp [Ne.symm here]
    · rw [if_neg grafted]
      by_cases here : upper = parent
      · subst here
        simp [grafted, wf.mem_children_iff]
      · rw [if_neg here, wf.mem_children_iff]
  nodup_children handle := by
    rw [graft.children_eq]
    split
    · refine List.nodup_append.2 ⟨wf.nodup_children parent, List.nodup_singleton _, ?_⟩
      intro lower here last hlast
      rw [wf.mem_children_iff] at here
      rw [List.mem_singleton.1 hlast]
      rintro rfl
      rw [graft.parent?_child] at here
      cases here
    · exact wf.nodup_children handle
  grounded handle := ⟨_, graft.isLineage wf handle⟩

theorem lineage_eq (wf : f.Linked) (handle : Handle) :
    g.lineage handle =
      f.lineage handle ++ if child ∈ f.lineage handle then f.lineage parent else [] :=
  ((graft.linked wf).isLineage_lineage handle).unique (graft.isLineage wf handle)

theorem contains_eq (handle : Handle) : g.contains handle = f.contains handle := by
  rw [Bool.eq_iff_iff, ← mem_handles, ← mem_handles, graft.handles_eq]

theorem rooted (wf : f.Rooted) (fresh : f.head ≠ some child) : g.Rooted where
  toLinked := graft.linked wf.toLinked
  contains_head head hhead := by
    rw [graft.contains_eq]
    exact wf.contains_head head (graft.head_eq ▸ hhead)
  parent?_head head hhead := by
    rw [graft.head_eq] at hhead
    have other : head ≠ child := by
      rintro rfl
      exact fresh hhead
    rw [graft.parent?_eq, if_neg other]
    exact wf.parent?_head head hhead

/-- Grafting below a node of the tree proper adds the grafted tree to it and takes nothing away. -/
theorem inTree_iff (wf : f.Rooted) (fresh : f.head ≠ some child)
    (attached : f.inTree parent = true) (handle : Handle) :
    g.inTree handle = true ↔ f.inTree handle = true ∨ child ∈ f.lineage handle := by
  obtain ⟨head, hroot⟩ := wf.exists_head attached
  rw [wf.inTree_iff hroot] at attached
  rw [(graft.rooted wf fresh).inTree_iff (graft.head_eq.trans hroot), wf.inTree_iff hroot,
    graft.lineage_eq wf.toLinked, List.mem_append]
  by_cases through : child ∈ f.lineage handle <;> simp [through, attached]

/-- The size of the tree proper is no link. -/
theorem resize (size : Nat) : IsGraft f { g with size } parent child :=
  { handles_eq := graft.handles_eq
    head_eq := graft.head_eq
    parent?_eq := graft.parent?_eq
    children_eq := graft.children_eq
    parent?_child := graft.parent?_child
    apart := graft.apart }

end IsGraft

/-! ## Cuts -/

/-- A forest in which some nodes have been made roots of trees of their own. -/
structure IsCut (f g : Forest α) (loose : List Handle) : Prop where
  handles_eq : g.handles = f.handles
  head_eq : g.head = f.head
  parent?_eq : ∀ other, g.parent? other = if other ∈ loose then none else f.parent? other
  children_eq : ∀ other, g.children other = (f.children other).filter (· ∉ loose)

namespace IsCut

variable {loose : List Handle} (cut : IsCut f g loose)
include cut

theorem linked (wf : f.Linked) : g.Linked where
  mem_children_iff upper lower := by
    rw [cut.children_eq, cut.parent?_eq, List.mem_filter, wf.mem_children_iff]
    by_cases here : lower ∈ loose <;> simp [here]
  nodup_children handle := by
    rw [cut.children_eq]
    exact (wf.nodup_children handle).filter _
  grounded handle := by
    induction handle using wf.induction_up with
    | root handle hroot => exact ⟨_, .root (by rw [cut.parent?_eq, hroot, ite_self])⟩
    | below handle parent hparent ih =>
        by_cases here : handle ∈ loose
        · exact ⟨_, .root (by rw [cut.parent?_eq, if_pos here])⟩
        · obtain ⟨line, hline⟩ := ih
          exact ⟨_, .step (by rw [cut.parent?_eq, if_neg here, hparent]) hline⟩

theorem contains_eq (handle : Handle) : g.contains handle = f.contains handle := by
  rw [Bool.eq_iff_iff, ← mem_handles, ← mem_handles, cut.handles_eq]

theorem rooted (wf : f.Rooted) : g.Rooted where
  toLinked := cut.linked wf.toLinked
  contains_head head hhead := by
    rw [cut.contains_eq]
    exact wf.contains_head head (cut.head_eq ▸ hhead)
  parent?_head head hhead := by
    rw [cut.parent?_eq, wf.parent?_head head (cut.head_eq ▸ hhead), ite_self]

/-- A root stays above the nodes whose lineage meets no node that is cut loose. -/
theorem mem_lineage_iff_of_root (wf : f.Linked) {root : Handle} (hroot : f.parent? root = none)
    (placed : ∀ node ∈ loose, f.parent? node ≠ none) (handle : Handle) :
    root ∈ g.lineage handle ↔
      root ∈ f.lineage handle ∧ ∀ node ∈ f.lineage handle, node ∉ loose := by
  have wg := cut.linked wf
  induction handle using wf.induction_up with
  | root handle hhandle =>
      have free : handle ∉ loose := fun here => placed handle here hhandle
      rw [wf.lineage_of_root hhandle,
        wg.lineage_of_root (by rw [cut.parent?_eq, hhandle, ite_self])]
      simp [free]
  | below handle parent hparent ih =>
      have other : root ≠ handle := by
        rintro rfl
        rw [hroot] at hparent
        cases hparent
      rw [wf.lineage_of_parent hparent]
      by_cases here : handle ∈ loose
      · rw [wg.lineage_of_root (by rw [cut.parent?_eq, if_pos here])]
        simp [other, here]
      · rw [wg.lineage_of_parent (by rw [cut.parent?_eq, if_neg here, hparent]), List.mem_cons]
        simp [other, here, ih]

/-- The tree proper keeps the nodes whose lineage meets no node that is cut loose. -/
theorem inTree_iff (wf : f.Rooted) (placed : ∀ node ∈ loose, f.parent? node ≠ none)
    (handle : Handle) :
    g.inTree handle = true ↔
      f.inTree handle = true ∧ ∀ node ∈ f.lineage handle, node ∉ loose := by
  cases hroot : f.head with
  | none =>
      simp [wf.inTree_eq_false_of_isEmpty hroot,
        (cut.rooted wf).inTree_eq_false_of_isEmpty (cut.head_eq.trans hroot)]
  | some head =>
      rw [(cut.rooted wf).inTree_iff (cut.head_eq.trans hroot), wf.inTree_iff hroot]
      exact cut.mem_lineage_iff_of_root wf.toLinked (wf.parent?_head head hroot) placed handle

/-- The size of the tree proper is no link. -/
theorem resize (size : Nat) : IsCut f { g with size } loose :=
  { handles_eq := cut.handles_eq
    head_eq := cut.head_eq
    parent?_eq := cut.parent?_eq
    children_eq := cut.children_eq }

end IsCut

/-- A node that alone is cut loose keeps everything that was below it. -/
theorem IsCut.mem_lineage_iff_of_singleton (wf : f.Linked) (cut : IsCut f g [child])
    (handle : Handle) : child ∈ g.lineage handle ↔ child ∈ f.lineage handle := by
  have wg := cut.linked wf
  induction handle using wf.induction_up with
  | root handle hroot =>
      rw [wf.lineage_of_root hroot, wg.lineage_of_root (by rw [cut.parent?_eq, hroot, ite_self])]
  | below handle parent hparent ih =>
      by_cases here : handle = child
      · subst here
        exact iff_of_true (wg.mem_lineage_self handle) (wf.mem_lineage_self handle)
      · rw [wf.lineage_of_parent hparent,
          wg.lineage_of_parent (by simpa [cut.parent?_eq, here] using hparent), List.mem_cons,
          List.mem_cons]
        exact or_congr_right ih

end CommandEngine.Forest
