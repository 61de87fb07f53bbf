import CommandEngine.Proofs.Forest.Growth
/-!
# Where a graft is listed

A change of the children of one node changes the listing where the subtree of this node stands, and
nowhere else (`DifferAt.exists_subtree_eq`). So a grafted tree is listed as a whole, right behind
the former subtree of the node it hangs below (`IsGraft.exists_subtree_eq`), and the listing grows
at its end exactly as long as one grafts below nodes from which the walk down, always to the last
child, leads to the end of the listing. Those are the nodes in the lineage of the node that is
listed last.
-/

namespace CommandEngine.Forest

variable {α : Type} {f g : Forest α} {handle parent child : Handle}

/-- The listing of a subtree depends on the children alone. -/
theorem Linked.subtree_congr (wf : f.Linked) (wg : g.Linked)
    (hchildren : ∀ handle, g.children handle = f.children handle) (handle : Handle) :
    g.subtree handle = f.subtree handle := by
  induction handle using wf.induction_down with
  | node handle ih =>
      rw [wg.subtree_eq, wf.subtree_eq, hchildren]
      congr 1
      exact List.flatMap_congr ih

/-- Two forests in which all nodes but one have the same children. -/
def DifferAt (f g : Forest α) (site : Handle) : Prop :=
  ∀ other, other ≠ site → g.children other = f.children other

namespace DifferAt

variable {site : Handle} (differ : DifferAt f g site) (wf : f.Linked) (wg : g.Linked)
include differ wf wg

/-- Where the node is not listed, nothing changes. -/
theorem subtree_of_not_mem (elsewhere : site ∉ f.subtree handle) :
    g.subtree handle = f.subtree handle := by
  induction handle using wf.induction_down with
  | node handle ih =>
      have other : handle ≠ site := by
        rintro rfl
        exact elsewhere (wf.mem_subtree_self handle)
      rw [wg.subtree_eq, wf.subtree_eq, differ handle other]
      congr 1
      apply List.flatMap_congr
      intro lower here
      apply ih lower here
      intro again
      exact elsewhere (wf.mem_subtree_of_child here again)

/-- The subtrees of the former children of the node are what they were. -/
theorem subtree_of_mem_children (here : child ∈ f.children site) :
    g.subtree child = f.subtree child := by
  apply differ.subtree_of_not_mem wf wg
  intro again
  exact wf.child_not_mem_lineage here (wf.mem_subtree_iff.1 again)

/-- The new subtree of the node is listed where the former one was, between the same nodes. -/
theorem exists_subtree_eq (here : site ∈ f.subtree handle) :
    ∃ front back, f.subtree handle = front ++ f.subtree site ++ back ∧
      g.subtree handle = front ++ g.subtree site ++ back := by
  induction handle using wf.induction_down with
  | node handle ih =>
      by_cases same : handle = site
      · subst same
        exact ⟨[], [], by simp, by simp⟩
      · have below : site ∈ (f.children handle).flatMap f.subtree := by
          rw [wf.subtree_eq] at here
          exact (List.mem_cons.1 here).resolve_left (Ne.symm same)
        obtain ⟨next, hnext, below⟩ := List.mem_flatMap.1 below
        obtain ⟨front, back, hold, hnew⟩ := ih next hnext below
        obtain ⟨earlier, later, hchildren⟩ := List.append_of_mem hnext
        -- The node stands below one child only, so the others list what they did.
        have others {lower : Handle} (hlower : lower ∈ f.children handle) (apart : lower ≠ next) :
            g.subtree lower = f.subtree lower := by
          apply differ.subtree_of_not_mem wf wg
          intro again
          exact apart (wf.eq_of_mem_subtree hlower hnext again below)
        have hnodup := wf.nodup_children handle
        rw [hchildren, List.nodup_middle, List.nodup_cons, List.mem_append, not_or] at hnodup
        have hearlier : earlier.flatMap g.subtree = earlier.flatMap f.subtree := by
          apply List.flatMap_congr
          intro lower hlower
          apply others (by simp [hchildren, hlower])
          rintro rfl
          exact hnodup.1.1 hlower
        have hlater : later.flatMap g.subtree = later.flatMap f.subtree := by
          apply List.flatMap_congr
          intro lower hlower
          apply others (by simp [hchildren, hlower])
          rintro rfl
          exact hnodup.1.2 hlower
        refine ⟨handle :: (earlier.flatMap f.subtree ++ front), back ++ later.flatMap f.subtree,
          ?_, ?_⟩
        · rw [wf.subtree_eq, hchildren]
          simp [hold]
        · rw [wg.subtree_eq, differ handle same, hchildren]
          simp [hnew, hearlier, hlater]

end DifferAt

namespace IsGraft

variable (graft : IsGraft f g parent child)
include graft

theorem differAt : DifferAt f g parent :=
  fun other apart => by rw [graft.children_eq, if_neg apart]

theorem subtree_child (wf : f.Linked) : g.subtree child = f.subtree child := by
  apply graft.differAt.subtree_of_not_mem wf (graft.linked wf)
  intro here
  exact graft.apart (wf.mem_subtree_iff.1 here)

private theorem subtree_parent (wf : f.Linked) :
    g.subtree parent = f.subtree parent ++ f.subtree child := by
  have inner : (f.children parent).flatMap g.subtree = (f.children parent).flatMap f.subtree :=
    List.flatMap_congr fun _ here =>
      graft.differAt.subtree_of_mem_children wf (graft.linked wf) here
  rw [(graft.linked wf).subtree_eq, wf.subtree_eq parent, graft.children_eq, if_pos rfl,
    List.flatMap_append, List.flatMap_singleton, graft.subtree_child wf, inner, List.cons_append]

/-- The grafted tree is listed right behind the former subtree of the node it hangs below. -/
theorem exists_subtree_eq (wf : f.Linked) (here : parent ∈ f.subtree handle) :
    ∃ front back, f.subtree handle = front ++ f.subtree parent ++ back ∧
      g.subtree handle = front ++ (f.subtree parent ++ f.subtree child) ++ back := by
  rw [← graft.subtree_parent wf]
  exact graft.differAt.exists_subtree_eq wf (graft.linked wf) here

/-- Below a node in the lineage of the last node listed, the grafted tree is listed at the end. -/
theorem subtree_of_getLast? (wf : f.Linked) (here : parent ∈ f.subtree handle) {last : Handle}
    (hlast : (f.subtree handle).getLast? = some last) (above : parent ∈ f.lineage last) :
    g.subtree handle = f.subtree handle ++ f.subtree child := by
  obtain ⟨front, back, hold, hnew⟩ := graft.exists_subtree_eq wf here
  have hnodup := wf.nodup_subtree handle
  rw [hold] at hlast hnodup
  have hback : back = [] := by
    cases hend : back.getLast? with
    | none => exact List.getLast?_eq_none_iff.1 hend
    | some final =>
        rw [List.getLast?_append, hend, Option.some_or, Option.some.injEq] at hlast
        subst hlast
        have again := List.mem_append_right front (wf.mem_subtree_iff.2 above)
        exact absurd rfl ((List.nodup_append.1 hnodup).2.2 final again final
          (List.mem_of_getLast? hend))
  rw [hnew, hold, hback]
  simp

end IsGraft

namespace WellFormed

variable (wf : f.WellFormed)
include wf

private theorem isGraft_sprout (known : f.contains parent = true) (label : α) :
    IsGraft (f.create label).2 (f.sprout parent label) parent f.nextHandle := by
  have hknown := (contains_create f label parent).2 (.inr known)
  have hnew := (contains_create f label f.nextHandle).2 (.inl rfl)
  have hroot : (f.create label).2.parent? f.nextHandle = none := by
    rw [parent?_create, parent?_of_not_contains f.not_contains_nextHandle]
  have apart : f.nextHandle ∉ (f.create label).2.lineage parent := by
    rw [(extends_create f label).lineage_eq wf.toLinked (wf.create label).toLinked known]
    intro here
    have above := wf.contains_of_mem_isLineage (wf.isLineage_lineage parent) known _ here
    rw [f.not_contains_nextHandle] at above
    cases above
  exact (isGraft_link hknown hnew hroot apart).resize _

private theorem subtree_create (label : α) (handle : Handle) :
    (f.create label).2.subtree handle = f.subtree handle :=
  wf.toLinked.subtree_congr (wf.create label).toLinked (children_create f label) handle

private theorem subtree_nextHandle : f.subtree f.nextHandle = [f.nextHandle] := by
  have hchildren : f.children f.nextHandle = [] := by
    simp [children, children?]
  rw [wf.subtree_eq, hchildren, List.flatMap_nil]

/-- A new node in the right place is listed last. -/
theorem subtree_sprout (label : α) (here : parent ∈ f.subtree handle) {last : Handle}
    (known : f.contains handle = true) (hlast : (f.subtree handle).getLast? = some last)
    (above : parent ∈ f.lineage last) :
    (f.sprout parent label).subtree handle = f.subtree handle ++ [f.nextHandle] := by
  have wg := (wf.create label).toLinked
  have hparent := wf.contains_of_mem_subtree known here
  have hfinal := wf.contains_of_mem_subtree known (List.mem_of_getLast? hlast)
  have here' : parent ∈ (f.create label).2.subtree handle := by
    rwa [wf.subtree_create]
  have hlast' : ((f.create label).2.subtree handle).getLast? = some last := by
    rwa [wf.subtree_create]
  have above' : parent ∈ (f.create label).2.lineage last := by
    rwa [(extends_create f label).lineage_eq wf.toLinked wg hfinal]
  rw [(wf.isGraft_sprout hparent label).subtree_of_getLast? wg here' hlast' above',
    wf.subtree_create, wf.subtree_create, wf.subtree_nextHandle]

end WellFormed

/-! ## Listing in the order of creation -/

/-- The nodes of the tree proper in pre-order. -/
def walk (f : Forest α) : List Handle :=
  match f.head with
  | some head => f.preorder head
  | none => []

/-- The tree proper lists all nodes in the order of their creation, up to the last. -/
structure InOrder (f : Forest α) (head last : Handle) : Prop where
  wellFormed : f.WellFormed
  head_eq : f.head = some head
  /-- The listing is that of the arena. -/
  subtree_eq : f.subtree head = f.handles
  getLast?_eq : f.handles.getLast? = some last

namespace InOrder

variable {head last : Handle} (ordered : f.InOrder head last)
include ordered

theorem walk_eq : f.walk = f.handles := by
  have wf := ordered.wellFormed
  rw [walk, ordered.head_eq, ← ordered.subtree_eq]
  exact wf.preorder_eq (wf.contains_head head ordered.head_eq)

theorem head?_walk : f.walk.head? = f.head := by
  rw [ordered.walk_eq, ← ordered.subtree_eq, ordered.wellFormed.subtree_eq, ordered.head_eq,
    List.head?_cons]

theorem contains_last : f.contains last = true :=
  mem_handles.1 (List.mem_of_getLast? ordered.getLast?_eq)

/-- No node stands apart from the tree proper. -/
theorem head_mem_lineage (known : f.contains handle = true) : head ∈ f.lineage handle := by
  rw [← ordered.wellFormed.mem_subtree_iff, ordered.subtree_eq, mem_handles]
  exact known

theorem contains_of_above (above : handle ∈ f.lineage last) : f.contains handle = true :=
  ordered.wellFormed.contains_of_mem_isLineage (ordered.wellFormed.isLineage_lineage last)
    ordered.contains_last handle above

/-- A new node below one in the lineage of the last keeps the order and is the last. -/
theorem sprout (above : parent ∈ f.lineage last) (label : α) :
    (f.sprout parent label).InOrder head f.nextHandle := by
  have wf := ordered.wellFormed
  have known := ordered.contains_of_above above
  have attached : f.inTree parent = true :=
    (wf.inTree_iff ordered.head_eq).2 (ordered.head_mem_lineage known)
  have listed : parent ∈ f.subtree head := by
    rw [ordered.subtree_eq, mem_handles]
    exact known
  have hlast : (f.subtree head).getLast? = some last := by
    rw [ordered.subtree_eq]
    exact ordered.getLast?_eq
  have hsubtree := wf.subtree_sprout label listed (wf.contains_head head ordered.head_eq) hlast
    above
  have hhandles : (f.sprout parent label).handles = f.handles ++ [f.nextHandle] :=
    (handles_link _ _ _).trans (handles_create f label)
  exact
    { wellFormed := wf.sprout attached label
      head_eq := by rw [head_sprout, ordered.head_eq]
      subtree_eq := by rw [hsubtree, hhandles, ordered.subtree_eq]
      getLast?_eq := by rw [hhandles, List.getLast?_concat] }

end InOrder

/-- A tree proper that is all there is and has one node lists it. -/
theorem WellFormed.inOrder_of_size_eq_one (wf : f.WellFormed) {head : Handle}
    (hhead : f.head = some head) (hsize : f.nodes.size = 1) : f.InOrder head head := by
  have known := wf.contains_head head hhead
  have hhandles : f.handles = [head] := by
    obtain ⟨only, hhandles⟩ := List.length_eq_one_iff.1 ((length_handles f).trans hsize)
    have here := mem_handles.2 known
    rw [hhandles, List.mem_singleton] at here
    rw [hhandles, here]
  have hsubtree : f.subtree head = [head] := by
    have bound := wf.length_subtree_le known
    rw [hsize, wf.subtree_eq, List.length_cons] at bound
    rw [wf.subtree_eq, List.length_eq_zero_iff.1 (Nat.le_zero.1 (Nat.le_of_succ_le_succ bound))]
  exact
    { wellFormed := wf
      head_eq := hhead
      subtree_eq := hsubtree.trans hhandles.symm
      getLast?_eq := by rw [hhandles, List.getLast?_singleton] }

end CommandEngine.Forest
