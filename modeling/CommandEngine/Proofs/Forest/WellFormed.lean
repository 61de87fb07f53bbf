import CommandEngine.Forest.Traversal
import Mathlib.Data.List.Nodup
import Mathlib.Data.List.Perm.Subperm
/-!
# Well-formed forests

Every link of a forest is stored twice, as a parent and as a child, and a size is kept besides. The
invariant comes in three layers, because an edit restores them in this order: `Linked` is about the
links alone, `Rooted` adds the head and `WellFormed` the size. The central field is `grounded`:
every handle has a finite lineage, given by the rules of `IsLineage`, which know nothing of fuel.
That a lineage never meets a node twice is a consequence and not a field, because the rules leave a
handle only one lineage.

From this the walk `Forest.lineage`, which carries the length of the arena as its fuel, is shown to
find the lineage, so that later modules use it through two equations and never see the fuel.
-/

namespace CommandEngine.Forest

variable {α : Type} {f : Forest α} {handle parent child : Handle} {line : List Handle}

/-- The handles of all nodes, in the order of creation. -/
def handles (f : Forest α) : List Handle :=
  (List.range f.nodes.size).map fun index => ⟨index, f.epoch⟩

theorem contains_iff :
    f.contains handle = true ↔ handle.epoch = f.epoch ∧ handle.index < f.nodes.size := by
  by_cases current : handle.epoch = f.epoch <;> simp [contains, node?, current]

@[simp]
theorem mem_handles : handle ∈ f.handles ↔ f.contains handle = true := by
  rw [contains_iff, handles, List.mem_map]
  constructor
  · rintro ⟨index, hindex, rfl⟩
    exact ⟨rfl, List.mem_range.1 hindex⟩
  · rintro ⟨hepoch, hindex⟩
    exact ⟨handle.index, List.mem_range.2 hindex, by rw [← hepoch]⟩

@[simp]
theorem length_handles (f : Forest α) : f.handles.length = f.nodes.size := by
  simp [handles]

theorem nodup_handles (f : Forest α) : f.handles.Nodup :=
  List.Nodup.map (fun _ _ same => congrArg Handle.index same) List.nodup_range

/-- There are no more distinct nodes than places in the arena. -/
theorem length_le_of_nodup {nodes : List Handle} (hnodup : nodes.Nodup)
    (known : ∀ handle ∈ nodes, f.contains handle = true) : nodes.length ≤ f.nodes.size := by
  rw [← length_handles]
  exact (hnodup.subperm fun handle here => mem_handles.2 (known handle here)).length_le

theorem contains_of_node?_eq_some {node : Node α} (hnode : f.node? handle = some node) :
    f.contains handle = true := by
  simp [contains, hnode]

theorem exists_node?_of_contains (known : f.contains handle = true) :
    ∃ node, f.node? handle = some node :=
  Option.isSome_iff_exists.1 known

theorem contains_of_parent?_eq_some (hparent : f.parent? child = some parent) :
    f.contains child = true := by
  cases hnode : f.node? child with
  | none => simp [parent?, hnode] at hparent
  | some node => exact contains_of_node?_eq_some hnode

theorem contains_of_mem_children (here : child ∈ f.children parent) :
    f.contains parent = true := by
  cases hnode : f.node? parent with
  | none => simp [children, children?, hnode] at here
  | some node => exact contains_of_node?_eq_some hnode

theorem parent?_of_node? {node : Node α} (hnode : f.node? handle = some node) :
    f.parent? handle = node.parent := by
  simp [parent?, hnode]

theorem children_of_node? {node : Node α} (hnode : f.node? handle = some node) :
    f.children handle = node.children := by
  simp [children, children?, hnode]

theorem parent?_of_not_contains (unknown : f.contains handle = false) :
    f.parent? handle = none := by
  simp [parent?, Option.isNone_iff_eq_none.1 (by simpa [contains] using unknown)]

/-! ## Lineages -/

/-- A handle followed by all handles above it: the walk goes to the parent until there is none. -/
inductive IsLineage (f : Forest α) : Handle → List Handle → Prop
  | root {handle : Handle} (hparent : f.parent? handle = none) : IsLineage f handle [handle]
  | step {handle parent : Handle} {line : List Handle} (hparent : f.parent? handle = some parent)
      (above : IsLineage f parent line) : IsLineage f handle (handle :: line)

namespace IsLineage

/-- The rules leave a handle only one lineage. -/
theorem unique {other : List Handle} (hline : f.IsLineage handle line)
    (hother : f.IsLineage handle other) : line = other := by
  induction hline generalizing other with
  | root hparent =>
      cases hother with
      | root => rfl
      | step hparent' => rw [hparent] at hparent'; cases hparent'
  | step hparent _ ih =>
      cases hother with
      | root hparent' => rw [hparent] at hparent'; cases hparent'
      | step hparent' above =>
          rw [hparent] at hparent'
          cases hparent'
          rw [ih above]

/-- Every member of a lineage has the rest of it as its own lineage. -/
theorem exists_suffix (hline : f.IsLineage handle line) {member : Handle} (here : member ∈ line) :
    ∃ rest, f.IsLineage member rest ∧ rest <:+ line := by
  induction hline with
  | root hparent =>
      rw [List.mem_singleton.1 here]
      exact ⟨_, .root hparent, List.suffix_rfl⟩
  | step hparent above ih =>
      rcases List.mem_cons.1 here with rfl | later
      · exact ⟨_, .step hparent above, List.suffix_rfl⟩
      · obtain ⟨rest, hrest, suffix⟩ := ih later
        exact ⟨rest, hrest, suffix.trans (List.suffix_cons _ _)⟩

/-- A lineage meets no node twice: a second meeting would give the node a shorter lineage. -/
theorem nodup (hline : f.IsLineage handle line) : line.Nodup := by
  induction hline with
  | root => exact List.nodup_singleton _
  | @step handle parent line hparent above ih =>
      refine List.nodup_cons.2 ⟨fun again => ?_, ih⟩
      obtain ⟨rest, hrest, suffix⟩ := above.exists_suffix again
      have hlength := suffix.length_le
      rw [hrest.unique (.step hparent above), List.length_cons] at hlength
      omega

theorem head?_eq (hline : f.IsLineage handle line) : line.head? = some handle := by
  cases hline <;> rfl

/-- A lineage ends in a node without a parent. -/
theorem exists_getLast? (hline : f.IsLineage handle line) :
    ∃ root, line.getLast? = some root ∧ f.parent? root = none := by
  induction hline with
  | root hparent => exact ⟨_, rfl, hparent⟩
  | step _ above ih =>
      obtain ⟨root, hlast, hroot⟩ := ih
      refine ⟨root, ?_, hroot⟩
      rw [List.getLast?_cons, hlast]
      rfl

/-- The walk finds the lineage as soon as its fuel reaches the last step. -/
theorem lineageFor_eq {fuel : Nat} (hline : f.IsLineage handle line)
    (enough : line.length ≤ fuel + 1) : f.lineageFor fuel handle = line := by
  induction hline generalizing fuel with
  | root hparent => cases fuel <;> simp [lineageFor, hparent]
  | @step handle parent line hparent above ih =>
      cases fuel with
      | zero =>
          have nonempty : 0 < line.length := by cases above <;> simp
          rw [List.length_cons] at enough
          omega
      | succ fuel =>
          rw [List.length_cons] at enough
          have found : f.lineageFor fuel parent = line := ih (by omega)
          simp [lineageFor, hparent, found]

end IsLineage

/-- The links of a forest agree, and every walk upwards ends. -/
structure Linked (f : Forest α) : Prop where
  /-- A link downwards is stored exactly where its link upwards is. -/
  mem_children_iff : ∀ parent child, child ∈ f.children parent ↔ f.parent? child = some parent
  nodup_children : ∀ handle, (f.children handle).Nodup
  /-- Every walk upwards ends. -/
  grounded : ∀ handle, ∃ line, f.IsLineage handle line

/-- The head of a linked forest is the root of one of its trees. -/
structure Rooted (f : Forest α) : Prop extends Linked f where
  contains_head : ∀ head, f.head = some head → f.contains head = true
  parent?_head : ∀ head, f.head = some head → f.parent? head = none

/-- The size of a rooted forest is the number of nodes of the tree proper. -/
structure WellFormed (f : Forest α) : Prop extends Rooted f where
  size_eq : f.size = f.handles.countP f.inTree

namespace Linked

variable (wf : f.Linked)
include wf

theorem contains_parent (hparent : f.parent? child = some parent) : f.contains parent = true :=
  contains_of_mem_children ((wf.mem_children_iff parent child).2 hparent)

theorem contains_child (here : child ∈ f.children parent) : f.contains child = true :=
  contains_of_parent?_eq_some ((wf.mem_children_iff parent child).1 here)

/-- All nodes above a node are nodes. -/
theorem contains_of_mem_isLineage (hline : f.IsLineage handle line)
    (known : f.contains handle = true) : ∀ member ∈ line, f.contains member = true := by
  induction hline with
  | root => simpa using known
  | step hparent _ ih =>
      intro member here
      rcases List.mem_cons.1 here with rfl | later
      · exact known
      · exact ih (wf.contains_parent hparent) member later

/-- The arena is long enough for every lineage. -/
theorem length_isLineage_le (hline : f.IsLineage handle line) :
    line.length ≤ f.nodes.size + 1 := by
  cases known : f.contains handle with
  | true =>
      have := length_le_of_nodup hline.nodup (wf.contains_of_mem_isLineage hline known)
      omega
  | false =>
      rw [hline.unique (.root (parent?_of_not_contains known))]
      simp

/-- The walk with the arena as its fuel finds the lineage. -/
theorem isLineage_lineage (handle : Handle) : f.IsLineage handle (f.lineage handle) := by
  obtain ⟨line, hline⟩ := wf.grounded handle
  have found : f.lineage handle = line := hline.lineageFor_eq (wf.length_isLineage_le hline)
  rwa [found]

theorem lineage_of_root (hparent : f.parent? handle = none) : f.lineage handle = [handle] :=
  (wf.isLineage_lineage handle).unique (.root hparent)

theorem lineage_of_parent (hparent : f.parent? handle = some parent) :
    f.lineage handle = handle :: f.lineage parent :=
  (wf.isLineage_lineage handle).unique (.step hparent (wf.isLineage_lineage parent))

theorem nodup_lineage (handle : Handle) : (f.lineage handle).Nodup :=
  (wf.isLineage_lineage handle).nodup

theorem mem_lineage_self (handle : Handle) : handle ∈ f.lineage handle :=
  List.mem_of_mem_head? (wf.isLineage_lineage handle).head?_eq

/-- What holds of roots, and of a node whenever it holds of its parent, holds of all nodes. -/
@[elab_as_elim]
theorem induction_up {motive : Handle → Prop}
    (root : ∀ handle, f.parent? handle = none → motive handle)
    (below : ∀ handle parent, f.parent? handle = some parent → motive parent → motive handle)
    (handle : Handle) : motive handle := by
  obtain ⟨line, hline⟩ := wf.grounded handle
  induction hline with
  | root hparent => exact root _ hparent
  | step hparent _ ih => exact below _ _ hparent ih

/-- Above a node above a node there are only nodes above the latter. -/
theorem mem_lineage_trans {upper middle lower : Handle} (hupper : upper ∈ f.lineage middle)
    (hmiddle : middle ∈ f.lineage lower) : upper ∈ f.lineage lower := by
  obtain ⟨rest, hrest, suffix⟩ := (wf.isLineage_lineage lower).exists_suffix hmiddle
  rw [← hrest.unique (wf.isLineage_lineage middle)] at hupper
  exact suffix.subset hupper

theorem mem_lineage_child {above : Handle} (hparent : f.parent? child = some parent) :
    above ∈ f.lineage child ↔ above = child ∨ above ∈ f.lineage parent := by
  rw [wf.lineage_of_parent hparent, List.mem_cons]

/-- A root is above a node exactly when it ends the lineage of the node. -/
theorem getLast?_lineage_eq_iff {root : Handle} (hroot : f.parent? root = none)
    (handle : Handle) : (f.lineage handle).getLast? = some root ↔ root ∈ f.lineage handle := by
  refine ⟨List.mem_of_getLast?, fun here => ?_⟩
  obtain ⟨rest, hrest, suffix⟩ := (wf.isLineage_lineage handle).exists_suffix here
  rw [hrest.unique (.root hroot)] at suffix
  obtain ⟨front, hfront⟩ := suffix
  rw [← hfront]
  simp

/-- Only one root is above a node. -/
theorem eq_of_roots {first second : Handle} (hfirst : f.parent? first = none)
    (hsecond : f.parent? second = none) (above : first ∈ f.lineage handle)
    (above' : second ∈ f.lineage handle) : first = second := by
  rw [← wf.getLast?_lineage_eq_iff hfirst] at above
  rw [← wf.getLast?_lineage_eq_iff hsecond, above] at above'
  exact Option.some.inj above'

end Linked

namespace Rooted

variable (wf : f.Rooted)
include wf

/-- A node belongs to the tree proper exactly when the head is above it. -/
theorem inTree_iff {head : Handle} (hhead : f.head = some head) :
    f.inTree handle = true ↔ head ∈ f.lineage handle := by
  rw [inTree, hhead, Bool.and_eq_true, beq_iff_eq,
    wf.getLast?_lineage_eq_iff (wf.parent?_head head hhead)]
  refine ⟨And.right, fun here => ⟨?_, here⟩⟩
  by_contra unknown
  rw [wf.lineage_of_root (parent?_of_not_contains (by simpa using unknown)),
    List.mem_singleton] at here
  exact unknown (here ▸ wf.contains_head head hhead)

theorem inTree_eq_false_of_isEmpty (hhead : f.head = none) (handle : Handle) :
    f.inTree handle = false := by
  obtain ⟨root, hlast, -⟩ := (wf.isLineage_lineage handle).exists_getLast?
  simp [inTree, hhead, hlast]

/-- Without a head there is no tree proper to belong to. -/
theorem exists_head (attached : f.inTree handle = true) : ∃ head, f.head = some head := by
  cases hhead : f.head with
  | none =>
      rw [wf.inTree_eq_false_of_isEmpty hhead] at attached
      cases attached
  | some head => exact ⟨head, rfl⟩

theorem inTree_head {head : Handle} (hhead : f.head = some head) : f.inTree head = true :=
  (wf.inTree_iff hhead).2 (wf.mem_lineage_self head)

end Rooted

theorem contains_of_inTree (attached : f.inTree handle = true) : f.contains handle = true :=
  (Bool.and_eq_true _ _ ▸ attached : _ ∧ _).1

end CommandEngine.Forest
