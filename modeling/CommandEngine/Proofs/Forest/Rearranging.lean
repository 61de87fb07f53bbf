import CommandEngine.Proofs.Forest.Splicing
import CommandEngine.Proofs.Forest.Validity
/-!
# What edits do to the listing

An edit changes a few links, and the listing of the tree proper follows from all of them. Still,
each edit moves one block of it. Attaching puts the listing of the attached tree right behind that
of its parent, removing takes the listing of a subtree out, and removing the children of a node
takes out what its own listing has after the node (`Forest.edits_move_blocks`). Everything else
stays where it is, and the block keeps its order.

All three come from `DifferAt.exists_subtree_eq`, since each of these edits changes the children of
one node. What remains is to list the subtree of that node. A refused edit changes nothing; only
the node that a refused insertion has created is there, in no tree.
-/

namespace CommandEngine.Forest

variable {α : Type} {f g : Forest α} {handle parent child site : Handle}

namespace IsCut

variable {loose : List Handle} (cut : IsCut f g loose)
include cut

/-- Cutting children of one node loose is seen at that node only. -/
theorem differAt (wf : f.Linked) (placed : ∀ node ∈ loose, f.parent? node = some site) :
    DifferAt f g site := by
  intro other apart
  rw [cut.children_eq]
  refine List.filter_eq_self.2 fun lower here => ?_
  rw [decide_eq_true_iff]
  intro cutLoose
  have above := (wf.mem_children_iff other lower).1 here
  rw [placed lower cutLoose] at above
  exact apart (Option.some.inj above).symm

/-- A subtree that is cut loose is listed as before. -/
theorem subtree_of_mem (wf : f.Linked) (placed : ∀ node ∈ loose, f.parent? node = some site)
    (here : child ∈ loose) : g.subtree child = f.subtree child :=
  (cut.differAt wf placed).subtree_of_mem_children wf (cut.linked wf)
    ((wf.mem_children_iff site child).2 (placed child here))

end IsCut

/-- Cutting one node loose takes the listing of its subtree out of any listing it was part of. -/
theorem IsCut.exists_subtree_eq_of_singleton (cut : IsCut f g [child]) (wf : f.Linked)
    (hparent : f.parent? child = some site) (here : site ∈ f.subtree handle) :
    ∃ front back, f.subtree handle = front ++ f.subtree child ++ back ∧
      g.subtree handle = front ++ back := by
  have placed : ∀ node ∈ [child], f.parent? node = some site := by
    simpa using hparent
  have differ := cut.differAt wf placed
  have wg := cut.linked wf
  have hchild := (wf.mem_children_iff site child).2 hparent
  obtain ⟨front, back, hold, hnew⟩ := differ.exists_subtree_eq wf wg here
  obtain ⟨earlier, later, hchildren⟩ := List.append_of_mem hchild
  have hnodup := wf.nodup_children site
  rw [hchildren, List.nodup_middle, List.nodup_cons, List.mem_append, not_or] at hnodup
  -- The other children of the node stay, in their order.
  have hkept : g.children site = earlier ++ later := by
    rw [cut.children_eq, hchildren, List.filter_append, List.filter_cons_of_neg (by simp)]
    congr 1
    · refine List.filter_eq_self.2 fun lower hlower => ?_
      simpa using fun same : lower = child => hnodup.1.1 (same ▸ hlower)
    · refine List.filter_eq_self.2 fun lower hlower => ?_
      simpa using fun same : lower = child => hnodup.1.2 (same ▸ hlower)
  have hrest : (earlier ++ later).flatMap g.subtree = (earlier ++ later).flatMap f.subtree := by
    apply List.flatMap_congr
    intro lower hlower
    apply differ.subtree_of_mem_children wf wg
    rw [hchildren]
    simp only [List.mem_append, List.mem_cons] at hlower ⊢
    exact hlower.imp_right .inr
  refine ⟨front ++ site :: earlier.flatMap f.subtree, later.flatMap f.subtree ++ back, ?_, ?_⟩
  · rw [hold, wf.subtree_eq site, hchildren]
    simp
  · rw [hnew, wg.subtree_eq site, hkept, hrest]
    simp

/-- A node whose children are all cut loose lists itself alone. -/
theorem IsCut.subtree_eq_singleton (cut : IsCut f g (f.children site)) (wf : f.Linked) :
    g.subtree site = [site] := by
  have hnone : g.children site = [] := by
    rw [cut.children_eq, List.filter_eq_nil_iff]
    simp
  rw [(cut.linked wf).subtree_eq, hnone, List.flatMap_nil]

/-- Cutting all children of a node loose leaves the node alone where its subtree was listed. -/
theorem IsCut.exists_subtree_eq_of_children (cut : IsCut f g (f.children site)) (wf : f.Linked)
    (here : site ∈ f.subtree handle) :
    ∃ front back, f.subtree handle = front ++ f.subtree site ++ back ∧
      g.subtree handle = front ++ site :: back := by
  have differ := cut.differAt wf fun node => (wf.mem_children_iff site node).1
  obtain ⟨front, back, hold, hnew⟩ := differ.exists_subtree_eq wf (cut.linked wf) here
  exact ⟨front, back, hold, by simpa [cut.subtree_eq_singleton wf] using hnew⟩

/-- In a linked forest, both listings of a known node agree. -/
theorem IsCut.preorder_eq {loose : List Handle} (cut : IsCut f g loose) (wf : f.Linked)
    (known : f.contains handle = true) : g.preorder handle = g.subtree handle :=
  (cut.linked wf).preorder_eq ((cut.contains_eq handle).trans known)

namespace WellFormed

variable (wf : f.WellFormed) {head : Handle} (hhead : f.head = some head)
include wf hhead

/-- The attached tree is listed as a whole right behind the former subtree of its parent. -/
theorem preorder_attach (accepted : (f.attach (some parent) handle).1 = .ok ()) :
    let after := (f.attach (some parent) handle).2
    after.head = some head ∧ after.preorder handle = f.preorder handle ∧
    ∃ front back, f.preorder head = front ++ f.preorder parent ++ back ∧
      after.preorder head = front ++ f.preorder parent ++ f.preorder handle ++ back := by
  rcases attach_cases f (some parent) handle with ⟨cause, hresult⟩ | ⟨-, -, hempty, -⟩ |
    ⟨above, htarget, known, hroot, -, attached, apart, hresult⟩
  · rw [hresult] at accepted
    cases accepted
  · rw [hhead] at hempty
    cases hempty
  · cases htarget
    have hparent := contains_of_inTree attached
    have graft := (isGraft_link hparent known hroot apart).resize
      (f.size + (f.countBelow handle + 1))
    have wg := graft.linked wf.toLinked
    have hknown := wf.contains_head head hhead
    obtain ⟨front, back, hold, hnew⟩ := graft.exists_subtree_eq wf.toLinked
      ((wf.inTree_iff_mem_subtree hhead).1 attached)
    rw [hresult]
    dsimp only
    rw [wg.preorder_eq ((graft.contains_eq handle).trans known),
      wg.preorder_eq ((graft.contains_eq head).trans hknown), wf.preorder_eq known,
      wf.preorder_eq hparent, wf.preorder_eq hknown]
    refine ⟨graft.head_eq.trans hhead, graft.subtree_child wf.toLinked, front, back, hold, ?_⟩
    rw [hnew]
    simp

/-- The removed tree is taken out of the listing as a whole and keeps its own. -/
theorem preorder_remove (inner : handle ≠ head) (accepted : (f.remove handle).1 = .ok ()) :
    let after := (f.remove handle).2
    after.head = some head ∧ after.preorder handle = f.preorder handle ∧
    ∃ front back, f.preorder head = front ++ f.preorder handle ++ back ∧
      after.preorder head = front ++ back := by
  rcases remove_cases f handle with ⟨cause, hresult⟩ | ⟨-, same, -⟩ | ⟨attached, -, hresult⟩
  · rw [hresult] at accepted
    cases accepted
  · rw [hhead, Option.some.injEq] at same
    exact absurd same.symm inner
  · have cut := (isCut_unlink wf.toLinked handle).resize
      (f.size - ((f.unlink handle).countBelow handle + 1))
    have known := contains_of_inTree attached
    have hknown := wf.contains_head head hhead
    obtain ⟨parent, hparent, above⟩ := wf.exists_parent_mem_subtree hhead attached inner
    obtain ⟨front, back, hold, hnew⟩ := cut.exists_subtree_eq_of_singleton wf.toLinked hparent above
    rw [hresult]
    dsimp only
    rw [cut.preorder_eq wf.toLinked known, cut.preorder_eq wf.toLinked hknown, wf.preorder_eq known,
      wf.preorder_eq hknown]
    exact ⟨cut.head_eq.trans hhead, cut.subtree_of_mem wf.toLinked (by simpa using hparent)
      (List.mem_singleton_self handle), front, back, hold, hnew⟩

/-- What a node of the tree proper lists below itself is taken out of the listing, and each of its
former children, which are the answer, keeps its own. -/
theorem preorder_removeChildren (attached : f.inTree handle = true) :
    let after := (f.removeChildren handle).2
    (f.removeChildren handle).1 = .ok (f.children handle) ∧
    after.head = some head ∧ after.preorder handle = [handle] ∧
    (∀ child ∈ f.children handle, after.preorder child = f.preorder child) ∧
    ∃ below front back, f.preorder handle = handle :: below ∧
      f.preorder head = front ++ handle :: below ++ back ∧
      after.preorder head = front ++ handle :: back := by
  have known := contains_of_inTree attached
  rcases removeChildren_cases f handle with ⟨unknown, -⟩ | ⟨-, hresult⟩
  · rw [known] at unknown
    cases unknown
  · have cut := (isCut_orphan wf.toLinked handle).resize
      (if f.inTree handle then f.size - f.countBelow handle else f.size)
    have hknown := wf.contains_head head hhead
    obtain ⟨front, back, hold, hnew⟩ := cut.exists_subtree_eq_of_children wf.toLinked
      ((wf.inTree_iff_mem_subtree hhead).1 attached)
    rw [hresult]
    dsimp only
    rw [cut.preorder_eq wf.toLinked known, cut.preorder_eq wf.toLinked hknown, wf.preorder_eq known,
      wf.preorder_eq hknown]
    refine ⟨rfl, cut.head_eq.trans hhead, cut.subtree_eq_singleton wf.toLinked,
      fun child here => ?_, _, front, back, wf.subtree_eq handle, ?_, hnew⟩
    · rw [cut.preorder_eq wf.toLinked (wf.contains_child here),
        wf.preorder_eq (wf.contains_child here)]
      exact cut.subtree_of_mem wf.toLinked (fun node => (wf.mem_children_iff handle node).1) here
    · rw [hold, wf.subtree_eq handle]

end WellFormed

/-! ## Refused edits -/

/-- The second forest has one more node, alone and outside of the tree proper, and is otherwise the
first. -/
structure HasSpare (f g : Forest α) (spare : Handle) (label : α) : Prop where
  fresh : f.contains spare = false
  handles_eq : g.handles = f.handles ++ [spare]
  node?_spare : g.node? spare = some { label, parent := none, children := [] }
  inTree_spare : g.inTree spare = false
  node?_eq : ∀ other, other ≠ spare → g.node? other = f.node? other
  head_eq : g.head = f.head
  size_eq : g.size = f.size
  epoch_eq : g.epoch = f.epoch

theorem WellFormed.hasSpare_create (wf : f.WellFormed) (label : α) :
    f.HasSpare (f.create label).2 f.nextHandle label where
  fresh := f.not_contains_nextHandle
  handles_eq := handles_create f label
  node?_spare := by rw [node?_create, if_pos rfl]
  inTree_spare := by
    have wg := wf.create label
    have hroot : (f.create label).2.parent? f.nextHandle = none := by
      rw [parent?_create, parent?_of_not_contains f.not_contains_nextHandle]
    rw [← Bool.not_eq_true]
    intro attached
    obtain ⟨head, hhead⟩ := wg.exists_head attached
    rw [wg.inTree_iff hhead, wg.lineage_of_root hroot, List.mem_singleton] at attached
    exact ne_nextHandle_of_contains (wf.contains_head head hhead) attached
  node?_eq other old := by rw [node?_create, if_neg old]
  head_eq := rfl
  size_eq := rfl
  epoch_eq := rfl

private theorem snd_attach_of_error {target : Option Handle} {cause : ForestError}
    (refused : (f.attach target handle).1 = .error cause) : (f.attach target handle).2 = f := by
  rcases attach_cases f target handle with ⟨_, hresult⟩ | ⟨-, -, -, hresult⟩ |
    ⟨_, -, -, -, -, -, -, hresult⟩
  · rw [hresult]
  · rw [hresult] at refused
    cases refused
  · rw [hresult] at refused
    cases refused

/-- A refused edit leaves the forest alone, but for an insertion, which has created its node. -/
theorem snd_apply_of_error {edit : Edit α} {cause : ForestError}
    (refused : (f.apply edit).1 = .error cause) :
    (f.apply edit).2 =
      match edit with
      | .insert _ label => (f.create label).2
      | _ => f := by
  cases edit with
  | create label => cases refused
  | insert target label =>
      cases hattach : ((f.create label).2.attach target f.nextHandle).1 with
      | error cause => exact snd_attach_of_error hattach
      | ok _ =>
          have accepted : (f.apply (.insert target label)).1 = .ok () :=
            congrArg (fun answer => (Except.map (fun _ => f.nextHandle) answer).map fun _ => ())
              hattach
          rw [accepted] at refused
          cases refused
  | attach target node => exact snd_attach_of_error refused
  | remove node =>
      rcases remove_cases f node with ⟨_, hresult⟩ | ⟨-, -, hresult⟩ | ⟨-, -, hresult⟩
      · rw [Forest.apply, hresult]
      · rw [Forest.apply, hresult] at refused
        cases refused
      · rw [Forest.apply, hresult] at refused
        cases refused
  | removeChildren node =>
      rcases removeChildren_cases f node with ⟨-, hresult⟩ | ⟨-, hresult⟩
      · rw [Forest.apply, hresult]
      · rw [Forest.apply, hresult] at refused
        cases refused
  | clear => cases refused

/-- In every forest that edits and relabelings lead to, whatever handles are named: attaching below
a parent puts the listing of the attached tree, as it was, right behind the former listing of the
parent; removing a node other than the head takes its listing out and leaves it as it was; removing
the children of a node of the tree proper takes out what its listing has after the node, and answers
the former children. Nothing else in the listing of the tree proper moves. A refused edit changes
nothing, except that a refused insertion leaves the node it has created, alone. -/
theorem edits_move_blocks (operations : List (Operation α)) :
    let f := ({} : Forest α).performAll operations
    (∀ head parent handle, f.head = some head → (f.attach (some parent) handle).1 = .ok () →
      let after := (f.attach (some parent) handle).2
      after.head = some head ∧ after.preorder handle = f.preorder handle ∧
      ∃ front back, f.preorder head = front ++ f.preorder parent ++ back ∧
        after.preorder head = front ++ f.preorder parent ++ f.preorder handle ++ back) ∧
    (∀ head handle, f.head = some head → handle ≠ head → (f.remove handle).1 = .ok () →
      let after := (f.remove handle).2
      after.head = some head ∧ after.preorder handle = f.preorder handle ∧
      ∃ front back, f.preorder head = front ++ f.preorder handle ++ back ∧
        after.preorder head = front ++ back) ∧
    (∀ head handle, f.head = some head → f.inTree handle = true →
      let after := (f.removeChildren handle).2
      (f.removeChildren handle).1 = .ok (f.children handle) ∧
      after.head = some head ∧ after.preorder handle = [handle] ∧
      (∀ child ∈ f.children handle, after.preorder child = f.preorder child) ∧
      ∃ below front back, f.preorder handle = handle :: below ∧
        f.preorder head = front ++ handle :: below ++ back ∧
        after.preorder head = front ++ handle :: back) ∧
    ∀ edit cause, (f.apply edit).1 = .error cause →
      match edit with
      | .insert _ label => f.HasSpare (f.apply edit).2 f.nextHandle label
      | _ => (f.apply edit).2 = f := by
  intro f
  have wf : f.WellFormed := (Reachable.empty.performAll operations).wellFormed
  refine ⟨fun head parent handle hhead accepted => wf.preorder_attach hhead accepted,
    fun head handle hhead inner accepted => wf.preorder_remove hhead inner accepted,
    fun head handle hhead attached => wf.preorder_removeChildren hhead attached,
    fun edit cause refused => ?_⟩
  have hafter := snd_apply_of_error refused
  cases edit with
  | insert target label =>
      dsimp only at hafter ⊢
      rw [hafter]
      exact wf.hasSpare_create label
  | create | attach | remove | removeChildren | clear => exact hafter

/-- A subtree that was removed and is attached elsewhere comes behind all that its new parent has
below it, and in front of the later siblings of that parent. -/
theorem edits_move_blocks_regrafted :
    let node (index : Nat) : Handle := ⟨index, 0⟩
    let f := ({} : Forest Nat).performAll
      [.edit (.insert none 0), .edit (.insert (some (node 0)) 1),
        .edit (.insert (some (node 1)) 2), .edit (.insert (some (node 0)) 3),
        .edit (.insert (some (node 3)) 4), .edit (.insert (some (node 0)) 5),
        .edit (.remove (node 1))]
    let after := (f.attach (some (node 3)) (node 1)).2
    f.head = some (node 0) ∧ (f.attach (some (node 3)) (node 1)).1 = .ok () ∧
    f.preorder (node 0) = [0, 3, 4, 5].map node ∧
    after.preorder (node 0) = [0, 3, 4, 1, 2, 5].map node ∧
    ∃ front back, f.preorder (node 0) = front ++ f.preorder (node 3) ++ back ∧
      after.preorder (node 0) = front ++ f.preorder (node 3) ++ f.preorder (node 1) ++ back := by
  intro node f after
  have hhead : f.head = some (node 0) := by decide +kernel
  have accepted : (f.attach (some (node 3)) (node 1)).1 = .ok () := by decide +kernel
  have moved := (edits_move_blocks _).1 (node 0) (node 3) (node 1) hhead accepted
  exact ⟨hhead, accepted, by decide +kernel, by decide +kernel, moved.2.2⟩

end CommandEngine.Forest
