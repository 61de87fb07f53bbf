import CommandEngine.Proofs.Forest.Validity
/-!
# When a waiting tree is attached

Attaching puts several questions in a fixed order, and the first with the wrong answer is the cause
of a refusal. `Forest.admission` states the order, with the tree proper given by the recursive
listing below the head, and `Forest.attach_admission` says that attaching answers by it.

One cause is missing from it. By the time it is asked whether a node would come to stand below
itself, the node is known to be a root other than the head, and the parent to have the head above
it. Only one root is above the parent, so the answer is always no. That question stands for forests
whose links are broken, and edits never break them.
-/

namespace CommandEngine.Forest

variable {α : Type} {f : Forest α} {handle parent : Handle}

/-- A root other than the head is above no node of the tree proper. -/
theorem Rooted.not_mem_lineage_of_root (wf : f.Rooted) (hroot : f.parent? handle = none)
    (other : f.head ≠ some handle) (attached : f.inTree parent = true) :
    handle ∉ f.lineage parent := by
  intro above
  obtain ⟨head, hhead⟩ := wf.exists_head attached
  have same := wf.toLinked.eq_of_roots (wf.parent?_head head hhead) hroot
    ((wf.inTree_iff hhead).1 attached) above
  exact other (hhead.trans (congrArg some same))

/-- What attaching should answer. The node has to be known and without a place; then an empty tree
takes it, whatever parent is named, and any other takes it exactly below one of its own nodes. -/
def admission (f : Forest α) (target : Option Handle) (handle : Handle) : Except ForestError Unit :=
  if f.contains handle = false then .error (.noSuchNode handle)
  else if f.parent? handle ≠ none ∨ f.head = some handle then .error (.alreadyPlaced handle)
  else match f.head, target with
    | none, _ => .ok ()
    | some _, none => .error .noParentNamed
    | some head, some parent =>
      if f.contains parent = false then .error (.noSuchNode parent)
      else if parent ∉ f.subtree head then .error (.outsideTree parent)
      else .ok ()

private theorem attach_of_placed (known : f.contains handle = true)
    (placed : f.parent? handle ≠ none ∨ f.head = some handle) (target : Option Handle) :
    (f.attach target handle).1 = .error (.alreadyPlaced handle) := by
  obtain ⟨node, hnode⟩ := exists_node?_of_contains known
  rw [parent?_of_node? hnode] at placed
  have refused : (node.parent.isSome || f.head == some handle) = true := by
    simpa [Option.isSome_iff_ne_none] using placed
  simp [attach, hnode, refused]

/-- A root other than the head passes the first questions, and the head and the target decide. -/
theorem attach_of_root (known : f.contains handle = true) (hroot : f.parent? handle = none)
    (fresh : f.head ≠ some handle) (target : Option Handle) :
    (f.attach target handle).1 =
      match f.head, target with
      | none, _ => .ok ()
      | some _, none => .error .noParentNamed
      | some _, some parent =>
        if f.contains parent = false then .error (.noSuchNode parent)
        else if f.inTree parent = false then .error (.outsideTree parent)
        else if handle ∈ f.lineage parent then .error (.belowItself handle)
        else .ok () := by
  obtain ⟨node, hnode⟩ := exists_node?_of_contains known
  rw [parent?_of_node? hnode] at hroot
  have loose : (node.parent.isSome || f.head == some handle) = false := by
    simpa [hroot] using fresh
  unfold attach
  rw [hnode]
  dsimp only
  rw [loose, if_neg Bool.false_ne_true, isEmpty]
  cases f.head with
  | none => rfl
  | some head =>
      cases target with
      | none => rfl
      | some parent =>
          simp only [Option.isNone_some, Bool.false_eq_true, if_false, Bool.not_eq_true',
            List.contains_iff_mem]
          split_ifs <;> rfl

theorem Rooted.attach_eq (wf : f.Rooted) (target : Option Handle) (handle : Handle) :
    (f.attach target handle).1 = f.admission target handle := by
  unfold admission
  split_ifs with unknown placed
  · have hnode : f.node? handle = none := by simpa [contains] using unknown
    simp [attach, hnode]
  · exact attach_of_placed (by simpa using unknown) placed target
  · obtain ⟨hroot, fresh⟩ := not_or.1 placed
    rw [ne_eq, not_not] at hroot
    rw [attach_of_root (by simpa using unknown) hroot fresh]
    cases hhead : f.head with
    | none => rfl
    | some head =>
        cases target with
        | none => rfl
        | some parent =>
            cases attached : f.inTree parent with
            | false =>
                have outside : parent ∉ f.subtree head := by
                  rw [← wf.inTree_iff_mem_subtree hhead, attached]
                  exact Bool.false_ne_true
                simp [attached, outside]
            | true =>
                have inside := (wf.inTree_iff_mem_subtree hhead).1 attached
                have apart := wf.not_mem_lineage_of_root hroot fresh attached
                simp [attached, inside, apart]

private theorem admission_ne_belowItself (f : Forest α) (target : Option Handle)
    (handle node : Handle) :
    f.admission target handle ≠ .error (.belowItself node) := by
  unfold admission
  split
  · nofun
  · split
    · nofun
    · cases f.head with
      | none => nofun
      | some head =>
          cases target with
          | none => nofun
          | some parent =>
              dsimp only
              split_ifs <;> nofun

/-- No edit of a well-formed forest is refused because a node would come to stand below itself. -/
theorem WellFormed.apply_ne_belowItself (wf : f.WellFormed) (edit : Edit α) (node : Handle) :
    (f.apply edit).1 ≠ .error (.belowItself node) := by
  cases edit with
  | create label => simp [Forest.apply]
  | insert target label =>
      have attached := admission_ne_belowItself (f.create label).2 target f.nextHandle node
      rw [← (wf.create label).toRooted.attach_eq] at attached
      have hanswer : (f.apply (.insert target label)).1 =
          (((f.create label).2.attach target f.nextHandle).1.map fun _ => f.nextHandle).map
            fun _ => () := rfl
      rw [hanswer]
      cases hattach : ((f.create label).2.attach target f.nextHandle).1 with
      | ok _ => simp [Except.map]
      | error cause =>
          rw [hattach] at attached
          exact fun same => attached same
  | attach target handle =>
      show (f.attach target handle).1 ≠ .error (.belowItself node)
      rw [wf.attach_eq]
      exact f.admission_ne_belowItself target handle node
  | remove handle =>
      rw [Forest.apply, Forest.remove]
      split_ifs <;> simp
  | removeChildren handle =>
      rw [Forest.apply, Forest.removeChildren]
      cases f.node? handle <;> simp [Except.map]
  | clear => simp [Forest.apply]

/-- In every forest that edits and relabelings lead to, whatever handles are named, attaching
answers by the first condition that fails. No edit is ever refused because a node would come to
stand below itself. -/
theorem attach_admission (operations : List (Operation α)) :
    let f := ({} : Forest α).performAll operations
    (∀ target handle, (f.attach target handle).1 = f.admission target handle) ∧
    ∀ edit node, (f.apply edit).1 ≠ .error (.belowItself node) := by
  intro f
  have wf : f.WellFormed := (Reachable.empty.performAll operations).wellFormed
  exact ⟨wf.attach_eq, wf.apply_ne_belowItself⟩

end CommandEngine.Forest
