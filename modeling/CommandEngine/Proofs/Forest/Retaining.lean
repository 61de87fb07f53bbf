import CommandEngine.Proofs.Forest.Growth
/-!
# What edits retain

Only two edits drop nodes: clearing, and taking out the head, which is the same (`Edit.clears`).
They start another epoch and leave nothing behind. All other edits, refused ones among them, retain
every node in its place and under its label, whatever becomes of its links.
-/

namespace CommandEngine.Forest

variable {α : Type} {f g : Forest α}

/-- The second forest is in the epoch of the first and has all of its nodes, in their places and
under their labels. -/
structure Retains (f g : Forest α) : Prop where
  epoch_eq : g.epoch = f.epoch
  labels : f.labels <+: g.labels

namespace Retains

theorem refl (f : Forest α) : f.Retains f := ⟨rfl, List.prefix_rfl⟩

theorem trans {h : Forest α} (first : f.Retains g) (second : g.Retains h) : f.Retains h where
  epoch_eq := second.epoch_eq.trans first.epoch_eq
  labels := first.labels.trans second.labels

end Retains

theorem retains_create (f : Forest α) (label : α) : f.Retains (f.create label).2 :=
  ⟨rfl, by simp⟩

theorem retains_modify (f : Forest α) (handle : Handle) {change : Node α → Node α}
    (same : ∀ node, (change node).label = node.label) : f.Retains (f.modify handle change) where
  epoch_eq := epoch_modify f handle change
  labels := (labels_modify f handle same).symm ▸ List.prefix_rfl

theorem retains_attach (f : Forest α) (target : Option Handle) (handle : Handle) :
    f.Retains (f.attach target handle).2 := by
  rcases attach_cases f target handle with ⟨cause, hattach⟩ | ⟨-, -, -, hattach⟩ |
    ⟨parent, -, -, -, -, -, -, hattach⟩
  · rw [hattach]
    exact .refl f
  · rw [hattach]
    exact ⟨rfl, List.prefix_rfl⟩
  · rw [hattach]
    have linked : f.Retains (f.link parent handle) :=
      (retains_modify f handle (by intro node; rfl)).trans
        (retains_modify _ parent (by intro node; rfl))
    exact ⟨linked.epoch_eq, linked.labels⟩

private theorem retains_unlink (f : Forest α) (handle : Handle) : f.Retains (f.unlink handle) := by
  rw [unlink]
  split
  · exact .refl f
  · exact (retains_modify f handle (by intro node; rfl)).trans
      (retains_modify _ _ (by intro node; rfl))

private theorem retains_orphan (f : Forest α) (children : List Handle) :
    f.Retains (f.orphan children) := by
  induction children generalizing f with
  | nil => exact .refl f
  | cons child rest ih => exact (retains_modify f child (by intro node; rfl)).trans (ih _)

/-- Whether an edit drops all nodes: by clearing, or by taking out the head. -/
def Edit.clears (f : Forest α) : Edit α → Bool
  | .create _ => false
  | .insert _ _ => false
  | .attach _ _ => false
  | .remove handle => f.contains handle && f.head == some handle
  | .removeChildren _ => false
  | .clear => true

/-- An edit that clears does nothing else. -/
theorem apply_of_clears {edit : Edit α} (clears : edit.clears f = true) :
    f.apply edit = (.ok (), f.clear) := by
  cases edit with
  | remove handle =>
      rw [Edit.clears, Bool.and_eq_true] at clears
      simp [apply, remove, clears.1, clears.2]
  | clear => rfl
  | create | insert | attach | removeChildren => cases clears

/-- An edit that does not clear keeps all nodes. -/
theorem retains_apply {edit : Edit α} (keeping : edit.clears f = false) :
    f.Retains (f.apply edit).2 := by
  cases edit with
  | create label => exact retains_create f label
  | insert target label =>
      exact (retains_create f label).trans (retains_attach _ target f.nextHandle)
  | attach target handle => exact retains_attach f target handle
  | remove handle =>
      rw [Edit.clears, Bool.and_eq_false_iff] at keeping
      rw [apply, remove]
      split_ifs with unknown head
      · exact .refl f
      · simp_all
      · exact .refl f
      · have cut := retains_unlink f handle
        exact ⟨cut.epoch_eq, cut.labels⟩
  | removeChildren handle =>
      rw [apply, removeChildren]
      cases f.node? handle with
      | none => exact .refl f
      | some node =>
          have emptied : f.Retains (f.modify handle fun node => { node with children := [] }) :=
            retains_modify f handle fun _ => rfl
          have cut := emptied.trans (retains_orphan _ node.children)
          exact ⟨cut.epoch_eq, cut.labels⟩
  | clear => cases keeping

end CommandEngine.Forest
