import CommandEngine.Proofs.Forest.Epochs
import CommandEngine.Proofs.Session.Acceptance
/-!
# The same batch in a later epoch

Planting a batch into the forest of a later epoch gives the forest and the open blocks of a later
epoch. What makes planting succeed is the same in both: every node of the open blocks is part of the
tree (`Nesting.HeldBy`), and planting keeps it so.
-/

namespace CommandEngine

variable {d : UInt64}

/-- The place with its node in a later epoch. -/
def Place.later (d : UInt64) : Place → Place
  | .anchor => .anchor
  | .node handle => .node (handle.later d)
  | .staged index => .staged index

theorem Place.handle?_later (d : UInt64) (anchor : Handle) (place : Place) :
    (place.later d).handle? (anchor.later d) [] =
      (place.handle? anchor []).map (Handle.later d) := by
  cases place <;> rfl

namespace Nesting

/-- The nesting with its nodes in a later epoch. -/
def later (d : UInt64) (nesting : Nesting) : Nesting where
  blocks := nesting.blocks.map (Place.later d)
  last := nesting.last.map (Place.later d)

variable {nesting : Nesting} {tree : InvocationTree} {parent : Handle}

theorem current_later (d : UInt64) (nesting : Nesting) :
    (nesting.later d).current = nesting.current.later d := by
  obtain ⟨blocks, last⟩ := nesting
  cases blocks <;> rfl

theorem enter_later (d : UInt64) (nesting : Nesting) :
    (nesting.later d).enter = nesting.enter.later d := by
  obtain ⟨blocks, last⟩ := nesting
  cases last with
  | some last => rfl
  | none => cases blocks <;> rfl

theorem leave_later (d : UInt64) (nesting : Nesting) :
    (nesting.later d).leave = nesting.leave.later d := by
  simp [leave, later, List.map_tail]

theorem wroteAt_later (d : UInt64) (nesting : Nesting) (handle : Handle) :
    (nesting.later d).wroteAt (handle.later d) = (nesting.wroteAt handle).later d := rfl

/-- Every node of the nesting is part of the tree. -/
def HeldBy (nesting : Nesting) (tree : InvocationTree) : Prop :=
  ∀ handle, Place.node handle ∈ nesting.places → tree.inTree handle = true

theorem heldBy_empty (tree : InvocationTree) : HeldBy {} tree :=
  fun _ here => absurd here (not_mem_places_empty _)

namespace HeldBy

theorem enter (held : nesting.HeldBy tree) : nesting.enter.HeldBy tree :=
  fun handle here => held handle ((mem_places_of_mem_enter here).resolve_left nofun)

theorem leave (held : nesting.HeldBy tree) : nesting.leave.HeldBy tree :=
  fun handle here => held handle (mem_places_of_mem_leave here)

/-- A new node below a node of the tree may be remembered. -/
theorem wroteAt (held : nesting.HeldBy tree) (wf : tree.WellFormed)
    (attached : tree.inTree parent = true) (invocation : Invocation) :
    (nesting.wroteAt tree.nextHandle).HeldBy (tree.sprout parent invocation) := by
  intro handle here
  rw [wf.inTree_sprout attached]
  rcases mem_places_of_mem_wroteAt here with new | old
  · exact .inl (Place.node.inj new)
  · exact .inr (held handle old)

end HeldBy

end Nesting

namespace Batch

variable {ω : Type} {catalog : Catalog ω} {builder : Builder ω} {tree rooted grown : InvocationTree}
variable {anchor : Handle} {batch : List Item} {nesting last : Nesting}

theorem heldBy_of_plant (wf : tree.WellFormed) (hanchor : tree.inTree anchor = true)
    (held : nesting.HeldBy tree) (hplant : plant anchor batch nesting tree = .ok (last, grown)) :
    last.HeldBy grown :=
  plant_induction (P := Nesting.HeldBy) (fun held => held.enter) (fun held => held.leave)
    (fun invocation wf _ attached held => held.wroteAt wf attached invocation)
    wf hanchor held hplant

/-- Planting succeeds if the open blocks are part of the tree. -/
theorem exists_plant_of_heldBy (wf : tree.WellFormed) (hanchor : tree.inTree anchor = true)
    (hsettled : nesting.IsSettled) (held : nesting.HeldBy tree) (batch : List Item) :
    ∃ last grown, plant anchor batch nesting tree = .ok (last, grown) := by
  have hbound : nesting.StagedBelow ([] : List Handle).length := hsettled
  have ready : Ready anchor [] (stagedOf batch nesting ([] : List Handle).length).1 tree :=
    { toWellFormed := wf, anchored := hanchor, inserted := nofun,
      numbered := numbered_stagedOf hsettled,
      required := fun one here handle hhandle => held handle (mem_places_of_required here hhandle) }
  obtain ⟨⟨last, grown⟩, hplant⟩ := exists_plant_of_ready hbound ready
  rw [Nesting.settle_of_isSettled hsettled] at hplant
  exact ⟨last, grown, hplant⟩

/-- Planting does not depend on the epoch. -/
theorem plant_later (wf : tree.WellFormed) (wf' : (tree.later d).WellFormed)
    (hanchor : tree.inTree anchor = true)
    (hplant : plant anchor batch nesting tree = .ok (last, grown)) :
    plant (anchor.later d) batch (nesting.later d) (tree.later d) =
      .ok (last.later d, grown.later d) := by
  induction batch generalizing nesting tree with
  | nil =>
      cases hplant
      rfl
  | cons item rest ih =>
      cases item with
      | openBlock =>
          rw [plant, Nesting.enter_later]
          exact ih wf wf' hanchor hplant
      | closeBlock =>
          rw [plant, Nesting.leave_later]
          exact ih wf wf' hanchor hplant
      | command invocation =>
          obtain ⟨parent, hparent, attached, hrest⟩ :=
            (plant_command_eq_ok_iff wf hanchor).1 hplant
          have attached' : (tree.later d).inTree (parent.later d) = true := by
            rw [Forest.inTree_later, attached]
          have wg' := wf'.sprout attached' invocation
          have hanchor' := (wf.inTree_sprout attached invocation anchor).2 (.inr hanchor)
          rw [Forest.sprout_later] at wg'
          refine (plant_command_eq_ok_iff wf' (by rw [Forest.inTree_later, hanchor])).2
            ⟨parent.later d, ?_, attached', ?_⟩
          · rw [Nesting.current_later, Place.handle?_later, hparent, Option.map_some]
          · rw [Forest.nextHandle_later, Nesting.wroteAt_later, Forest.sprout_later]
            exact ih (wf.sprout attached invocation) wg' hanchor' hrest

/-- Neither does finding the head. -/
theorem anchor_later (catalog : Catalog ω) (builder : Builder ω) (wf : tree.WellFormed)
    (wf' : (tree.later d).WellFormed) :
    Batch.anchor catalog builder (tree.later d) =
      ((Batch.anchor catalog builder tree).1.map (Handle.later d),
        (Batch.anchor catalog builder tree).2.later d) := by
  cases hhead : tree.head with
  | some head =>
      have hhead' : (tree.later d).head = some (head.later d) := by simp [Forest.later, hhead]
      rw [anchor_of_head catalog builder hhead, anchor_of_head catalog builder hhead']
      rfl
  | none =>
      have hhead' : (tree.later d).head = none := by simp [Forest.later, hhead]
      rw [anchor_of_isEmpty catalog builder wf hhead, anchor_of_isEmpty catalog builder wf' hhead']
      cases builder idleCommand [] catalog with
      | error cause => rfl
      | ok idle =>
          dsimp only
          rw [Forest.create_later, Forest.nextHandle_later]
          rfl

end Batch

namespace InvocationTree

variable {ω : Type}

theorem executeNodes_later (d : UInt64) (catalog : Catalog ω) (quotes : List Char)
    (tree : InvocationTree) (nodes : List Handle) (world : ω) :
    executeNodes catalog quotes (tree.later d) (nodes.map (Handle.later d)) world =
      executeNodes catalog quotes tree nodes world := by
  induction nodes generalizing world with
  | nil => rfl
  | cons handle rest ih =>
      rw [List.map_cons, executeNodes, executeNodes, Forest.label?_later]
      cases tree.label? handle with
      | none => exact ih world
      | some invocation =>
          dsimp only
          rcases invocation.execute catalog quotes world with ⟨answer, after⟩
          cases answer with
          | error cause => rfl
          | ok done => exact ih after

theorem execute_later (d : UInt64) (catalog : Catalog ω) (quotes : List Char)
    (tree : InvocationTree) (handle : Handle) (world : ω) :
    execute catalog quotes (tree.later d) (handle.later d) world =
      execute catalog quotes tree handle world := by
  rw [execute, execute, Forest.preorder_later, executeNodes_later]

end InvocationTree

namespace Session

variable {ω : Type} {older newer : Session ω} {statements : List Statement}

/-- The newer session is the older one in a later epoch. A command remembered by a tree that is
gone may differ, for nothing can be nested into it any more. -/
structure Later (d : UInt64) (older newer : Session ω) : Prop where
  settings : newer.settings = older.settings
  catalog : newer.catalog = older.catalog
  scanner : newer.scanner = older.scanner
  tree : newer.tree = older.tree.later d
  blocks : newer.nesting.blocks = older.nesting.blocks.map (Place.later d)
  live : newer.liveNesting = older.liveNesting.later d

theorem liveNesting_discard (session : Session ω) : session.discard.liveNesting = {} :=
  ite_self _

namespace Later

theorem depth_eq (later : Later d older newer) : newer.nesting.depth = older.nesting.depth := by
  simp [Nesting.depth, later.blocks]

theorem isComplete_eq (later : Later d older newer) : newer.isComplete = older.isComplete := by
  simp [isComplete, Nesting.isOpen, later.scanner, later.blocks]

theorem discard (later : Later d older newer) : Later d older.discard newer.discard where
  settings := later.settings
  catalog := later.catalog
  scanner := rfl
  tree := later.tree
  blocks := rfl
  live := by
    rw [liveNesting_discard, liveNesting_discard]
    rfl

/-- Both take the same batches. -/
theorem plants (later : Later d older newer) (sound : older.Sound) (sound' : newer.Sound)
    {last : Nesting} {grown : InvocationTree} (hplants : older.Plants statements last grown) :
    newer.Plants statements (last.later d) (grown.later d) := by
  obtain ⟨hknown, batch, anchor, rooted, hitems, hanchor, hplant⟩ := hplants
  have wf' : (older.tree.later d).WellFormed := later.tree ▸ sound'.tree
  have hanchor' := Batch.anchor_later older.catalog older.settings.builder sound.tree wf'
  rw [hanchor] at hanchor'
  obtain ⟨wg, hhead, -⟩ := Batch.anchor_spec sound.tree hanchor
  obtain ⟨wg', -⟩ := Batch.anchor_spec wf' hanchor'
  rw [Plants, later.settings, later.catalog, later.tree, later.live]
  exact ⟨hknown, batch, anchor.later d, rooted.later d, hitems, hanchor',
    Batch.plant_later wg wg' (wg.inTree_head hhead) hplant⟩

/-- Both can be cleared, and then only the number of their open blocks matters. -/
theorem clear (later : Later d older newer) {nesting nesting' : Nesting}
    (hblocks : nesting'.blocks = nesting.blocks.map (Place.later d)) :
    Later d { older with tree := older.tree.clear, nesting }
      { newer with tree := newer.tree.clear, nesting := nesting' } where
  settings := later.settings
  catalog := later.catalog
  scanner := later.scanner
  tree := by rw [later.tree, Forest.clear_later]
  blocks := hblocks
  live := rfl

/-- Both run alike. -/
theorem execute (later : Later d older newer) (world : ω) :
    (newer.execute world).1 = (older.execute world).1 ∧
      Later d (older.execute world).2.1 (newer.execute world).2.1 ∧
      (newer.execute world).2.2 = (older.execute world).2.2 := by
  have hhead : newer.tree.head = older.tree.head.map (Handle.later d) := by
    rw [later.tree]
    rfl
  cases hold : older.tree.head with
  | none =>
      have hnew : newer.tree.head = none := by rw [hhead, hold, Option.map_none]
      rw [Session.execute, Session.execute, hold, hnew]
      exact ⟨rfl, later, rfl⟩
  | some head =>
      have hnew : newer.tree.head = some (head.later d) := by rw [hhead, hold, Option.map_some]
      have hrun : newer.tree.execute newer.catalog newer.quotes (head.later d) world =
          older.tree.execute older.catalog older.quotes head world := by
        rw [quotes, later.settings, later.catalog, later.tree, InvocationTree.execute_later]
        rfl
      rw [Session.execute, Session.execute, hold, hnew]
      dsimp only
      rw [hrun]
      rcases older.tree.execute older.catalog older.quotes head world with ⟨answer, after⟩
      cases answer with
      | error cause => exact ⟨rfl, later, rfl⟩
      | ok done => exact ⟨rfl, later.clear rfl, rfl⟩

end Later

end Session

end CommandEngine
