import CommandEngine.Proofs.Batch.BlockOrder
import CommandEngine.Session
/-!
# Accepting a line

What a line does to a session comes down to one question: can the statements it completes be planted
below the head? `Session.Plants` asks it, and `acceptStatements_cases` says that there are only two
outcomes. Either the batch is planted as a whole, or the session is what discarding leaves, and then
its tree is untouched; a batch that stops half-way does not exist.

The invariant behind this, `Session.Sound`, is that the tree is well-formed and that the open blocks
are as they are left between two lines (`Nesting.IsProper`). That they are in order is needed only
for the way back, from planting to acceptance (`acceptStatements_of_plants`).
-/

namespace CommandEngine

namespace Batch

variable {ω : Type} {catalog : Catalog ω} {builder : Builder ω} {tree rooted : InvocationTree}
variable {anchor : Handle}

/-- The invocation that a batch puts into a tree without a head before its own commands. -/
def Heads (catalog : Catalog ω) (builder : Builder ω) (tree : InvocationTree)
    (heads : List Invocation) : Prop :=
  match tree.head with
  | some _ => heads = []
  | none => ∃ idle, builder idleCommand [] catalog = .ok idle ∧ heads = [idle]

private theorem heads_of_head {head : Handle} (hhead : tree.head = some head) :
    Heads catalog builder tree [] := by
  simp [Heads, hhead]

private theorem heads_of_isEmpty (hhead : tree.head = none) {idle : Invocation}
    (hidle : builder idleCommand [] catalog = .ok idle) : Heads catalog builder tree [idle] := by
  simp [Heads, hhead, hidle]

theorem anchor_of_head (catalog : Catalog ω) (builder : Builder ω) {head : Handle}
    (hhead : tree.head = some head) : Batch.anchor catalog builder tree = (.ok head, tree) := by
  simp [Batch.anchor, hhead]

/-- A tree without a head gets one, unless the builder refuses. -/
theorem anchor_of_isEmpty (catalog : Catalog ω) (builder : Builder ω) (wf : tree.WellFormed)
    (hhead : tree.head = none) :
    Batch.anchor catalog builder tree =
      match builder idleCommand [] catalog with
      | .error cause => (.error (.catalog cause), tree)
      | .ok idle =>
        (.ok tree.nextHandle,
          { (tree.create idle).2 with head := some tree.nextHandle, size := 1 }) := by
  cases hidle : builder idleCommand [] catalog with
  | error cause => simp [Batch.anchor, hhead, hidle]
  | ok idle => simp [Batch.anchor, hhead, hidle, wf.insert_of_isEmpty hhead, Except.mapError]

/-- Finding the head fails only when it has to be made, and then the tree is left alone. -/
theorem snd_anchor_of_error {cause : AttachmentError} {after : InvocationTree}
    (wf : tree.WellFormed) (hanchor : Batch.anchor catalog builder tree = (.error cause, after)) :
    after = tree := by
  cases hhead : tree.head with
  | some head =>
      rw [anchor_of_head catalog builder hhead] at hanchor
      cases hanchor
  | none =>
      rw [anchor_of_isEmpty catalog builder wf hhead] at hanchor
      cases hidle : builder idleCommand [] catalog with
      | error refused =>
          rw [hidle] at hanchor
          exact (Prod.mk.inj hanchor).2.symm
      | ok idle =>
          rw [hidle] at hanchor
          cases hanchor

/-- The tree with a head: nothing else has changed, and the head is the only possible new node. -/
theorem anchor_spec (wf : tree.WellFormed)
    (hanchor : Batch.anchor catalog builder tree = (.ok anchor, rooted)) :
    rooted.WellFormed ∧ rooted.head = some anchor ∧ tree.Extends rooted ∧
      rooted.epoch = tree.epoch ∧ (∀ head, tree.head = some head → rooted = tree) ∧
      (tree.head = none → anchor = tree.nextHandle) ∧
      ∃ heads, Heads catalog builder tree heads ∧ rooted.labels = tree.labels ++ heads ∧
        rooted.size = tree.size + heads.length ∧
        ∀ handle, rooted.contains handle = true → tree.contains handle = false →
          rooted.inTree handle = true := by
  rcases Option.eq_none_or_eq_some tree.head with hhead | ⟨head, hhead⟩
  · rw [anchor_of_isEmpty catalog builder wf hhead] at hanchor
    cases hidle : builder idleCommand [] catalog with
    | error cause =>
        rw [hidle] at hanchor
        cases hanchor
    | ok idle =>
        have wg := wf.insert none idle
        rw [wf.insert_of_isEmpty hhead] at wg
        rw [hidle] at hanchor
        cases hanchor
        refine ⟨wg, rfl, Forest.extends_create tree idle, rfl, ?_, fun _ => rfl, [idle],
          heads_of_isEmpty hhead hidle, Forest.labels_create tree idle, ?_, ?_⟩
        · intro head hsome
          rw [hhead] at hsome
          cases hsome
        · rw [wf.size_eq_zero hhead]
          rfl
        · intro handle known unknown
          rcases (Forest.contains_create tree idle handle).1 known with rfl | old
          · exact wg.inTree_head rfl
          · rw [old] at unknown
            cases unknown
  · rw [anchor_of_head catalog builder hhead] at hanchor
    cases hanchor
    refine ⟨wf, hhead, .refl _, rfl, fun _ _ => rfl, ?_, [], heads_of_head hhead, by simp, rfl, ?_⟩
    · intro hnone
      rw [hhead] at hnone
      cases hnone
    · intro handle known unknown
      rw [known] at unknown
      cases unknown

/-- What is part of the tree stays so when the tree gets a head. -/
theorem inTree_of_anchor {handle : Handle} (wf : tree.WellFormed)
    (hanchor : Batch.anchor catalog builder tree = (.ok anchor, rooted))
    (attached : tree.inTree handle = true) : rooted.inTree handle = true := by
  obtain ⟨head, hhead⟩ := wf.exists_head attached
  obtain ⟨-, -, -, -, hsame, -⟩ := anchor_spec wf hanchor
  rw [hsame head hhead]
  exact attached

/-- No node is lost exactly when all nodes that the batch hangs below are in place. -/
theorem firstLost?_eq_none_iff {staged : List Staged} :
    firstLost? tree staged = none ↔ ∀ one ∈ staged, ∀ handle,
      one.place.required? = some handle → tree.inTree handle = true := by
  simp only [firstLost?, List.find?_eq_none, List.mem_filterMap, Bool.not_eq_true',
    Bool.not_eq_false]
  exact ⟨fun found one here handle hhandle => found handle ⟨one, here, hhandle⟩,
    fun found handle ⟨one, here, hhandle⟩ => found one here handle hhandle⟩

/-- Staging a batch fails, or all its commands are known and built and it finds their places. -/
theorem stage_cases (catalog : Catalog ω) (builder : Builder ω) (statements : List Statement)
    (nesting : Nesting) :
    (∃ cause, (Batch.stage catalog builder statements nesting).1 = .error cause) ∨
    ∃ batch, firstUnknown? catalog statements = none ∧
      items catalog builder statements = .ok batch ∧
      Batch.stage catalog builder statements nesting =
        (.ok (stagedOf batch nesting 0).1, (stagedOf batch nesting 0).2) := by
  unfold Batch.stage
  cases hunknown : firstUnknown? catalog statements with
  | some name => exact .inl ⟨_, rfl⟩
  | none =>
      cases hitems : items catalog builder statements with
      | error cause => exact .inl ⟨cause, stageFrom_of_items_eq_error hitems nesting []⟩
      | ok batch =>
          refine .inr ⟨batch, rfl, rfl, ?_⟩
          simpa using stageFrom_of_items_eq_ok hitems nesting []

/-- A batch can be inserted below the head if no old node that it refers to is lost. -/
theorem ready_stagedOf {batch : List Item} {nesting : Nesting} (wf : tree.WellFormed)
    (hsettled : nesting.IsSettled)
    (hlost : firstLost? tree (stagedOf batch nesting 0).1 = none)
    (hanchor : Batch.anchor catalog builder tree = (.ok anchor, rooted)) :
    Ready anchor [] (stagedOf batch nesting 0).1 rooted := by
  obtain ⟨wg, hhead, -⟩ := anchor_spec wf hanchor
  refine { toWellFormed := wg, anchored := wg.inTree_head hhead, inserted := nofun,
           numbered := numbered_stagedOf hsettled, required := ?_ }
  intro one here handle hhandle
  exact inTree_of_anchor wf hanchor (firstLost?_eq_none_iff.1 hlost one here handle hhandle)

/-- Attaching a staged batch either leaves the tree alone or plants the batch. -/
theorem attach_stagedOf (catalog : Catalog ω) (builder : Builder ω) (batch : List Item)
    {nesting : Nesting} (wf : tree.WellFormed) (hsettled : nesting.IsSettled) :
    (∃ cause, Batch.attach catalog builder (stagedOf batch nesting 0).1 tree =
      (.error cause, tree)) ∨
    ∃ anchor rooted last grown nodes,
      Batch.anchor catalog builder tree = (.ok anchor, rooted) ∧
      plant anchor batch nesting rooted = .ok (last, grown) ∧
      Batch.attach catalog builder (stagedOf batch nesting 0).1 tree = (.ok nodes, grown) ∧
      (stagedOf batch nesting 0).2.settle nodes = last := by
  unfold Batch.attach
  cases hlost : firstLost? tree (stagedOf batch nesting 0).1 with
  | some handle => exact .inl ⟨_, rfl⟩
  | none =>
      cases hanchor : Batch.anchor catalog builder tree with
      | mk result rooted =>
          cases result with
          | error cause => exact .inl ⟨cause, by simp [snd_anchor_of_error wf hanchor]⟩
          | ok anchor =>
              obtain ⟨wg, hhead, -⟩ := anchor_spec wf hanchor
              have hbound : nesting.StagedBelow ([] : List Handle).length := hsettled
              obtain ⟨⟨last, grown⟩, hplant⟩ :=
                exists_plant_of_ready hbound (ready_stagedOf wf hsettled hlost hanchor)
              obtain ⟨nodes, hinsert, hsettle⟩ :=
                insertAll_stagedOf wg (wg.inTree_head hhead) hbound hplant
              rw [Nesting.settle_of_isSettled hsettled] at hplant
              exact .inr ⟨anchor, rooted, last, grown, nodes, rfl, hplant, hinsert, hsettle⟩

/-- If a batch can be planted, no old node that it refers to is lost. -/
theorem firstLost?_of_plant {batch : List Item} {nesting last : Nesting} {grown : InvocationTree}
    (wf : tree.WellFormed) (proper : nesting.IsProper) (hempty : tree.head = none → nesting = {})
    (hanchor : Batch.anchor catalog builder tree = (.ok anchor, rooted))
    (hplant : plant anchor batch nesting rooted = .ok (last, grown)) :
    firstLost? tree (stagedOf batch nesting 0).1 = none := by
  obtain ⟨wg, hhead, -, -, hsame, -⟩ := anchor_spec wf hanchor
  rw [firstLost?_eq_none_iff]
  intro one here handle hhandle
  cases hold : tree.head with
  | none =>
      have absurd := mem_places_of_required here hhandle
      rw [hempty hold] at absurd
      cases absurd
  | some head =>
      rw [← hsame head hold]
      exact required_of_plant_of_ordered wg (wg.inTree_head hhead) proper hplant one here handle
        hhandle

/-- A batch that can be planted is attached, if no old node that it refers to is lost. -/
theorem attach_of_plant {batch : List Item} {nesting last : Nesting} {grown : InvocationTree}
    (wf : tree.WellFormed) (hsettled : nesting.IsSettled)
    (hlost : firstLost? tree (stagedOf batch nesting 0).1 = none)
    (hanchor : Batch.anchor catalog builder tree = (.ok anchor, rooted))
    (hplant : plant anchor batch nesting rooted = .ok (last, grown)) :
    ∃ nodes, Batch.attach catalog builder (stagedOf batch nesting 0).1 tree = (.ok nodes, grown) ∧
      (stagedOf batch nesting 0).2.settle nodes = last := by
  obtain ⟨wg, hhead, -⟩ := anchor_spec wf hanchor
  have hbound : nesting.StagedBelow ([] : List Handle).length := hsettled
  have hplant' : plant anchor batch (nesting.settle []) rooted = .ok (last, grown) := by
    rwa [Nesting.settle_of_isSettled hsettled]
  obtain ⟨nodes, hinsert, hsettle⟩ :=
    insertAll_stagedOf wg (wg.inTree_head hhead) hbound hplant'
  refine ⟨nodes, ?_, hsettle⟩
  rw [Batch.attach, hlost, hanchor]
  exact hinsert

end Batch

theorem StagingError.verdict_ne_accepted (cause : StagingError) : cause.verdict ≠ .accepted := by
  cases cause <;> nofun

namespace Session

variable {ω : Type} {session : Session ω} {statements : List Statement}

/-- The tree is well-formed, and the open blocks are as they are left between two lines. -/
structure Sound (session : Session ω) : Prop where
  tree : session.tree.WellFormed
  nesting : session.nesting.IsProper

theorem Sound.liveNesting (sound : session.Sound) : session.liveNesting.IsProper := by
  unfold Session.liveNesting
  split
  · exact Nesting.isProper_empty
  · exact sound.nesting

/-- All commands are known and can be built, and they can be planted below the head, with a new tree
and new open blocks as the outcome. -/
def Plants (session : Session ω) (statements : List Statement) (last : Nesting)
    (grown : InvocationTree) : Prop :=
  Batch.firstUnknown? session.catalog statements = none ∧
  ∃ batch anchor rooted,
    Batch.items session.catalog session.settings.builder statements = .ok batch ∧
    Batch.anchor session.catalog session.settings.builder session.tree = (.ok anchor, rooted) ∧
    Batch.plant anchor batch session.liveNesting rooted = .ok (last, grown)

/-- A batch is planted as a whole, or the session is what discarding leaves of it. -/
theorem acceptStatements_cases (sound : session.Sound) (statements : List Statement) :
    (∃ verdict, verdict ≠ .accepted ∧
      session.acceptStatements statements = (verdict, session.discard)) ∨
    ∃ last grown, session.Plants statements last grown ∧
      session.acceptStatements statements =
        (.accepted, { session with tree := grown, nesting := last }) := by
  rcases Batch.stage_cases session.catalog session.settings.builder statements
    session.liveNesting with ⟨cause, hstage⟩ | ⟨batch, hknown, hitems, hstage⟩
  · left
    cases hresult : Batch.stage session.catalog session.settings.builder statements
      session.liveNesting with
    | mk result nesting =>
        rw [hresult] at hstage
        cases hstage
        exact ⟨cause.verdict, cause.verdict_ne_accepted, by simp [acceptStatements, hresult]⟩
  · rcases Batch.attach_stagedOf session.catalog session.settings.builder batch sound.tree
      sound.liveNesting.settled with
      ⟨cause, hattach⟩ | ⟨anchor, rooted, last, grown, nodes, hanchor, hplant, hattach, hsettle⟩
    · exact .inl ⟨.failed cause.toSessionError, nofun, by
        simp [acceptStatements, hstage, hattach, discard]⟩
    · refine .inr ⟨last, grown, ⟨hknown, batch, anchor, rooted, hitems, hanchor, hplant⟩, ?_⟩
      simp [acceptStatements, hstage, hattach, hsettle]

/-- A batch that can be planted is accepted. -/
theorem acceptStatements_of_plants (sound : session.Sound) {last : Nesting}
    {grown : InvocationTree} (hplants : session.Plants statements last grown) :
    session.acceptStatements statements =
      (.accepted, { session with tree := grown, nesting := last }) := by
  obtain ⟨hknown, batch, anchor, rooted, hitems, hanchor, hplant⟩ := hplants
  have hempty : session.tree.head = none → session.liveNesting = {} := by
    intro hhead
    simp [liveNesting, Forest.isEmpty, hhead]
  have hlost := Batch.firstLost?_of_plant sound.tree sound.liveNesting hempty hanchor hplant
  obtain ⟨nodes, hattach, hsettle⟩ :=
    Batch.attach_of_plant sound.tree sound.liveNesting.settled hlost hanchor hplant
  have hstage := Batch.stageFrom_of_items_eq_ok hitems session.liveNesting []
  simp [acceptStatements, Batch.stage, hknown, hstage, hattach, hsettle]

end Session

end CommandEngine
