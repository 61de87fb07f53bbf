import CommandEngine.Batch.Attachment
import CommandEngine.Proofs.Forest.Growth
/-!
# Planting a batch

A batch is staged first and attached afterwards, so that nothing happens to the tree before all of
the batch is known to be sound. Its meaning is simpler: take the statements in turn, keep track of
the open blocks, and put each command below the innermost of them at once. `Batch.plant` says just
that, over statements whose commands have been built.

The central fact is that the two agree (`insertAll_stagedOf`, `exists_plant_of_ready`): staging
hands out numbers, settling replaces them by nodes, and at every moment the settled nesting of the
first is the nesting of the second. Planting in two parts is planting the parts in turn, which is
what makes it the form to reason about.
-/

namespace CommandEngine

/-- Further nodes do not matter to a place whose command has a node already. -/
theorem Place.settle_append {nodes : List Handle} {place : Place} (more : List Handle)
    (hbound : ∀ index, place = .staged index → index < nodes.length) :
    place.settle (nodes ++ more) = place.settle nodes := by
  cases place with
  | anchor => rfl
  | node handle => rfl
  | staged index =>
      rw [Place.settle, Place.settle, List.getElem?_append_left (hbound index rfl)]

private theorem Place.settle_of_ne_staged {place : Place} (hplace : ∀ index, place ≠ .staged index)
    (nodes : List Handle) : place.settle nodes = place := by
  cases place with
  | anchor => rfl
  | node handle => rfl
  | staged index => exact absurd rfl (hplace index)

namespace Nesting

/-- All places that a nesting holds. -/
def places (nesting : Nesting) : List Place := nesting.blocks ++ nesting.last.toList

/-- Every command of the batch that a nesting refers to has a number below the bound. -/
def StagedBelow (bound : Nat) (nesting : Nesting) : Prop :=
  ∀ index, Place.staged index ∈ nesting.places → index < bound

/-- No place of the nesting waits for a node. -/
def IsSettled (nesting : Nesting) : Prop := nesting.StagedBelow 0

/-- Every node of the nesting was issued before: no node to come will be mistaken for it. -/
def IssuedBefore (nesting : Nesting) (tree : InvocationTree) : Prop :=
  ∀ handle, Place.node handle ∈ nesting.places → handle.epoch = tree.epoch →
    handle.index < tree.nodes.size

/-- Remember a node as the command written last. -/
def wroteAt (nesting : Nesting) (handle : Handle) : Nesting :=
  { nesting with last := some (.node handle) }

variable {nesting : Nesting} {place : Place} {bound : Nat} {nodes : List Handle}

theorem not_mem_places_empty (place : Place) : place ∉ ({} : Nesting).places := List.not_mem_nil

theorem isSettled_empty : IsSettled {} :=
  fun _ here => absurd here (not_mem_places_empty _)

theorem current_eq_anchor_or_mem (nesting : Nesting) :
    nesting.current = .anchor ∨ nesting.current ∈ nesting.places := by
  obtain ⟨blocks, last⟩ := nesting
  cases blocks with
  | nil => exact .inl rfl
  | cons place rest => exact .inr (by simp [current, places])

theorem mem_places_of_mem_enter (here : place ∈ nesting.enter.places) :
    place = .anchor ∨ place ∈ nesting.places := by
  obtain ⟨blocks, last⟩ := nesting
  cases last with
  | some last =>
      simp only [enter, places, Option.getD_some, List.cons_append, List.mem_cons] at here
      rcases here with rfl | later
      · exact .inr (by simp [places])
      · exact .inr later
  | none =>
      simp only [places, enter, List.cons_append, List.mem_cons] at here
      rcases here with rfl | later
      · exact current_eq_anchor_or_mem _
      · exact .inr later

theorem mem_places_of_mem_leave (here : place ∈ nesting.leave.places) :
    place ∈ nesting.places := by
  rw [places, List.mem_append] at here ⊢
  exact here.imp_left List.mem_of_mem_tail

theorem mem_places_of_mem_wrote {index : Nat} (here : place ∈ (nesting.wrote index).places) :
    place = .staged index ∨ place ∈ nesting.places := by
  simp only [places, wrote, List.mem_append, Option.mem_toList, Option.some.injEq] at here
  rcases here with block | rfl
  · exact .inr (List.mem_append_left _ block)
  · exact .inl rfl

theorem mem_places_of_mem_wroteAt {handle : Handle}
    (here : place ∈ (nesting.wroteAt handle).places) :
    place = .node handle ∨ place ∈ nesting.places := by
  simp only [places, wroteAt, List.mem_append, Option.mem_toList, Option.some.injEq] at here
  rcases here with block | rfl
  · exact .inr (List.mem_append_left _ block)
  · exact .inl rfl

namespace StagedBelow

theorem enter (hbound : nesting.StagedBelow bound) : nesting.enter.StagedBelow bound := by
  intro index here
  rcases mem_places_of_mem_enter here with absurd | old
  · cases absurd
  · exact hbound index old

theorem leave (hbound : nesting.StagedBelow bound) : nesting.leave.StagedBelow bound :=
  fun index here => hbound index (mem_places_of_mem_leave here)

theorem wrote (hbound : nesting.StagedBelow bound) :
    (nesting.wrote bound).StagedBelow (bound + 1) := by
  intro index here
  rcases mem_places_of_mem_wrote here with same | old
  · cases same
    omega
  · exact Nat.lt_succ_of_lt (hbound index old)

end StagedBelow

namespace IssuedBefore

variable {tree grown : InvocationTree}

theorem enter (hissued : nesting.IssuedBefore tree) : nesting.enter.IssuedBefore tree := by
  intro handle here
  rcases mem_places_of_mem_enter here with absurd | old
  · cases absurd
  · exact hissued handle old

theorem leave (hissued : nesting.IssuedBefore tree) : nesting.leave.IssuedBefore tree :=
  fun handle here => hissued handle (mem_places_of_mem_leave here)

theorem wrote {index : Nat} (hissued : nesting.IssuedBefore tree) :
    (nesting.wrote index).IssuedBefore tree := by
  intro handle here
  rcases mem_places_of_mem_wrote here with absurd | old
  · cases absurd
  · exact hissued handle old

theorem mono (hissued : nesting.IssuedBefore tree) (hepoch : grown.epoch = tree.epoch)
    (hsize : tree.nodes.size ≤ grown.nodes.size) : nesting.IssuedBefore grown :=
  fun handle here current =>
    Nat.lt_of_lt_of_le (hissued handle here (current.trans hepoch)) hsize

end IssuedBefore

@[simp]
theorem current_settle (nesting : Nesting) (nodes : List Handle) :
    (nesting.settle nodes).current = nesting.current.settle nodes := by
  obtain ⟨blocks, last⟩ := nesting
  cases blocks <;> rfl

theorem settle_enter (nesting : Nesting) (nodes : List Handle) :
    nesting.enter.settle nodes = (nesting.settle nodes).enter := by
  obtain ⟨blocks, last⟩ := nesting
  cases last with
  | some last => rfl
  | none => cases blocks <;> rfl

theorem settle_leave (nesting : Nesting) (nodes : List Handle) :
    nesting.leave.settle nodes = (nesting.settle nodes).leave := by
  simp [settle, leave, List.map_tail]

theorem settle_append (hbound : nesting.StagedBelow nodes.length) (more : List Handle) :
    nesting.settle (nodes ++ more) = nesting.settle nodes := by
  rw [settle, settle, Nesting.mk.injEq]
  refine ⟨List.map_congr_left fun place here => ?_, Option.map_congr fun place here => ?_⟩
  · exact Place.settle_append more fun index same =>
      hbound index (same ▸ List.mem_append_left _ here)
  · exact Place.settle_append more fun index same =>
      hbound index (same ▸ List.mem_append_right _ (by simpa using here))

theorem settle_wrote (hbound : nesting.StagedBelow nodes.length) (handle : Handle) :
    (nesting.wrote nodes.length).settle (nodes ++ [handle]) =
      (nesting.settle nodes).wroteAt handle := by
  have hblocks : (nesting.settle (nodes ++ [handle])).blocks = (nesting.settle nodes).blocks := by
    rw [settle_append hbound]
  rw [wroteAt, ← hblocks]
  simp [settle, wrote, Place.settle]

theorem settle_of_isSettled (hsettled : nesting.IsSettled) (nodes : List Handle) :
    nesting.settle nodes = nesting := by
  have hplace {place : Place} (here : place ∈ nesting.places) : place.settle nodes = place :=
    Place.settle_of_ne_staged (fun index same => by
      subst same
      exact absurd (hsettled index here) (Nat.not_lt_zero index)) nodes
  obtain ⟨blocks, last⟩ := nesting
  rw [settle, Nesting.mk.injEq]
  constructor
  · exact (List.map_congr_left fun place here => hplace (List.mem_append_left _ here)).trans
      (List.map_id blocks)
  · cases last with
    | none => rfl
    | some last => exact congrArg some (hplace (by simp [places]))

end Nesting

/-! ## Batches whose commands have been built -/

namespace Batch

variable {ω : Type} {catalog : Catalog ω} {builder : Builder ω}

/-- A statement whose command has been built. -/
inductive Item
  | openBlock
  | closeBlock
  | command (invocation : Invocation)

/-- The invocation of an item that is a command. -/
def Item.invocation? : Item → Option Invocation
  | .command invocation => some invocation
  | .openBlock => none
  | .closeBlock => none

/-- The items of one statement: a command without words is none. -/
def itemsOf (catalog : Catalog ω) (builder : Builder ω) :
    Statement → Except StagingError (List Item)
  | .openBlock => .ok [.openBlock]
  | .closeBlock => .ok [.closeBlock]
  | .command [] => .ok []
  | .command (name :: words) =>
    (build catalog builder name words).map fun invocation => [.command invocation]

/-- Build the commands of a batch in order; the first that cannot be built decides. -/
def items (catalog : Catalog ω) (builder : Builder ω) :
    List Statement → Except StagingError (List Item)
  | [] => .ok []
  | statement :: rest =>
    match itemsOf catalog builder statement with
    | .error cause => .error cause
    | .ok front => (items catalog builder rest).map (front ++ ·)

/-- The commands of a batch with their places, numbered from the bound, and the nesting after it. -/
def stagedOf : List Item → Nesting → Nat → List Staged × Nesting
  | [], nesting, _ => ([], nesting)
  | .openBlock :: rest, nesting, bound => stagedOf rest nesting.enter bound
  | .closeBlock :: rest, nesting, bound => stagedOf rest nesting.leave bound
  | .command invocation :: rest, nesting, bound =>
    let (staged, last) := stagedOf rest (nesting.wrote bound) (bound + 1)
    (⟨nesting.current, invocation⟩ :: staged, last)

/-- Take the items in turn and insert every command at once below its place. -/
def plant (anchor : Handle) :
    List Item → Nesting → InvocationTree → Except ForestError (Nesting × InvocationTree)
  | [], nesting, tree => .ok (nesting, tree)
  | .openBlock :: rest, nesting, tree => plant anchor rest nesting.enter tree
  | .closeBlock :: rest, nesting, tree => plant anchor rest nesting.leave tree
  | .command invocation :: rest, nesting, tree =>
    match tree.insert (nesting.current.handle? anchor []) invocation with
    | (.error cause, _) => .error cause
    | (.ok handle, tree) => plant anchor rest (nesting.wroteAt handle) tree

/-- A batch can be built exactly if its statements can. -/
theorem items_cons_eq_ok_iff {statement : Statement} {rest : List Statement} {batch : List Item} :
    items catalog builder (statement :: rest) = .ok batch ↔
      ∃ front more, itemsOf catalog builder statement = .ok front ∧
        items catalog builder rest = .ok more ∧ batch = front ++ more := by
  rw [items]
  cases itemsOf catalog builder statement with
  | error cause => simp
  | ok front =>
      cases items catalog builder rest with
      | error cause => simp [Except.map]
      | ok more => simp [Except.map, eq_comm]

theorem items_append (front back : List Statement) :
    items catalog builder (front ++ back) =
      match items catalog builder front with
      | .error cause => .error cause
      | .ok first => (items catalog builder back).map (first ++ ·) := by
  induction front with
  | nil => cases hback : items catalog builder back <;> simp [items, Except.map, hback]
  | cons statement rest ih =>
      rw [List.cons_append, items, items]
      cases itemsOf catalog builder statement with
      | error cause => rfl
      | ok first =>
          simp only [ih]
          cases items catalog builder rest with
          | error cause => rfl
          | ok second => cases items catalog builder back <;> simp [Except.map]

private theorem stagedOf_append (front back : List Item) (nesting : Nesting) (bound : Nat) :
    stagedOf (front ++ back) nesting bound =
      let first := stagedOf front nesting bound
      let second := stagedOf back first.2 (bound + first.1.length)
      (first.1 ++ second.1, second.2) := by
  induction front generalizing nesting bound with
  | nil => rfl
  | cons item rest ih =>
      cases item with
      | openBlock => exact ih _ _
      | closeBlock => exact ih _ _
      | command invocation => simp [stagedOf, ih, Nat.add_assoc, Nat.add_comm 1]

theorem plant_append (anchor : Handle) (front back : List Item) (nesting : Nesting)
    (tree : InvocationTree) :
    plant anchor (front ++ back) nesting tree =
      match plant anchor front nesting tree with
      | .error cause => .error cause
      | .ok (nesting, tree) => plant anchor back nesting tree := by
  induction front generalizing nesting tree with
  | nil => rfl
  | cons item rest ih =>
      cases item with
      | openBlock => exact ih _ _
      | closeBlock => exact ih _ _
      | command invocation =>
          simp only [List.cons_append, plant]
          split
          · rfl
          · exact ih _ _

/-- Staging takes one statement by building it and finding the places of its items. -/
theorem stageFrom_cons (statement : Statement) (rest : List Statement) (nesting : Nesting)
    (staged : List Staged) :
    stageFrom catalog builder (statement :: rest) nesting staged =
      match itemsOf catalog builder statement with
      | .error cause => (.error cause, nesting)
      | .ok front =>
        let first := stagedOf front nesting staged.length
        stageFrom catalog builder rest first.2 (staged ++ first.1) := by
  cases statement with
  | openBlock => simp [stageFrom, itemsOf, stagedOf]
  | closeBlock => simp [stageFrom, itemsOf, stagedOf]
  | command words =>
      cases words with
      | nil => simp [stageFrom, itemsOf, stagedOf]
      | cons name words =>
          rw [stageFrom, itemsOf]
          cases build catalog builder name words <;> rfl

/-- A command that cannot be built stops the staging of its batch. -/
theorem stageFrom_of_items_eq_error {cause : StagingError} {statements : List Statement}
    (hitems : items catalog builder statements = .error cause) (nesting : Nesting)
    (staged : List Staged) :
    (stageFrom catalog builder statements nesting staged).1 = .error cause := by
  induction statements generalizing nesting staged with
  | nil => cases hitems
  | cons statement rest ih =>
      rw [stageFrom_cons]
      rw [items] at hitems
      cases hfront : itemsOf catalog builder statement with
      | error other => simpa [hfront] using hitems
      | ok front =>
          cases hrest : items catalog builder rest with
          | error other =>
              simp only [hfront, hrest, Except.map, Except.error.injEq] at hitems
              exact ih (hitems ▸ hrest) _ _
          | ok batch => simp [hfront, hrest, Except.map] at hitems

/-- Staging a batch whose commands can be built only finds their places. -/
theorem stageFrom_of_items_eq_ok {batch : List Item} {statements : List Statement}
    (hitems : items catalog builder statements = .ok batch) (nesting : Nesting)
    (staged : List Staged) :
    stageFrom catalog builder statements nesting staged =
      (.ok (staged ++ (stagedOf batch nesting staged.length).1),
        (stagedOf batch nesting staged.length).2) := by
  induction statements generalizing nesting staged batch with
  | nil =>
      cases hitems
      simp [stageFrom, stagedOf]
  | cons statement rest ih =>
      obtain ⟨front, more, hfront, hrest, rfl⟩ := items_cons_eq_ok_iff.1 hitems
      rw [stageFrom_cons, hfront]
      simp [ih hrest, stagedOf_append, List.append_assoc]

section Attaching

variable {tree : InvocationTree} {anchor : Handle}

/-- Planting a command succeeds exactly below a node of the tree proper. -/
theorem plant_command_eq_ok_iff (wf : tree.WellFormed) (hanchor : tree.inTree anchor = true)
    {invocation : Invocation} {rest : List Item} {nesting : Nesting}
    {grown : Nesting × InvocationTree} :
    plant anchor (.command invocation :: rest) nesting tree = .ok grown ↔
      ∃ parent, nesting.current.handle? anchor [] = some parent ∧ tree.inTree parent = true ∧
        plant anchor rest (nesting.wroteAt tree.nextHandle) (tree.sprout parent invocation) =
          .ok grown := by
  obtain ⟨head, hhead⟩ := wf.exists_head hanchor
  constructor
  · intro hplant
    rw [plant] at hplant
    split at hplant
    · cases hplant
    case h_2 handle changed hinsert =>
      obtain ⟨parent, hparent, attached, rfl, rfl⟩ := (wf.insert_eq_ok_iff hhead).1 hinsert
      exact ⟨parent, hparent, attached, hplant⟩
  · rintro ⟨parent, hparent, attached, hplant⟩
    rw [plant, hparent, wf.insert_of_inTree attached]
    exact hplant

/-- What is kept by opening and closing blocks, and by putting a command below a node of the tree
proper, is kept by planting. -/
theorem plant_induction {P : Nesting → InvocationTree → Prop}
    (enter : ∀ {nesting tree}, P nesting tree → P nesting.enter tree)
    (leave : ∀ {nesting tree}, P nesting tree → P nesting.leave tree)
    (command : ∀ {nesting : Nesting} {tree : InvocationTree} {parent : Handle}
      (invocation : Invocation), tree.WellFormed →
      nesting.current.handle? anchor [] = some parent → tree.inTree parent = true →
      P nesting tree → P (nesting.wroteAt tree.nextHandle) (tree.sprout parent invocation))
    {batch : List Item} {nesting last : Nesting} {grown : InvocationTree} (wf : tree.WellFormed)
    (hanchor : tree.inTree anchor = true) (start : P nesting tree)
    (hplant : plant anchor batch nesting tree = .ok (last, grown)) : P last grown := by
  induction batch generalizing nesting tree with
  | nil =>
      cases hplant
      exact start
  | cons item rest ih =>
      cases item with
      | openBlock => exact ih wf hanchor (enter start) hplant
      | closeBlock => exact ih wf hanchor (leave start) hplant
      | command invocation =>
          obtain ⟨parent, hparent, attached, hrest⟩ := (plant_command_eq_ok_iff wf hanchor).1 hplant
          exact ih (wf.sprout attached invocation)
            ((wf.inTree_sprout attached invocation anchor).2 (.inr hanchor))
            (command invocation wf hparent attached start) hrest

/-- The node at a settled place is the node at the place among the nodes that settle it. -/
theorem handle?_settle {place : Place} {nodes : List Handle}
    (hbound : ∀ index, place = .staged index → index < nodes.length) (anchor : Handle) :
    (place.settle nodes).handle? anchor [] = place.handle? anchor nodes := by
  cases place with
  | anchor => rfl
  | node handle => rfl
  | staged index => simp [Place.settle, Place.handle?, hbound index rfl]

theorem current_staged_lt {nesting : Nesting} {bound : Nat} (hbound : nesting.StagedBelow bound)
    (index : Nat) (hcurrent : nesting.current = .staged index) : index < bound := by
  rcases nesting.current_eq_anchor_or_mem with absurd | here
  · rw [hcurrent] at absurd
    cases absurd
  · exact hbound index (hcurrent ▸ here)

/-- Attaching what was staged comes to the same as planting, once planting succeeds. -/
theorem insertAll_stagedOf {batch : List Item} {nesting : Nesting} {nodes : List Handle}
    {grown : Nesting × InvocationTree} (wf : tree.WellFormed)
    (hanchor : tree.inTree anchor = true) (hbound : nesting.StagedBelow nodes.length)
    (hplant : plant anchor batch (nesting.settle nodes) tree = .ok grown) :
    ∃ all, insertAll anchor (stagedOf batch nesting nodes.length).1 nodes tree =
        (.ok all, grown.2) ∧
      (stagedOf batch nesting nodes.length).2.settle all = grown.1 := by
  induction batch generalizing nesting nodes tree with
  | nil =>
      cases hplant
      exact ⟨nodes, rfl, rfl⟩
  | cons item rest ih =>
      cases item with
      | openBlock =>
          rw [plant, ← Nesting.settle_enter] at hplant
          exact ih wf hanchor hbound.enter hplant
      | closeBlock =>
          rw [plant, ← Nesting.settle_leave] at hplant
          exact ih wf hanchor hbound.leave hplant
      | command invocation =>
          obtain ⟨parent, hparent, attached, hrest⟩ :=
            (plant_command_eq_ok_iff wf hanchor).1 hplant
          rw [Nesting.current_settle, handle?_settle (current_staged_lt hbound)] at hparent
          rw [← Nesting.settle_wrote hbound] at hrest
          have hanchor' := (wf.inTree_sprout attached invocation anchor).2 (.inr hanchor)
          have hbound' : (nesting.wrote nodes.length).StagedBelow
              (nodes ++ [tree.nextHandle]).length := by
            simpa using hbound.wrote
          obtain ⟨all, hinsert, hsettle⟩ :=
            ih (wf.sprout attached invocation) hanchor' hbound' hrest
          rw [List.length_append, List.length_singleton] at hinsert hsettle
          refine ⟨all, ?_, hsettle⟩
          simp only [stagedOf, insertAll, hparent, wf.insert_of_inTree attached]
          exact hinsert

/-- Every command refers to earlier ones only, the first of the list having the number `bound`. -/
def Numbered : Nat → List Staged → Prop
  | _, [] => True
  | bound, one :: rest =>
    (∀ index, one.place = .staged index → index < bound) ∧ Numbered (bound + 1) rest

theorem numbered_stagedOf {batch : List Item} {nesting : Nesting} {bound : Nat}
    (hbound : nesting.StagedBelow bound) :
    Numbered bound (stagedOf batch nesting bound).1 := by
  induction batch generalizing nesting bound with
  | nil => trivial
  | cons item rest ih =>
      cases item with
      | openBlock => exact ih hbound.enter
      | closeBlock => exact ih hbound.leave
      | command invocation => exact ⟨current_staged_lt hbound, ih hbound.wrote⟩

/-- The rest of a batch can be inserted after the commands that have become `nodes`. -/
structure Ready (anchor : Handle) (nodes : List Handle) (rest : List Staged)
    (tree : InvocationTree) : Prop extends tree.WellFormed where
  anchored : tree.inTree anchor = true
  inserted : ∀ node ∈ nodes, tree.inTree node = true
  /-- The others refer to these, or to each other in order. -/
  numbered : Numbered nodes.length rest
  required : ∀ one ∈ rest, ∀ handle, one.place.required? = some handle → tree.inTree handle = true

namespace Ready

variable {nodes : List Handle} {one : Staged} {rest : List Staged}

theorem exists_parent (ready : Ready anchor nodes (one :: rest) tree) :
    ∃ parent, one.place.handle? anchor nodes = some parent ∧ tree.inTree parent = true := by
  have hrequired := ready.required one List.mem_cons_self
  have hbound := ready.numbered.1
  cases hplace : one.place with
  | anchor => exact ⟨anchor, rfl, ready.anchored⟩
  | node handle => exact ⟨handle, rfl, hrequired handle (by rw [hplace]; rfl)⟩
  | staged index =>
      have within := hbound index hplace
      exact ⟨nodes[index], List.getElem?_eq_getElem within,
        ready.inserted _ (List.getElem_mem within)⟩

/-- Once the next command has a node below some node of the tree, the others can be inserted. -/
theorem step (ready : Ready anchor nodes (one :: rest) tree) {parent : Handle}
    (attached : tree.inTree parent = true) :
    Ready anchor (nodes ++ [tree.nextHandle]) rest (tree.sprout parent one.invocation) := by
  have hsprout := ready.toWellFormed.inTree_sprout attached one.invocation
  refine { toWellFormed := ready.toWellFormed.sprout attached one.invocation,
           anchored := (hsprout anchor).2 (.inr ready.anchored), inserted := ?_, numbered := ?_,
           required := ?_ }
  · intro node here
    rcases List.mem_append.1 here with old | new
    · exact (hsprout node).2 (.inr (ready.inserted node old))
    · exact (hsprout node).2 (.inl (List.mem_singleton.1 new))
  · simpa using ready.numbered.2
  · intro later here handle hhandle
    have attached' := ready.required later (List.mem_cons_of_mem _ here) handle hhandle
    exact (hsprout handle).2 (.inr attached')

/-- The first commands of a batch are inserted, and then the others can be. -/
theorem insertAll {front back : List Staged} (ready : Ready anchor nodes (front ++ back) tree) :
    ∃ all grown, Batch.insertAll anchor front nodes tree = (.ok all, grown) ∧
      all.length = nodes.length + front.length ∧ Ready anchor all back grown := by
  induction front generalizing nodes tree with
  | nil => exact ⟨nodes, tree, rfl, rfl, ready⟩
  | cons one rest ih =>
      obtain ⟨parent, hparent, attached⟩ := ready.exists_parent
      obtain ⟨all, grown, hinsert, hlength, ready'⟩ := ih (ready.step attached)
      refine ⟨all, grown, ?_, ?_, ready'⟩
      · simp only [Batch.insertAll, hparent, ready.toWellFormed.insert_of_inTree attached, hinsert]
      · rw [hlength, List.length_append, List.length_singleton, List.length_cons]
        omega

end Ready

/-- Planting succeeds if inserting what was staged does. -/
theorem exists_plant_of_ready {batch : List Item} {nesting : Nesting} {nodes : List Handle}
    (hbound : nesting.StagedBelow nodes.length)
    (ready : Ready anchor nodes (stagedOf batch nesting nodes.length).1 tree) :
    ∃ grown, plant anchor batch (nesting.settle nodes) tree = .ok grown := by
  induction batch generalizing nesting nodes tree with
  | nil => exact ⟨_, rfl⟩
  | cons item rest ih =>
      cases item with
      | openBlock =>
          rw [plant, ← Nesting.settle_enter]
          exact ih hbound.enter ready
      | closeBlock =>
          rw [plant, ← Nesting.settle_leave]
          exact ih hbound.leave ready
      | command invocation =>
          obtain ⟨parent, hparent, attached⟩ := ready.exists_parent
          have hbound' : (nesting.wrote nodes.length).StagedBelow
              (nodes ++ [tree.nextHandle]).length := by
            simpa using hbound.wrote
          obtain ⟨grown, hplant⟩ := ih hbound' (by simpa using ready.step attached)
          rw [Nesting.settle_wrote hbound] at hplant
          refine ⟨grown, (plant_command_eq_ok_iff ready.toWellFormed ready.anchored).2
            ⟨parent, ?_, attached, hplant⟩⟩
          rw [Nesting.current_settle, handle?_settle (current_staged_lt hbound)]
          exact hparent

/-- The old nodes that a batch hangs below come from the nesting before it. -/
theorem mem_places_of_required {batch : List Item} {nesting : Nesting} {bound : Nat}
    {staged : Staged} {handle : Handle} (here : staged ∈ (stagedOf batch nesting bound).1)
    (hhandle : staged.place.required? = some handle) : Place.node handle ∈ nesting.places := by
  induction batch generalizing nesting bound with
  | nil => cases here
  | cons item rest ih =>
      cases item with
      | openBlock =>
          rcases Nesting.mem_places_of_mem_enter (ih here) with absurd | old
          · cases absurd
          · exact old
      | closeBlock => exact Nesting.mem_places_of_mem_leave (ih here)
      | command invocation =>
          rcases List.mem_cons.1 here with rfl | later
          · rcases nesting.current_eq_anchor_or_mem with hcurrent | hcurrent
            · simp [hcurrent, Place.required?] at hhandle
            · cases hplace : nesting.current with
              | anchor => simp [hplace, Place.required?] at hhandle
              | staged index => simp [hplace, Place.required?] at hhandle
              | node other =>
                  simp only [hplace, Place.required?, Option.some.injEq] at hhandle
                  rw [← hhandle, ← hplace]
                  exact hcurrent
          · rcases Nesting.mem_places_of_mem_wrote (ih later) with absurd | old
            · cases absurd
            · exact old

/-- Conversely, if planting succeeds, the old nodes that the batch hangs below are in place. Nodes
of the batch itself cannot stand in for them, because all old nodes were issued before. -/
theorem required_of_plant {batch : List Item} {nesting : Nesting} {nodes : List Handle}
    {grown : Nesting × InvocationTree} (wf : tree.WellFormed)
    (hanchor : tree.inTree anchor = true) (hbound : nesting.StagedBelow nodes.length)
    (hissued : nesting.IssuedBefore tree)
    (hplant : plant anchor batch (nesting.settle nodes) tree = .ok grown) :
    ∀ staged ∈ (stagedOf batch nesting nodes.length).1, ∀ handle,
      staged.place.required? = some handle → tree.inTree handle = true := by
  induction batch generalizing nesting nodes tree with
  | nil =>
      intro staged here
      cases here
  | cons item rest ih =>
      cases item with
      | openBlock =>
          rw [plant, ← Nesting.settle_enter] at hplant
          exact ih wf hanchor hbound.enter hissued.enter hplant
      | closeBlock =>
          rw [plant, ← Nesting.settle_leave] at hplant
          exact ih wf hanchor hbound.leave hissued.leave hplant
      | command invocation =>
          obtain ⟨parent, hparent, attached, hrest⟩ :=
            (plant_command_eq_ok_iff wf hanchor).1 hplant
          rw [Nesting.current_settle, handle?_settle (current_staged_lt hbound)] at hparent
          rw [← Nesting.settle_wrote hbound] at hrest
          have hanchor' := (wf.inTree_sprout attached invocation anchor).2 (.inr hanchor)
          have hbound' : (nesting.wrote nodes.length).StagedBelow
              (nodes ++ [tree.nextHandle]).length := by
            simpa using hbound.wrote
          have hlater := ih (wf.sprout attached invocation) hanchor' hbound'
            (hissued.wrote.mono (by simp) (by simp)) hrest
          rw [List.length_append, List.length_singleton] at hlater
          intro staged here handle hhandle
          rcases List.mem_cons.1 here with rfl | later
          · cases hcurrent : nesting.current with
            | anchor => simp [hcurrent, Place.required?] at hhandle
            | staged index => simp [hcurrent, Place.required?] at hhandle
            | node other =>
                simp only [hcurrent, Place.required?, Option.some.injEq] at hhandle
                simp only [hcurrent, Place.handle?, Option.some.injEq] at hparent
                rw [← hhandle, hparent]
                exact attached
          · rcases (wf.inTree_sprout attached invocation handle).1
              (hlater staged later handle hhandle) with rfl | old
            · have fresh := hissued _ (mem_places_of_required here hhandle) rfl
              exact absurd fresh (Nat.lt_irrefl _)
            · exact old

/-- What planting leaves of the tree and adds to it: the old nodes stand as they did, with further
children after their own, and the commands are new nodes of the tree proper, in their order. -/
theorem plant_spec {batch : List Item} {nesting last : Nesting} {grown : InvocationTree}
    (wf : tree.WellFormed) (hanchor : tree.inTree anchor = true)
    (hplant : plant anchor batch nesting tree = .ok (last, grown)) :
    grown.WellFormed ∧ tree.Extends grown ∧ grown.head = tree.head ∧ grown.epoch = tree.epoch ∧
      grown.labels = tree.labels ++ batch.filterMap Item.invocation? ∧
      grown.size = tree.size + (batch.filterMap Item.invocation?).length ∧
      ∀ handle, grown.contains handle = true → tree.contains handle = false →
        grown.inTree handle = true := by
  induction batch generalizing nesting tree with
  | nil =>
      cases hplant
      refine ⟨wf, .refl _, rfl, rfl, by simp, by simp, fun handle known unknown => ?_⟩
      rw [known] at unknown
      cases unknown
  | cons item rest ih =>
      cases item with
      | openBlock => exact ih wf hanchor hplant
      | closeBlock => exact ih wf hanchor hplant
      | command invocation =>
          obtain ⟨parent, -, attached, hrest⟩ := (plant_command_eq_ok_iff wf hanchor).1 hplant
          have known := Forest.contains_of_inTree attached
          have wg := wf.sprout attached invocation
          have hanchor' := (wf.inTree_sprout attached invocation anchor).2 (.inr hanchor)
          obtain ⟨wh, ext, hhead, hepoch, hlabels, hsize, hnew⟩ := ih wg hanchor' hrest
          refine ⟨wh, (Forest.extends_sprout known invocation).trans ext, ?_, ?_, ?_, ?_, ?_⟩
          · rw [hhead, Forest.head_sprout]
          · rw [hepoch, Forest.epoch_sprout]
          · simp [hlabels, Item.invocation?]
          · have hone : (tree.sprout parent invocation).size = tree.size + 1 := rfl
            simp only [hsize, hone, Item.invocation?, List.filterMap_cons, List.length_cons]
            omega
          · intro handle hknown unknown
            by_cases here : (tree.sprout parent invocation).contains handle = true
            · rcases (Forest.contains_sprout known invocation handle).1 here with rfl | old
              · rw [ext.inTree_eq wg.toLinked wh.toLinked hhead here]
                exact (wf.inTree_sprout attached invocation _).2 (.inl rfl)
              · rw [old] at unknown
                cases unknown
            · exact hnew handle hknown (by simpa using here)

end Attaching

end Batch

end CommandEngine
