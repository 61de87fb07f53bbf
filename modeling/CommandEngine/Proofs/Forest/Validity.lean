import CommandEngine.Forest.Execution
import CommandEngine.Path.Lookup
import CommandEngine.Proofs.Forest.Retaining
/-!
# How long a handle is valid

Whoever creates a node is given a handle to it. From then on the handle addresses this node,
wherever the node is moved, and no other node is ever given the same handle; clearing ends its
validity, and afterwards it addresses nothing, also when another node stands in the same place
(`InvocationTree.valid_until_cleared`).

What being valid means is said for all views at once by `Forest.Accepts`, and what being invalid
means by `Forest.Rejects`, which covers views and edits alike. One use of an invalid handle is not
refused: the first node of a forest becomes its head whatever parent is named, so the parent is not
looked at.
-/

namespace CommandEngine

namespace Forest

variable {α : Type} {f g : Forest α} {handle : Handle} {label : α}

/-- What a host does to a forest. -/
inductive Operation (α : Type)
  | edit (edit : Edit α)
  | relabel (handle : Handle) (change : α → α)

/-- The forest after an operation, accepted or refused. -/
def perform (f : Forest α) : Operation α → Forest α
  | .edit edit => (f.apply edit).2
  | .relabel handle change => f.modifyLabel handle change

def performAll (f : Forest α) (operations : List (Operation α)) : Forest α :=
  operations.foldl perform f

namespace Operation

/-- Whether an operation drops all nodes. -/
def clears (f : Forest α) : Operation α → Bool
  | .edit made => made.clears f
  | .relabel _ _ => false

/-- The handle that an operation gives to its caller, with what the new node stands for. -/
def yields? (f : Forest α) : Operation α → Option (Handle × α)
  | .edit (.create label) => some ((f.create label).1, label)
  | .edit (.insert parent label) => (f.insert parent label).1.toOption.map (·, label)
  | .edit _ => none
  | .relabel _ _ => none

/-- What a node stands for after an operation. -/
def relabeled (handle : Handle) (label : α) : Operation α → α
  | .edit _ => label
  | .relabel other change => if other = handle then change label else label

end Operation

/-- How often operations clear a forest. -/
def clearings (f : Forest α) : List (Operation α) → Nat
  | [] => 0
  | operation :: rest =>
    (if operation.clears f then 1 else 0) + (f.perform operation).clearings rest

variable {operation : Operation α} {operations : List (Operation α)}

private theorem clearings_append (f : Forest α) (front back : List (Operation α)) :
    f.clearings (front ++ back) = f.clearings front + (f.performAll front).clearings back := by
  induction front generalizing f with
  | nil => exact (Nat.zero_add _).symm
  | cons operation rest ih =>
      rw [List.cons_append, clearings, clearings, ih, Nat.add_assoc]
      rfl

theorem Reachable.perform (reached : f.Reachable) (operation : Operation α) :
    (f.perform operation).Reachable := by
  cases operation with
  | edit edit => exact reached.edit edit
  | relabel handle change => exact reached.relabel handle change

theorem Reachable.performAll (reached : f.Reachable) (operations : List (Operation α)) :
    (f.performAll operations).Reachable := by
  induction operations generalizing f with
  | nil => exact reached
  | cons operation rest ih => exact ih (reached.perform operation)

/-- The label of a node is found by its place. -/
theorem label?_eq_getElem? (f : Forest α) (handle : Handle) :
    f.label? handle = if handle.epoch = f.epoch then f.labels[handle.index]? else none := by
  rw [label?, node?]
  split
  · rw [labels, List.getElem?_map, Array.getElem?_toList]
  · rfl

theorem contains_of_label?_eq_some (held : f.label? handle = some label) :
    f.contains handle = true := by
  cases hnode : f.node? handle with
  | none => simp [label?, hnode] at held
  | some node => exact contains_of_node?_eq_some hnode

/-- A node that is retained stands for what it stood for. -/
theorem Retains.label?_eq (retains : f.Retains g) (held : f.label? handle = some label) :
    g.label? handle = some label := by
  have current := (contains_iff.1 (contains_of_label?_eq_some held)).1
  rw [label?_eq_getElem?, if_pos current] at held
  rw [label?_eq_getElem?, if_pos (current.trans retains.epoch_eq.symm)]
  obtain ⟨later, hlabels⟩ := retains.labels
  rw [← hlabels]
  exact (List.getElem?_append_left (List.getElem?_eq_some_iff.1 held).1).trans held

theorem perform_of_clears (clears : operation.clears f = true) :
    f.perform operation = f.clear := by
  cases operation with
  | edit edit => exact congrArg Prod.snd (apply_of_clears clears)
  | relabel => cases clears

theorem epoch_perform (keeping : operation.clears f = false) :
    (f.perform operation).epoch = f.epoch := by
  cases operation with
  | edit edit => exact (retains_apply keeping).epoch_eq
  | relabel handle change => exact epoch_modify f handle _

/-- Short of clearing, an operation leaves a handle to its node, and only relabeling this node
changes what it stands for. -/
theorem label?_perform (keeping : operation.clears f = false)
    (held : f.label? handle = some label) :
    (f.perform operation).label? handle = some (operation.relabeled handle label) := by
  cases operation with
  | edit edit => exact (retains_apply keeping).label?_eq held
  | relabel other change =>
      rw [label?] at held
      rw [perform, modifyLabel, label?, node?_modify, Operation.relabeled]
      by_cases same : other = handle
      · rw [if_pos same, if_pos same, Option.map_map]
        obtain ⟨node, hnode, rfl⟩ := Option.map_eq_some_iff.1 held
        rw [hnode]
        rfl
      · rw [if_neg same, if_neg same]
        exact held

/-- A handle that is given out is the next one, and the new node is found by it. -/
theorem label?_of_yields? (yields : operation.yields? f = some (handle, label)) :
    handle = f.nextHandle ∧ operation.clears f = false ∧
      (f.perform operation).label? handle = some label := by
  have created : (f.create label).2.label? f.nextHandle = some label := by
    rw [label?, node?_create, if_pos rfl]
    rfl
  cases operation with
  | relabel => cases yields
  | edit edit =>
      cases edit with
      | create other =>
          cases yields
          exact ⟨rfl, rfl, created⟩
      | insert parent other =>
          have retained := retains_attach (f.create other).2 parent f.nextHandle
          cases hattach : ((f.create other).2.attach parent f.nextHandle).1 with
          | error cause =>
              have refused : (f.insert parent other).1 = .error cause :=
                congrArg (Except.map _) hattach
              rw [Operation.yields?, refused] at yields
              cases yields
          | ok _ =>
              have accepted : (f.insert parent other).1 = .ok f.nextHandle :=
                congrArg (Except.map _) hattach
              rw [Operation.yields?, accepted] at yields
              cases yields
              exact ⟨rfl, rfl, retained.label?_eq created⟩
      | attach | remove | removeChildren | clear => cases yields

/-- What a node stands for after several operations. -/
def relabeledAll (handle : Handle) (label : α) (operations : List (Operation α)) : α :=
  operations.foldl (fun label operation => operation.relabeled handle label) label

/-- Until the next clearing, a handle leads to its node. -/
theorem label?_performAll (keeping : f.clearings operations = 0)
    (held : f.label? handle = some label) :
    (f.performAll operations).label? handle = some (relabeledAll handle label operations) := by
  induction operations generalizing f label with
  | nil => exact held
  | cons operation rest ih =>
      rw [clearings, Nat.add_eq_zero_iff] at keeping
      have spared : operation.clears f = false := by simpa using keeping.1
      exact ih keeping.2 (label?_perform spared held)

private theorem toNat_epoch_add_one {epoch : UInt64} (fits : epoch.toNat + 1 < UInt64.size) :
    (epoch + 1).toNat = epoch.toNat + 1 := by
  rw [UInt64.toNat_add]
  exact Nat.mod_eq_of_lt fits

/-- The epoch counts the clearings. -/
theorem toNat_epoch_performAll (fits : f.epoch.toNat + f.clearings operations < UInt64.size) :
    (f.performAll operations).epoch.toNat = f.epoch.toNat + f.clearings operations := by
  induction operations generalizing f with
  | nil => rfl
  | cons operation rest ih =>
      rw [clearings] at fits ⊢
      have hstep : (f.perform operation).epoch.toNat =
          f.epoch.toNat + if operation.clears f then 1 else 0 := by
        cases clears : operation.clears f with
        | false => exact congrArg UInt64.toNat (epoch_perform clears)
        | true =>
            rw [clears, if_pos rfl] at fits
            rw [perform_of_clears clears, if_pos rfl]
            exact toNat_epoch_add_one (by omega)
      have later := ih (f := f.perform operation) (by omega)
      rw [hstep, Nat.add_assoc] at later
      exact later

/-! ## Valid and invalid handles -/

/-- A handle leads to a node that stands for something, and the node is where its neighbours say
that it is. -/
structure Accepts (f : Forest α) (handle : Handle) (label : α) : Prop where
  contains : f.contains handle = true
  label?_eq : f.label? handle = some label
  /-- It is found among the children of its parent, if it has one. -/
  parent?_iff : ∀ parent, f.parent? handle = some parent ↔ handle ∈ f.children parent
  exists_children : ∃ children, f.children? handle = some children ∧
    ∀ child, child ∈ children ↔ f.parent? child = some handle

/-- A handle leads nowhere: views find nothing at it, and edits refuse it and leave the forest as it
is. Once there is a head, it is refused as a parent as well; an insertion has created its node by
then. -/
structure Rejects (f : Forest α) (handle : Handle) : Prop where
  contains : f.contains handle = false
  label? : f.label? handle = none
  parent? : f.parent? handle = none
  children? : f.children? handle = none
  inTree : f.inTree handle = false
  preorder : f.preorder handle = []
  countBelow : f.countBelow handle = 0
  get? : ∀ nameOf path, f.get? nameOf handle path = none
  modifyLabel : ∀ change, f.modifyLabel handle change = f
  attach : ∀ parent, f.attach parent handle = (.error (.noSuchNode handle), f)
  remove : f.remove handle = (.error (.noSuchNode handle), f)
  removeChildren : f.removeChildren handle = (.error (.noSuchNode handle), f)
  insert_below : f.head ≠ none → ∀ label,
    f.insert (some handle) label = (.error (.noSuchNode handle), (f.create label).2)
  /-- Nothing can be attached below it, and it is the cause unless the other node is refused first,
  being unknown or placed already. -/
  attach_below : f.head ≠ none → ∀ node, ∃ cause, f.attach (some handle) node = (.error cause, f) ∧
    (cause = .noSuchNode handle ∨ cause = .noSuchNode node ∨ cause = .alreadyPlaced node)

theorem Reachable.accepts (reached : f.Reachable) (held : f.label? handle = some label) :
    f.Accepts handle label := by
  have wf := reached.wellFormed
  have known := contains_of_label?_eq_some held
  obtain ⟨node, hnode⟩ := exists_node?_of_contains known
  refine ⟨known, held, fun parent => (wf.mem_children_iff parent handle).symm,
    node.children, by rw [children?, hnode]; rfl, fun child => ?_⟩
  rw [← children_of_node? hnode]
  exact wf.mem_children_iff handle child

theorem node?_of_stale (stale : handle.epoch ≠ f.epoch) : f.node? handle = none := if_neg stale

/-- Once there is a head, an unknown parent is the cause unless the node itself is refused first. -/
theorem attach_of_not_contains (hhead : f.head ≠ none) (unknown : f.contains handle = false)
    {node : Handle} {found : Node α} (hnode : f.node? node = some found)
    (loose : (found.parent.isSome || f.head == some node) = false) :
    f.attach (some handle) node = (.error (.noSuchNode handle), f) := by
  have occupied : f.isEmpty = false := by
    rw [isEmpty, Option.isNone_eq_false_iff, Option.isSome_iff_ne_none]
    exact hhead
  simp [attach, hnode, loose, occupied, unknown]

private theorem attach_below_of_stale (stale : handle.epoch ≠ f.epoch) (hhead : f.head ≠ none)
    (node : Handle) : ∃ cause, f.attach (some handle) node = (.error cause, f) ∧
      (cause = .noSuchNode handle ∨ cause = .noSuchNode node ∨ cause = .alreadyPlaced node) := by
  have unknown : f.contains handle = false := by simp [contains, node?_of_stale stale]
  cases hnode : f.node? node with
  | none => exact ⟨.noSuchNode node, by simp [attach, hnode], .inr (.inl rfl)⟩
  | some found =>
      cases loose : found.parent.isSome || f.head == some node with
      | true => exact ⟨.alreadyPlaced node, by simp [attach, hnode, loose], .inr (.inr rfl)⟩
      | false => exact ⟨_, attach_of_not_contains hhead unknown hnode loose, .inl rfl⟩

/-- A new node has no place yet, so an invalid parent is all that it can be refused for. -/
theorem Rooted.insert_below_of_stale (wf : f.Rooted) (stale : handle.epoch ≠ f.epoch)
    (hhead : f.head ≠ none) (label : α) :
    f.insert (some handle) label = (.error (.noSuchNode handle), (f.create label).2) := by
  have created : (f.create label).2.node? f.nextHandle = some { label } := by
    rw [node?_create, if_pos rfl]
  have unknown : (f.create label).2.contains handle = false := by
    have nowhere : (f.create label).2.node? handle = none := node?_of_stale stale
    rw [contains, nowhere]
    rfl
  have apart : f.head ≠ some f.nextHandle := by
    intro same
    exact ne_nextHandle_of_contains (wf.contains_head _ same) rfl
  have refused : (f.create label).2.attach (some handle) f.nextHandle =
      (.error (.noSuchNode handle), (f.create label).2) :=
    attach_of_not_contains (f := (f.create label).2) hhead unknown created (by simpa using apart)
  show ((((f.create label).2.attach (some handle) f.nextHandle).1.map fun _ => f.nextHandle),
    ((f.create label).2.attach (some handle) f.nextHandle).2) = _
  rw [refused]
  rfl

/-- A handle of another epoch leads nowhere. -/
theorem Reachable.rejects (reached : f.Reachable) (stale : handle.epoch ≠ f.epoch) :
    f.Rejects handle := by
  have nowhere := node?_of_stale stale
  have unknown : f.contains handle = false := by simp [contains, nowhere]
  have walk : f.preorder handle = [] := by simp [preorder, unknown]
  exact {
    contains := unknown
    label? := by simp [label?, nowhere]
    parent? := by simp [parent?, nowhere]
    children? := by simp [children?, nowhere]
    inTree := by simp [inTree, unknown]
    preorder := walk
    countBelow := by simp [countBelow, walk]
    get? := fun nameOf path => by simp [get?, unknown]
    modifyLabel := fun change => if_neg stale
    attach := fun parent => by simp [attach, nowhere]
    remove := by simp [remove, unknown]
    removeChildren := by simp [removeChildren, nowhere]
    insert_below := reached.wellFormed.insert_below_of_stale stale
    attach_below := attach_below_of_stale stale }

/-- A handle of another epoch is not the one that is given out next. -/
theorem ne_of_yields?_of_stale {again : Handle} (stale : handle.epoch ≠ f.epoch)
    (yields : operation.yields? f = some (again, label)) : again ≠ handle := by
  rintro rfl
  rw [(label?_of_yields? yields).1] at stale
  exact stale rfl

end Forest

namespace InvocationTree

open Forest

/-- A handle that creating or inserting a node yields is valid until the tree is cleared, and leads
to what the node stands for by then. After that it is invalid, and running it runs nothing. It is
never yielded again. All this holds as long as there are fewer clearings than epochs. -/
theorem valid_until_cleared (front back : List (Operation Invocation))
    (operation : Operation Invocation) (handle : Handle) (invocation : Invocation)
    (yields : operation.yields? (({} : InvocationTree).performAll front) =
      some (handle, invocation))
    (fits : ({} : InvocationTree).clearings (front ++ operation :: back) < UInt64.size) :
    let made := (({} : InvocationTree).performAll front).perform operation
    let tree := made.performAll back
    (made.clearings back = 0 → tree.Accepts handle (relabeledAll handle invocation back)) ∧
    (0 < made.clearings back → tree.Rejects handle ∧
      ∀ {ω : Type} (catalog : Catalog ω) quotes world,
        execute catalog quotes tree handle world = (.ok (), world)) ∧
    ∀ later again other, Operation.yields? tree later = some (again, other) → again ≠ handle := by
  intro made tree
  have reached : tree.Reachable :=
    ((Reachable.empty.performAll front).perform operation).performAll back
  obtain ⟨-, spared, held⟩ := label?_of_yields? yields
  have current : handle.epoch = made.epoch :=
    (contains_iff.1 (contains_of_label?_eq_some held)).1
  rw [clearings_append, clearings, spared, if_neg Bool.false_ne_true, Nat.zero_add] at fits
  -- The epoch of the handle counts the clearings before it was given out, that of the tree those
  -- after as well.
  have hmade : made.epoch.toNat = ({} : InvocationTree).clearings front := by
    rw [epoch_perform spared, toNat_epoch_performAll (Nat.zero_add _ ▸ by omega)]
    exact Nat.zero_add _
  have htree : tree.epoch.toNat = made.epoch.toNat + made.clearings back := by
    apply toNat_epoch_performAll
    rw [hmade]
    exact fits
  have stale : 0 < made.clearings back → handle.epoch ≠ tree.epoch := by
    intro cleared same
    rw [← same, current] at htree
    omega
  refine ⟨fun kept => ?_, fun cleared => ?_, fun later again other yields' => ?_⟩
  · exact reached.accepts (label?_performAll kept held)
  · have rejects := reached.rejects (stale cleared)
    refine ⟨rejects, fun catalog quotes world => ?_⟩
    rw [execute, rejects.preorder]
    rfl
  · rcases Nat.eq_zero_or_pos (made.clearings back) with kept | cleared
    · have known := contains_of_label?_eq_some (label?_performAll kept held)
      rw [(label?_of_yields? yields').1]
      exact (ne_nextHandle_of_contains known).symm
    · exact ne_of_yields?_of_stale (stale cleared) yields'

/-- A node that is moved and renamed keeps its handle; after a clearing another node takes its
place, and the handle is invalid nevertheless. -/
theorem valid_until_cleared_reused :
    let first : Operation Invocation := .edit (.create { name := "list" })
    let moves : List (Operation Invocation) :=
      [.edit (.insert none { name := "say" }), .edit (.attach (some ⟨1, 0⟩) ⟨0, 0⟩),
        .relabel ⟨0, 0⟩ fun invocation => { invocation with name := "quit" },
        .edit (.remove ⟨0, 0⟩)]
    let reuse : List (Operation Invocation) :=
      [.edit .clear, .edit (.insert none { name := "say" })]
    ((({} : InvocationTree).perform first).performAll moves).Accepts ⟨0, 0⟩ { name := "quit" } ∧
    ((({} : InvocationTree).perform first).performAll reuse).contains ⟨0, 1⟩ = true ∧
    ((({} : InvocationTree).perform first).performAll reuse).Rejects ⟨0, 0⟩ := by
  intro first moves reuse
  have moved := valid_until_cleared [] moves first ⟨0, 0⟩ { name := "list" } (by rfl)
    (by decide +kernel)
  have reused := valid_until_cleared [] reuse first ⟨0, 0⟩ { name := "list" } (by rfl)
    (by decide +kernel)
  exact ⟨moved.1 (by decide +kernel), by decide +kernel, (reused.2.1 (by decide +kernel)).1⟩

/-- A handle that has been invalid since a clearing is not refused as the parent of a first node. -/
theorem insert_below_cleared :
    let first : Operation Invocation := .edit (.insert none { name := "list" })
    let operations : List (Operation Invocation) := [first, .edit .clear]
    let tree := ({} : InvocationTree).performAll operations
    first.yields? ({} : InvocationTree) = some (⟨0, 0⟩, { name := "list" }) ∧
    ({} : InvocationTree).clearings operations = 1 ∧ tree.contains ⟨0, 0⟩ = false ∧
    (tree.insert (some ⟨0, 0⟩) { name := "list" }).1 = .ok ⟨0, 1⟩ := by
  decide +kernel

end InvocationTree

end CommandEngine
