import CommandEngine.Proofs.Session.Epochs
import CommandEngine.Proofs.Session.LineBreaks
/-!
# Every parent is at hand

A command of a batch hangs below the head, below a node attached before, or below an earlier command
of the same batch, which goes by its number until it has a node. When the turn of a command comes,
such a number has to be one of a node made so far, and the node below which the command goes has to
be part of the tree.

`Batch.Ready` is what insertion keeps of this, one command at a time (`Batch.Ready.step`) and so
over any number of them (`Batch.Ready.insertAll`). It holds at first because no open block waits for
a node between two lines (`Session.Sound`), so that staging counts from zero and refers to earlier
commands only (`Batch.numbered_stagedOf`), and because old nodes are checked before anything else.

That check is the one place where the tree can refuse a line, and it takes a host who has removed a
node that an open block refers to (`Session.exists_lost_of_accept`). A host that leaves the links of
the tree to the session never sees a refusal: the nodes that the open blocks refer to stay in the
tree (`Session.Nested`), whatever is called in whatever order, and whatever fails.
-/

namespace CommandEngine

namespace Batch

variable {ω : Type} {catalog : Catalog ω} {builder : Builder ω} {tree rooted : InvocationTree}
variable {batch : List Item} {nesting : Nesting} {cause : ForestError}

/-- The tree never refuses the head that is made for it. -/
theorem fst_anchor_ne_forest (catalog : Catalog ω) (builder : Builder ω) (wf : tree.WellFormed)
    (cause : ForestError) : (Batch.anchor catalog builder tree).1 ≠ .error (.forest cause) := by
  cases hhead : tree.head with
  | some head => simp [anchor_of_head catalog builder hhead]
  | none =>
      rw [anchor_of_isEmpty catalog builder wf hhead]
      cases builder idleCommand [] catalog <;> simp

/-- The tree refuses a batch only for an old node that is not part of it any more. -/
theorem exists_lost_of_attach (wf : tree.WellFormed) (hsettled : nesting.IsSettled)
    (hattach : (Batch.attach catalog builder (stagedOf batch nesting 0).1 tree).1 =
      .error (.forest cause)) :
    ∃ handle, Place.node handle ∈ nesting.places ∧ tree.inTree handle = false ∧
      cause = .outsideTree handle := by
  unfold Batch.attach at hattach
  cases hlost : firstLost? tree (stagedOf batch nesting 0).1 with
  | some handle =>
      obtain ⟨one, here, hhandle⟩ := List.mem_filterMap.1 (List.mem_of_find?_eq_some hlost)
      have outside := List.find?_some hlost
      simp only [hlost, Except.error.injEq, AttachmentError.forest.injEq] at hattach
      exact ⟨handle, mem_places_of_required here hhandle, by simpa using outside, hattach.symm⟩
  | none =>
      have hrefused := fst_anchor_ne_forest catalog builder wf cause
      rcases hanchor : Batch.anchor catalog builder tree with ⟨result, rooted⟩
      rw [hanchor] at hrefused
      cases result with
      | error other =>
          simp only [hlost, hanchor, Except.error.injEq] at hattach
          exact (hrefused (congrArg Except.error hattach)).elim
      | ok anchor =>
          have ready := ready_stagedOf wf hsettled hlost hanchor
          rw [← List.append_nil (stagedOf batch nesting 0).1] at ready
          obtain ⟨all, grown, hinsert, -⟩ := ready.insertAll
          simp [hlost, hanchor, hinsert] at hattach

end Batch

namespace Session

variable {ω : Type} {session : Session ω} {settings : Settings ω} {cause : ForestError}

/-- Suppose that the batch of some statements has been staged, that no old node is lost and that the
tree has a head. Then each command of the batch in turn finds all before it inserted, its parent
among their nodes if it goes by a number, and the tree willing to take it. -/
def ParentsAtHand (session : Session ω) (statements : List Statement) : Prop :=
  ∀ staged nesting anchor rooted,
    Batch.stage session.catalog session.settings.builder statements session.liveNesting =
      (.ok staged, nesting) →
    Batch.firstLost? session.tree staged = none →
    Batch.anchor session.catalog session.settings.builder session.tree = (.ok anchor, rooted) →
    ∀ front one back, staged = front ++ one :: back →
      ∃ nodes tree handle grown,
        Batch.insertAll anchor front [] rooted = (.ok nodes, tree) ∧
        nodes.length = front.length ∧
        (∀ index, one.place = .staged index → index < nodes.length) ∧
        tree.insert (one.place.handle? anchor nodes) one.invocation = (.ok handle, grown)

theorem Sound.parentsAtHand (sound : session.Sound) (statements : List Statement) :
    session.ParentsAtHand statements := by
  intro staged nesting anchor rooted hstage hlost hanchor front one back hsplit
  obtain ⟨batch, rfl⟩ : ∃ batch, staged = (Batch.stagedOf batch session.liveNesting 0).1 := by
    rcases Batch.stage_cases session.catalog session.settings.builder statements
      session.liveNesting with ⟨cause, hfailed⟩ | ⟨batch, -, -, hbatch⟩
    · simp [hstage] at hfailed
    · rw [hstage] at hbatch
      exact ⟨batch, Except.ok.inj (Prod.mk.inj hbatch).1⟩
  have ready := Batch.ready_stagedOf sound.tree sound.liveNesting.settled hlost hanchor
  rw [hsplit] at ready
  obtain ⟨nodes, tree, hinsert, hlength, ready'⟩ := ready.insertAll
  obtain ⟨parent, hparent, attached⟩ := ready'.exists_parent
  refine ⟨nodes, tree, tree.nextHandle, tree.sprout parent one.invocation, hinsert,
    by simpa using hlength, ready'.numbered.1, ?_⟩
  rw [hparent, ready'.toWellFormed.insert_of_inTree attached]

private theorem exists_lost_of_acceptStatements (sound : session.Sound)
    {statements : List Statement}
    (hrefused : (session.acceptStatements statements).1 = .failed (.forest cause)) :
    ∃ handle, Place.node handle ∈ session.liveNesting.places ∧
      session.tree.inTree handle = false ∧ cause = .outsideTree handle := by
  unfold acceptStatements at hrefused
  rcases Batch.stage_cases session.catalog session.settings.builder statements
    session.liveNesting with ⟨fault, hstage⟩ | ⟨batch, -, -, hstage⟩
  · rcases hresult : Batch.stage session.catalog session.settings.builder statements
      session.liveNesting with ⟨result, nesting⟩
    rw [hresult] at hstage
    cases hstage
    cases fault <;> simp [hresult, StagingError.verdict] at hrefused
  · apply Batch.exists_lost_of_attach sound.tree sound.liveNesting.settled
    rcases hattach : Batch.attach session.catalog session.settings.builder
      (Batch.stagedOf batch session.liveNesting 0).1 session.tree with ⟨result, grown⟩
    simp only [hstage, hattach] at hrefused
    cases result with
    | ok nodes => cases hrefused
    | error other =>
        cases other with
        | catalog refused => cases hrefused
        | forest refused => simpa [AttachmentError.toSessionError] using hrefused

/-- The tree refuses a line only for a node that an open block refers to and that is not part of it
any more. -/
theorem exists_lost_of_accept (sound : session.Sound) {line : String}
    (hrefused : (session.accept line).1 = .failed (.forest cause)) :
    ∃ handle, Place.node handle ∈ session.liveNesting.places ∧
      session.tree.inTree handle = false ∧ cause = .outsideTree handle := by
  unfold accept at hrefused
  split at hrefused
  · cases hrefused
  · dsimp only at hrefused
    split at hrefused
    · cases hrefused
    · have sound' : ({ session with
          scanner := (session.scanner.read session.settings.grammar line).2 } : Session ω).Sound :=
        ⟨sound.tree, sound.nesting⟩
      have lost := exists_lost_of_acceptStatements sound' hrefused
      exact lost

private theorem eq_failed_of_respond (settings : Settings ω) {verdict : Verdict} (world : ω)
    (hrefused : (respond settings verdict world).1 = .error (.forest cause)) :
    verdict = .failed (.forest cause) := by
  cases verdict with
  | accepted => cases hrefused
  | unknownCommand name =>
      simp only [respond] at hrefused
      cases hanswer : (settings.onUnknownCommand name world).1 <;>
        simp [hanswer, Except.mapError] at hrefused
  | unknownOption name =>
      simp only [respond] at hrefused
      cases hanswer : (settings.onUnknownOption name world).1 <;>
        simp [hanswer, Except.mapError] at hrefused
  | failed other =>
      simp only [respond, Except.error.injEq] at hrefused
      rw [hrefused]

private theorem fst_execute_ne_forest (session : Session ω) (world : ω) (cause : ForestError) :
    (session.execute world).1 ≠ .error (.forest cause) := by
  unfold execute
  split
  · nofun
  · split
    · nofun
    · nofun

/-! ## If the host leaves the links of the tree alone -/

/-- Whether a call leaves it to the session how the nodes of the tree are linked. -/
def Call.leavesLinks : Call ω → Bool
  | .request _ => true
  | .editTree _ => false
  | .changeNode _ _ => true
  | .newNode _ => true
  | .attachOption _ _ => true
  | .renameNode _ _ => true

/-- The nodes that the open blocks refer to are part of the tree, if it has a head. -/
structure Nested (session : Session ω) : Prop extends session.Sound where
  held : session.liveNesting.HeldBy session.tree

namespace Nested

theorem ofSettings (settings : Settings ω) : (ofSettings settings).Nested where
  toSound := sound_ofSettings settings
  held := Nesting.heldBy_empty _

theorem isEmpty_or_heldBy (nested : session.Nested) :
    session.tree.isEmpty = true ∨ session.nesting.HeldBy session.tree := by
  by_cases empty : session.tree.isEmpty = true
  · exact .inl empty
  · have held := nested.held
    rw [liveNesting, if_neg empty] at held
    exact .inr held

theorem discard (nested : session.Nested) : session.discard.Nested where
  tree := nested.tree
  nesting := Nesting.isProper_empty
  held := by
    rw [liveNesting_discard]
    exact Nesting.heldBy_empty _

theorem heldBy_of_anchor (nested : session.Nested) {anchor : Handle} {rooted : InvocationTree}
    (hanchor : Batch.anchor session.catalog session.settings.builder session.tree =
      (.ok anchor, rooted)) : session.liveNesting.HeldBy rooted :=
  fun handle here => Batch.inTree_of_anchor nested.tree hanchor (nested.held handle here)

/-- Planting keeps the nodes of the old blocks in the tree, and those of the new ones are there. -/
theorem plants (nested : session.Nested) {statements : List Statement} {last : Nesting}
    {grown : InvocationTree} (hplants : session.Plants statements last grown) :
    last.HeldBy grown := by
  obtain ⟨-, batch, anchor, rooted, -, hanchor, hplant⟩ := hplants
  obtain ⟨wg, hhead, -⟩ := Batch.anchor_spec nested.tree hanchor
  exact Batch.heldBy_of_plant wg (wg.inTree_head hhead) (nested.heldBy_of_anchor hanchor) hplant

theorem accept (nested : session.Nested) (line : String) : (session.accept line).2.Nested := by
  rcases accept_cases nested.toSound line with
    ⟨-, scanner, haccept⟩ | ⟨verdict, -, -, haccept⟩ | ⟨scanner, last, grown, -, hplants, haccept⟩
  · rw [haccept]
    exact ⟨⟨nested.tree, nested.nesting⟩, nested.held⟩
  · rw [haccept]
    exact nested.discard
  · rw [haccept]
    obtain ⟨wf, proper⟩ := nested.toSound.plants hplants
    refine ⟨⟨wf, proper⟩, ?_⟩
    unfold liveNesting
    split
    · exact Nesting.heldBy_empty _
    · exact nested.plants hplants

theorem execute (nested : session.Nested) (world : ω) : (session.execute world).2.1.Nested := by
  rcases execute_cases session world with ⟨hsame, -⟩ | ⟨hcleared, -⟩
  · rw [hsame]
    exact nested
  · rw [hcleared]
    exact ⟨⟨.clear session.tree, Nesting.isProper_empty⟩, Nesting.heldBy_empty _⟩

theorem serve (nested : session.Nested) (world : ω) (request : Request ω) :
    (session.serve world request).2.1.Nested :=
  serve_of_keeps (fun line nested => nested.accept line) (fun world nested => nested.execute world)
    (fun nested => nested.discard)
    (fun _ nested => ⟨⟨nested.tree, nested.nesting⟩, nested.held⟩) nested world request

/-- Another tree may take the place of the old one if it has the same head and all nodes of the tree
proper. -/
theorem exchangeTree (nested : session.Nested) {tree : InvocationTree} (wf : tree.WellFormed)
    (hhead : tree.head = session.tree.head)
    (kept : ∀ handle, session.tree.inTree handle = true → tree.inTree handle = true) :
    ({ session with tree } : Session ω).Nested := by
  refine ⟨⟨wf, nested.nesting⟩, ?_⟩
  have hlive : ({ session with tree } : Session ω).liveNesting = session.liveNesting := by
    simp [liveNesting, Forest.isEmpty, hhead]
  rw [hlive]
  exact fun handle here => kept handle (nested.held handle here)

theorem changeNode (nested : session.Nested) (handle : Handle)
    (change : Invocation → Invocation) :
    ({ session with tree := session.tree.modifyLabel handle change } : Session ω).Nested :=
  nested.exchangeTree (nested.tree.modifyLabel handle change) (by simp) fun other attached => by
    rw [nested.tree.inTree_modifyLabel, attached]

theorem edit (nested : session.Nested) (handle : Handle)
    (change : Invocation → Except CatalogError Unit × Invocation) :
    (session.edit handle change).2.Nested := by
  rw [Session.edit]
  split
  · exact nested
  · exact nested.changeNode handle _

theorem newNode (nested : session.Nested) (name : String) : (session.newNode name).2.Nested := by
  rw [Session.newNode]
  split
  · exact nested
  case h_2 invocation _ =>
    have wg := nested.tree.create invocation
    refine nested.exchangeTree wg rfl fun handle attached => ?_
    have ext := Forest.extends_create session.tree invocation
    have known := Forest.contains_of_inTree attached
    rw [ext.inTree_eq nested.tree.toLinked wg.toLinked rfl known, attached]

theorem perform (nested : session.Nested) (world : ω) {call : Call ω}
    (spared : call.leavesLinks = true) : (session.perform world call).2.1.Nested := by
  cases call with
  | request request => exact nested.serve world request
  | editTree edit => cases spared
  | changeNode handle change => exact nested.changeNode handle change
  | newNode name => exact nested.newNode name
  | attachOption handle option => exact nested.edit handle _
  | renameNode handle name => exact nested.edit handle _

theorem performAll (nested : session.Nested) {calls : List (Call ω × ω)}
    (spared : ∀ made ∈ calls, made.1.leavesLinks = true) :
    (session.performAll calls).Nested := by
  induction calls generalizing session with
  | nil => exact nested
  | cons made rest ih =>
      have hmade := spared made List.mem_cons_self
      exact ih (nested.perform made.2 hmade) fun other here =>
        spared other (List.mem_cons_of_mem _ here)

theorem fst_accept_ne_forest (nested : session.Nested) (line : String) (cause : ForestError) :
    (session.accept line).1 ≠ .failed (.forest cause) := by
  intro hrefused
  obtain ⟨handle, here, outside, -⟩ := exists_lost_of_accept nested.toSound hrefused
  rw [nested.held handle here] at outside
  cases outside

theorem fst_submit_ne_forest (nested : session.Nested) (line : String) (world : ω)
    (cause : ForestError) : (session.submit line world).1 ≠ .error (.forest cause) :=
  fun hrefused => nested.fst_accept_ne_forest line cause
    (eq_failed_of_respond _ world hrefused)

/-- The tree refuses no request, whatever the session has been through. -/
theorem fst_serve_ne_forest (nested : session.Nested) (world : ω) (request : Request ω)
    (cause : ForestError) : (session.serve world request).1 ≠ .error (.forest cause) := by
  cases request with
  | submit line => exact nested.fst_submit_ne_forest line world cause
  | enter line =>
      have hsubmit := nested.fst_submit_ne_forest line world cause
      rw [Session.serve, enter]
      generalize session.submit line world = submitted at hsubmit
      obtain ⟨answer, after, later⟩ := submitted
      cases answer with
      | error other => exact hsubmit
      | ok done =>
          dsimp only
          split
          · exact fst_execute_ne_forest after later cause
          · intro hrefused
            cases hrefused
  | execute => exact fst_execute_ne_forest session world cause
  | discard =>
      intro hrefused
      cases hrefused
  | changeCatalog change =>
      simp only [Session.serve]
      cases (session.catalog.apply change).1 <;> simp [Except.mapError]
  | replaceCatalog catalog =>
      intro hrefused
      cases hrefused

end Nested

/-- Attaching never looks for a node that is not there, and the tree never refuses a node of a
batch. Whatever the host does, to the tree as well, no open block waits for a node between two
lines, the head that a batch needs is made unless the builder refuses, and once the old nodes have
been found in place, every command of the batch finds its parent among the nodes made so far or in
the tree and is inserted below it. If the host leaves the links of the tree to the session, the tree
is empty or holds every node that the open blocks refer to, and no request ever fails because of the
tree. -/
theorem parents_at_hand (settings : Settings ω) :
    (∀ session, Reachable settings session →
      session.nesting.IsSettled ∧
      (∀ cause, (Batch.anchor session.catalog session.settings.builder session.tree).1 ≠
        .error (.forest cause)) ∧
      ∀ line, session.ParentsAtHand (session.statementsOf line)) ∧
    ∀ calls : List (Call ω × ω), (∀ made ∈ calls, made.1.leavesLinks = true) →
      let session := (ofSettings settings).performAll calls
      (session.tree.isEmpty = true ∨ session.nesting.HeldBy session.tree) ∧
      ∀ world request cause, (session.serve world request).1 ≠ .error (.forest cause) := by
  constructor
  · intro session reached
    have sound := reached.sound
    exact ⟨sound.nesting.settled, Batch.fst_anchor_ne_forest _ _ sound.tree,
      fun line => sound.parentsAtHand _⟩
  · intro calls spared session
    have nested : session.Nested := (Nested.ofSettings settings).performAll spared
    exact ⟨nested.isEmpty_or_heldBy, nested.fst_serve_ne_forest⟩

/-- A line has opened a block. -/
def opened : Session Unit :=
  (ofSettings bracketed).performAll [(.request (.submit "__NOP__("), ())]

/-- The same, but then the host has taken the command before the block out of the tree. -/
def cutOff : Session Unit := (opened.perform () (.editTree (.remove ⟨1, 0⟩))).2.1

/-- In the first session the command before the block is part of the tree and stays so. In the
second the block refers to a command that is gone, and yet no parent is out of bounds. -/
theorem parents_at_hand_of_block :
    opened.nesting.blocks = [.node ⟨1, 0⟩] ∧ opened.tree.inTree ⟨1, 0⟩ = true ∧
    (∀ world request cause, (opened.serve world request).1 ≠ .error (.forest cause)) ∧
    cutOff.nesting.blocks = [.node ⟨1, 0⟩] ∧ cutOff.tree.inTree ⟨1, 0⟩ = false ∧
    ∀ line, cutOff.ParentsAtHand (cutOff.statementsOf line) := by
  have hblocks : opened.nesting.blocks = [.node ⟨1, 0⟩] := by decide +kernel
  have spared : ∀ made ∈ [((.request (.submit "__NOP__(") : Call Unit), ())],
      made.1.leavesLinks = true := by decide
  have hopened := (parents_at_hand bracketed).2 _ spared
  obtain ⟨held, answered⟩ : (opened.tree.isEmpty = true ∨ opened.nesting.HeldBy opened.tree) ∧
    ∀ world request cause, (opened.serve world request).1 ≠ .error (.forest cause) := hopened
  have reached : Reachable bracketed cutOff := (Reachable.start.performAll _).perform () _
  refine ⟨hblocks, held.resolve_left (by decide +kernel) _ ?_, answered, by decide +kernel,
    by decide +kernel, ((parents_at_hand bracketed).1 cutOff reached).2.2⟩
  rw [Nesting.places, hblocks]
  exact List.mem_cons_self

end Session

end CommandEngine
