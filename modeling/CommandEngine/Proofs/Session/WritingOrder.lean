import CommandEngine.Proofs.Forest.Splicing
import CommandEngine.Proofs.Session.Atomicity
/-!
# Blocks never reorder commands

A tree runs in pre-order, and with blocks a command may be put below any block that is still open,
also below one opened lines ago. Nevertheless commands run in the order in which they were written,
as long as the host leaves the tree to the session.

The reason is where blocks can be open. `Nesting.OnSpine` says that the nodes of the open blocks,
innermost first, stand one above the other, and all of them above the node created last, which is
also the one remembered. Whatever is written next is put below one of them, so it is listed last,
and the blocks that remain open stand above it. Closing and discarding only forget blocks.
-/

namespace CommandEngine

namespace Nesting

variable {tree grown : InvocationTree} {head last parent new : Handle} {nesting : Nesting}

/-- The open blocks stand above the node created last, the inner ones below the outer ones, and that
node is the one remembered, if any is. -/
structure OnSpine (tree : InvocationTree) (head last : Handle) (nesting : Nesting) : Prop where
  /-- The nodes of the blocks form one line upwards from the last node. -/
  blocks : ∃ line : List Handle, nesting.blocks.map (Place.handle? head []) = line.map some ∧
    (last :: line).Pairwise fun inner outer => outer ∈ tree.lineage inner
  last_eq : ∀ place, nesting.last = some place → place = .node last

theorem onSpine_empty (tree : InvocationTree) (head last : Handle) : OnSpine tree head last {} where
  blocks := ⟨[], rfl, List.pairwise_singleton _ _⟩
  last_eq := nofun

namespace OnSpine

section Blocks

variable (spine : nesting.OnSpine tree head last) (wf : tree.Linked)
variable (above : head ∈ tree.lineage last)
include spine wf above

/-- The next command is put below a node above the last, and all open blocks stand above that. -/
theorem exists_current :
    ∃ (parent : Handle) (line : List Handle), nesting.current.handle? head [] = some parent ∧
      parent ∈ tree.lineage last ∧
      nesting.blocks.map (Place.handle? head []) = line.map some ∧
      (∀ outer ∈ line, outer ∈ tree.lineage parent) ∧
      line.Pairwise fun inner outer => outer ∈ tree.lineage inner := by
  obtain ⟨line, hline, chain⟩ := spine.blocks
  rw [List.pairwise_cons] at chain
  obtain ⟨blocks, remembered⟩ := nesting
  cases blocks with
  | nil =>
      have empty : line = [] := List.map_eq_nil_iff.1 hline.symm
      subst empty
      exact ⟨head, [], rfl, above, rfl, nofun, .nil⟩
  | cons place rest =>
      cases line with
      | nil => cases hline
      | cons inner outer =>
          refine ⟨inner, inner :: outer, ?_, chain.1 inner List.mem_cons_self, hline, ?_, chain.2⟩
          · rw [List.map_cons, List.map_cons, List.cons.injEq] at hline
            exact hline.1
          · intro other here
            rcases List.mem_cons.1 here with rfl | later
            · exact wf.mem_lineage_self other
            · exact (List.pairwise_cons.1 chain.2).1 other later

theorem enter : nesting.enter.OnSpine tree head last where
  blocks := by
    cases hlast : nesting.last with
    | some place =>
        obtain ⟨line, hline, chain⟩ := spine.blocks
        refine ⟨last :: line, ?_, List.pairwise_cons.2 ⟨?_, chain⟩⟩
        · rw [Nesting.enter, hlast, Option.getD_some, spine.last_eq place hlast, List.map_cons,
            hline]
          rfl
        · intro outer here
          rcases List.mem_cons.1 here with rfl | later
          · exact wf.mem_lineage_self outer
          · exact (List.pairwise_cons.1 chain).1 outer later
    | none =>
        obtain ⟨parent, line, hparent, hmem, hline, inside, chain⟩ := spine.exists_current wf above
        refine ⟨parent :: line, ?_, List.pairwise_cons.2 ⟨?_, List.pairwise_cons.2 ⟨inside, chain⟩⟩⟩
        · rw [Nesting.enter, hlast, Option.getD_none, List.map_cons, hline, hparent]
          rfl
        · intro outer here
          rcases List.mem_cons.1 here with rfl | later
          · exact hmem
          · exact wf.mem_lineage_trans (inside outer later) hmem
  last_eq := spine.last_eq

/-- A new node where the next command is put takes the place of the last. -/
theorem wroteAt (wg : grown.Linked) (ext : tree.Extends grown) (known : tree.contains last = true)
    (hparent : nesting.current.handle? head [] = some parent)
    (hnew : grown.parent? new = some parent) : (nesting.wroteAt new).OnSpine grown head new where
  blocks := by
    obtain ⟨found, line, hfound, hmem, hline, inside, chain⟩ := spine.exists_current wf above
    rw [hparent, Option.some.injEq] at hfound
    subst hfound
    have hknown := wf.contains_of_mem_isLineage (wf.isLineage_lineage last) known
    have old {node : Handle} (here : node ∈ tree.lineage last) :
        grown.lineage node = tree.lineage node := ext.lineage_eq wf wg (hknown node here)
    refine ⟨line, hline, List.pairwise_cons.2 ⟨?_, ?_⟩⟩
    · intro outer here
      rw [wg.lineage_of_parent hnew, old hmem]
      exact List.mem_cons_of_mem _ (inside outer here)
    · apply chain.imp_of_mem
      intro inner outer here _ houter
      rw [old (wf.mem_lineage_trans (inside inner here) hmem)]
      exact houter
  last_eq place hplace := (Option.some.inj hplace).symm

end Blocks

theorem leave (spine : nesting.OnSpine tree head last) : nesting.leave.OnSpine tree head last where
  blocks := by
    obtain ⟨line, hline, chain⟩ := spine.blocks
    refine ⟨line.tail, ?_, chain.sublist ((List.tail_sublist line).cons_cons last)⟩
    rw [Nesting.leave, List.map_tail, hline, List.map_tail]
  last_eq := spine.last_eq

end OnSpine

end Nesting

/-- Planting appends to the listing, and leaves the open blocks above what it appended last. -/
theorem Batch.inOrder_of_plant {tree grown : InvocationTree} {head last : Handle}
    {batch : List Batch.Item} {nesting final : Nesting} (ordered : tree.InOrder head last)
    (spine : nesting.OnSpine tree head last)
    (hplant : Batch.plant head batch nesting tree = .ok (final, grown)) :
    ∃ last', grown.InOrder head last' ∧ final.OnSpine grown head last' := by
  have rooted := ordered.wellFormed.inTree_head ordered.head_eq
  refine Batch.plant_induction
    (P := fun nesting tree => ∃ last, tree.InOrder head last ∧ nesting.OnSpine tree head last)
    ?_ ?_ ?_ ordered.wellFormed rooted ⟨last, ordered, spine⟩ hplant
  · rintro nesting tree ⟨last, ordered, spine⟩
    have above := ordered.head_mem_lineage ordered.contains_last
    exact ⟨last, ordered, spine.enter ordered.wellFormed.toLinked above⟩
  · rintro nesting tree ⟨last, ordered, spine⟩
    exact ⟨last, ordered, spine.leave⟩
  · rintro nesting tree parent invocation wf hparent - ⟨last, ordered, spine⟩
    have above := ordered.head_mem_lineage ordered.contains_last
    obtain ⟨found, -, hfound, hmem, -⟩ := spine.exists_current wf.toLinked above
    rw [hparent, Option.some.injEq] at hfound
    subst hfound
    have known := ordered.contains_of_above hmem
    have ordered' := ordered.sprout hmem invocation
    have spine' := spine.wroteAt wf.toLinked above ordered'.wellFormed.toLinked
      (Forest.extends_sprout known invocation) ordered.contains_last hparent
      (Forest.parent?_sprout_nextHandle known invocation)
    exact ⟨tree.nextHandle, ordered', spine'⟩

namespace Batch

variable {ω : Type} {catalog : Catalog ω} {builder : Builder ω}

/-- The invocation that the words of a command are built into, if they can be. -/
def built? (catalog : Catalog ω) (builder : Builder ω) : List String → Option Invocation
  | [] => none
  | name :: rest => (build catalog builder name rest).toOption

theorem filterMap_built? {commands : List (List String)} {made : List Invocation}
    (hmade : List.Forall₂ (Builds catalog builder) commands made) :
    commands.filterMap (built? catalog builder) = made := by
  induction hmade with
  | nil => rfl
  | cons hbuilds _ ih =>
      obtain ⟨name, rest, rfl, hbuild⟩ := hbuilds
      rw [List.filterMap_cons, ih, built?, hbuild]
      rfl

end Batch

namespace Session

variable {ω : Type} {session : Session ω} {past : List Invocation}

/-! ## What has been written -/

/-- The invocations that the commands of a line are built into, if the line is accepted. -/
def written (session : Session ω) (line : String) : List Invocation :=
  if (session.accept line).1 = .accepted then
    ((session.statementsOf line).filterMap Statement.words?).filterMap
      (Batch.built? session.catalog session.settings.builder)
  else []

/-- The invocations that a request writes. -/
def writtenBy (session : Session ω) : Request ω → List Invocation
  | .submit line => session.written line
  | .enter line => session.written line
  | .execute => []
  | .discard => []
  | .changeCatalog _ => []
  | .replaceCatalog _ => []

/-- The invocations written by a run of requests after some others, in the order of writing. Those
written before the tree last ran are forgotten. -/
def journal (session : Session ω) (past : List Invocation) :
    List (Request ω × ω) → List Invocation
  | [] => past
  | made :: rest =>
    (session.serve made.2 made.1).2.1.journal
      (if session.ran made.2 made.1 then [] else past ++ session.writtenBy made.1) rest

/-- Either nothing has been written, or the tree lists a head and then what has been written, and
the open blocks stand above the command written last. -/
structure InOrder (session : Session ω) (past : List Invocation) : Prop where
  sound : session.Sound
  ordered : (session.tree.head = none ∧ session.tree.labels = [] ∧ past = []) ∨
    ∃ head last idle, session.tree.InOrder head last ∧
      session.nesting.OnSpine session.tree head last ∧ session.tree.labels = idle :: past

namespace InOrder

theorem ofSettings (settings : Settings ω) : (ofSettings settings).InOrder [] where
  sound := sound_ofSettings settings
  ordered := .inl ⟨rfl, rfl, rfl⟩

/-- What is not about the tree and only closes blocks does not matter. -/
theorem discard (inOrder : session.InOrder past) : session.discard.InOrder past where
  sound := inOrder.sound.discard
  ordered := by
    rcases inOrder.ordered with hnone | ⟨head, last, idle, ordered, -, hlabels⟩
    · exact .inl hnone
    · exact .inr ⟨head, last, idle, ordered, Nesting.onSpine_empty _ _ _, hlabels⟩

/-- Planting a batch lists its commands behind those written before. -/
theorem plants {statements : List Statement} {final : Nesting} {grown : InvocationTree}
    (inOrder : session.InOrder past) (hplants : session.Plants statements final grown) :
    ∃ head last, grown.InOrder head last ∧ final.OnSpine grown head last := by
  obtain ⟨-, batch, anchor, rooted, -, hanchor, hplant⟩ := hplants
  obtain ⟨wg, hhead, -, -, hsame, -, heads, hheads, hlabels, -⟩ :=
    Batch.anchor_spec inOrder.sound.tree hanchor
  rcases inOrder.ordered with ⟨hnone, hempty, -⟩ | ⟨head, last, idle, ordered, spine, -⟩
  · rw [Batch.Heads, hnone] at hheads
    obtain ⟨idle, -, rfl⟩ := hheads
    have hsize : rooted.nodes.size = 1 := by
      rw [← Forest.length_labels, hlabels, hempty]
      rfl
    have hlive : session.liveNesting = {} := by simp [liveNesting, Forest.isEmpty, hnone]
    rw [hlive] at hplant
    obtain ⟨last, result⟩ := Batch.inOrder_of_plant (wg.inOrder_of_size_eq_one hhead hsize)
      (Nesting.onSpine_empty _ _ _) hplant
    exact ⟨anchor, last, result⟩
  · have hlive : session.liveNesting = session.nesting := by
      simp [liveNesting, Forest.isEmpty, ordered.head_eq]
    rw [hsame head ordered.head_eq] at hplant hhead
    rw [ordered.head_eq, Option.some.injEq] at hhead
    subst hhead
    rw [hlive] at hplant
    obtain ⟨last, result⟩ := Batch.inOrder_of_plant ordered spine hplant
    exact ⟨head, last, result⟩

theorem accept (inOrder : session.InOrder past) (line : String) :
    (session.accept line).2.InOrder (past ++ session.written line) := by
  have sound := inOrder.sound.accept line
  rcases accept_cases inOrder.sound line with ⟨hnone, scanner, haccept⟩ |
    ⟨verdict, hverdict, -, haccept⟩ | ⟨scanner, final, grown, nonempty, hplants, haccept⟩
  · have hwritten : session.written line = [] := by simp [written, hnone]
    rw [haccept] at sound ⊢
    rw [hwritten, List.append_nil]
    exact ⟨sound, inOrder.ordered⟩
  · have hwritten : session.written line = [] := by simp [written, haccept, hverdict]
    rw [haccept, hwritten, List.append_nil]
    exact inOrder.discard
  · obtain ⟨head, last, ordered, spine⟩ := inOrder.plants hplants
    have takes := hplants.takes inOrder.sound (session.command_nil_not_mem_statementsOf line)
      nonempty
    obtain ⟨heads, made, hheads, hmade, hlabels, -⟩ := takes.labels
    have hwritten : session.written line = made := by
      rw [written, haccept, if_pos rfl, Batch.filterMap_built? hmade]
    rw [if_neg nonempty, Batch.Heads] at hheads
    rw [haccept] at sound ⊢
    rw [hwritten]
    refine ⟨sound, .inr ?_⟩
    rcases inOrder.ordered with ⟨hnone, hempty, rfl⟩ | ⟨head', last', idle, ordered', -, hold⟩
    · rw [hnone] at hheads
      obtain ⟨idle, -, rfl⟩ := hheads
      rw [hempty] at hlabels
      exact ⟨head, last, idle, ordered, spine, hlabels⟩
    · rw [ordered'.head_eq] at hheads
      subst hheads
      rw [hold] at hlabels
      exact ⟨head, last, idle, ordered, spine, hlabels⟩

/-- What has been written is forgotten if it ran; without a tree there was nothing to run. -/
theorem execute (inOrder : session.InOrder past) (world : ω) :
    (session.execute world).2.1.InOrder
      (if (session.execute world).1.isOk then [] else past) := by
  rcases execute_cases session world with ⟨hsame, idle⟩ | ⟨hcleared, succeeded⟩
  · rw [hsame]
    split
    case isFalse => exact inOrder
    case isTrue succeeded =>
      rcases inOrder.ordered with ⟨-, -, rfl⟩ | ⟨head, last, _, ordered, -⟩
      · exact inOrder
      · rw [ordered.head_eq] at idle
        cases idle succeeded
  · have sound := inOrder.sound.execute world
    rw [if_pos succeeded]
    rw [hcleared] at sound ⊢
    exact ⟨sound, .inl ⟨rfl, rfl, rfl⟩⟩

/-- Every request keeps the order, and the journal with it. -/
theorem serve (inOrder : session.InOrder past) (world : ω) (request : Request ω) :
    (session.serve world request).2.1.InOrder
      (if session.ran world request then [] else past ++ session.writtenBy request) := by
  cases request with
  | submit line => exact inOrder.accept line
  | enter line =>
      rcases enter_cases session line world with ⟨hread, hran⟩ | ⟨later, hread, hran⟩
      · rw [Session.serve, hread, hran]
        exact inOrder.accept line
      · rw [Session.serve, hread, hran]
        exact (inOrder.accept line).execute later
  | execute =>
      rw [writtenBy, List.append_nil]
      exact inOrder.execute world
  | discard =>
      rw [writtenBy, List.append_nil]
      exact inOrder.discard
  | changeCatalog change =>
      rw [writtenBy, List.append_nil]
      exact ⟨inOrder.sound.serve world (.changeCatalog change), inOrder.ordered⟩
  | replaceCatalog catalog =>
      rw [writtenBy, List.append_nil]
      exact ⟨inOrder.sound.serve world (.replaceCatalog catalog), inOrder.ordered⟩

theorem serveAll (inOrder : session.InOrder past) (requests : List (Request ω × ω)) :
    (session.serveAll requests).InOrder (session.journal past requests) := by
  induction requests generalizing session past with
  | nil => exact inOrder
  | cons made rest ih => exact ih (inOrder.serve made.2 made.1)

end InOrder

/-- However blocks are nested, and whatever lines are refused, the tree of a session that the host
leaves alone lists all of its nodes, once each, in the order of their creation: the head, and then
the commands as they were written. -/
theorem walk_serveAll (settings : Settings ω) (requests : List (Request ω × ω)) :
    let session := (ofSettings settings).serveAll requests
    session.tree.walk = session.tree.handles ∧
    session.tree.walk.head? = session.tree.head ∧
    session.tree.walk.tail.map session.tree.label? =
      ((ofSettings settings).journal [] requests).map some := by
  intro session
  have inOrder := (InOrder.ofSettings settings).serveAll requests
  have hlabels := session.tree.map_label?_handles
  rcases inOrder.ordered with ⟨hnone, hempty, hpast⟩ | ⟨head, last, idle, ordered, -, hold⟩
  · have hhandles : session.tree.handles = [] := by
      rw [hempty] at hlabels
      exact List.map_eq_nil_iff.1 hlabels
    have hwalk : session.tree.walk = [] := by
      rw [Forest.walk, hnone]
    rw [hwalk, hhandles, hpast]
    exact ⟨rfl, hnone.symm, rfl⟩
  · rw [hold] at hlabels
    refine ⟨ordered.walk_eq, ordered.head?_walk, ?_⟩
    rw [ordered.walk_eq, List.map_tail, hlabels]
    rfl

end Session

end CommandEngine
