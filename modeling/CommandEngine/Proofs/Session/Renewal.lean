import CommandEngine.Demo.Conversation
import CommandEngine.Proofs.Scanner.Carrying
import CommandEngine.Proofs.Session.Parents
/-!
# Every batch starts afresh

A program that processes lines runs the tree as soon as the input is complete and drops it when
anything fails. Whenever the input is complete in such a run, nothing of the lines before is left
that could matter: the session answers whatever comes as one would that has read nothing, up to the
epoch of its handles (`observeAll_renewed`).

The invariant is `Session.Tidy`. Its part `held` says that the nodes of the open blocks are part of
the tree, so the tree never refuses a batch, and what is refused is refused for reasons in which no
handle takes part (`Session.refusal?`). One thing does survive: the nesting may still remember the
command written last after its tree has gone. It does not matter, because a tree without a head
makes the session forget it, which is why `Session.Later` leaves it out.
-/

namespace CommandEngine

namespace Session

variable {ω : Type} {session older newer : Session ω} {statements : List Statement}
variable {d : UInt64}

/-- Read a line, run the tree if the input is complete, and drop the tree if any of this fails. -/
def process (session : Session ω) (line : String) (world : ω) :
    Except SessionError Unit × Session ω × ω :=
  match session.enter line world with
  | (.ok _, session, world) => (.ok (), session, world)
  | (.error cause, session, world) =>
    (.error cause, { session with tree := session.tree.clear }, world)

/-- The session after several lines, each in a world of its own. -/
def processAll (session : Session ω) (lines : List (String × ω)) : Session ω :=
  lines.foldl (fun session entered => (session.process entered.1 entered.2).2.1) session

/-- What can be seen of a processed line. -/
structure Observation (ω : Type) where
  answer : Except SessionError Unit
  world : ω
  tree : InvocationTree
  complete : Bool
  depth : Nat

/-- The observation with its nodes in a later epoch. -/
def Observation.later (d : UInt64) (seen : Observation ω) : Observation ω :=
  { seen with tree := seen.tree.later d }

/-- What is seen of several lines, each processed in a world of its own. -/
def observeAll (session : Session ω) : List (String × ω) → List (Observation ω)
  | [] => []
  | (line, world) :: rest =>
    let (answer, session, world) := session.process line world
    ⟨answer, world, session.tree, session.isComplete, session.nesting.depth⟩ ::
      session.observeAll rest

theorem isComplete_iff : session.isComplete = true ↔
    session.scanner.pending = [] ∧ session.nesting.blocks = [] := by
  simp [isComplete, Scanner.isComplete, Nesting.isOpen]

/-- Why a batch is refused whatever blocks are open: a command that is unknown or cannot be built,
or a head that cannot be made. -/
def refusal? (session : Session ω) (statements : List Statement) : Option Verdict :=
  match Batch.firstUnknown? session.catalog statements with
  | some name => some (.unknownCommand name)
  | none =>
    match Batch.items session.catalog session.settings.builder statements with
    | .error cause => some cause.verdict
    | .ok _ =>
      match (Batch.anchor session.catalog session.settings.builder session.tree).1 with
      | .error cause => some (.failed cause.toSessionError)
      | .ok _ => none

/-- A processed line leaves what reading it leaves, and then the tree is empty if the input is
complete, or the tree has been cleared while no block was open. -/
theorem process_cases (sound : session.Sound) (line : String) (world : ω) :
    ((session.process line world).2.1 = (session.accept line).2 ∧
      ((session.accept line).2.isComplete = true → (session.accept line).2.tree.head = none)) ∨
    ∃ nesting : Nesting, nesting.blocks = [] ∧ nesting.IsProper ∧
      (session.process line world).2.1 =
        { (session.accept line).2 with tree := (session.accept line).2.tree.clear, nesting } := by
  have sound' := sound.accept line
  have hdiscarded : (session.accept line).1 ≠ .accepted →
      (session.accept line).2.nesting.blocks = [] := by
    intro hverdict
    rcases accept_cases sound line with ⟨-, scanner, haccept⟩ | ⟨verdict, -, -, haccept⟩ |
      ⟨scanner, last, grown, -, -, haccept⟩
    · exact absurd (congrArg Prod.fst haccept) hverdict
    · rw [haccept]
      rfl
    · exact absurd (congrArg Prod.fst haccept) hverdict
  rcases hrespond : respond (session.accept line).2.settings (session.accept line).1 world with
    ⟨answer, after⟩
  have hsubmit : session.submit line world = (answer, (session.accept line).2, after) := by
    simp [submit, hrespond]
  cases answer with
  | error cause =>
      have hverdict : (session.accept line).1 ≠ .accepted := by
        intro accepted
        rw [accepted] at hrespond
        cases hrespond
      exact .inr ⟨_, hdiscarded hverdict, sound'.nesting, by simp [process, enter, hsubmit]⟩
  | ok done =>
      -- From here on only the session that reading left matters, not the line.
      generalize (session.accept line).2 = read at sound' hsubmit ⊢
      by_cases complete : read.isComplete = true
      · cases hhead : read.tree.head with
        | none =>
            exact .inl ⟨by simp [process, enter, hsubmit, complete, execute, hhead], fun _ => rfl⟩
        | some head =>
            right
            rcases hrun : read.tree.execute read.catalog read.quotes head after with ⟨ran, last⟩
            cases ran with
            | error cause =>
                exact ⟨read.nesting, (isComplete_iff.1 complete).2, sound'.nesting,
                  by simp [process, enter, hsubmit, complete, execute, hhead, hrun]⟩
            | ok ran =>
                exact ⟨{}, rfl, Nesting.isProper_empty,
                  by simp [process, enter, hsubmit, complete, execute, hhead, hrun]⟩
      · exact .inl ⟨by simp [process, enter, hsubmit, complete], fun now => absurd now complete⟩

/-- A batch is planted in one way only. -/
theorem Plants.unique {last last' : Nesting} {grown grown' : InvocationTree}
    (hplants : session.Plants statements last grown)
    (hplants' : session.Plants statements last' grown') : last = last' ∧ grown = grown' := by
  obtain ⟨-, batch, anchor, rooted, hitems, hanchor, hplant⟩ := hplants
  obtain ⟨-, batch', anchor', rooted', hitems', hanchor', hplant'⟩ := hplants'
  rw [hitems, Except.ok.injEq] at hitems'
  rw [hanchor, Prod.mk.injEq, Except.ok.injEq] at hanchor'
  obtain ⟨rfl, rfl⟩ := hanchor'
  subst hitems'
  rw [hplant, Except.ok.injEq, Prod.mk.injEq] at hplant'
  exact hplant'

/-- What processing lines keeps. -/
structure Tidy (session : Session ω) : Prop extends session.Sound where
  scanner : session.scanner.HasOpenWord
  held : session.liveNesting.HeldBy session.tree
  untouched : session.tree.head = none → session.tree.nodes = #[] ∧ session.nesting.blocks = []

namespace Tidy

theorem nested (tidy : session.Tidy) : session.Nested where
  toSound := tidy.toSound
  held := tidy.held

/-- A batch is refused for a reason in which no handle takes part, or it is planted. -/
theorem acceptStatements_cases (tidy : session.Tidy) (statements : List Statement) :
    (∃ verdict, session.refusal? statements = some verdict ∧
      session.acceptStatements statements = (verdict, session.discard)) ∨
    session.refusal? statements = none ∧
      ∃ last grown, session.Plants statements last grown ∧ last.HeldBy grown ∧
        grown.head ≠ none ∧
        session.acceptStatements statements =
          (.accepted, { session with tree := grown, nesting := last }) := by
  unfold refusal?
  cases hknown : Batch.firstUnknown? session.catalog statements with
  | some name =>
      exact .inl ⟨_, rfl, by simp [acceptStatements, Batch.stage, hknown, StagingError.verdict]⟩
  | none =>
      cases hitems : Batch.items session.catalog session.settings.builder statements with
      | error cause =>
          have hstage := Batch.stageFrom_of_items_eq_error hitems session.liveNesting []
          rcases hresult : Batch.stageFrom session.catalog session.settings.builder statements
            session.liveNesting [] with ⟨result, nesting⟩
          rw [hresult] at hstage
          cases hstage
          exact .inl ⟨_, rfl, by simp [acceptStatements, Batch.stage, hknown, hresult]⟩
      | ok batch =>
          have hstage := Batch.stageFrom_of_items_eq_ok hitems session.liveNesting []
          rcases hanchor : Batch.anchor session.catalog session.settings.builder session.tree with
            ⟨result, rooted⟩
          cases result with
          | error cause =>
              refine .inl ⟨_, rfl, ?_⟩
              have hlost : Batch.firstLost? session.tree
                  (Batch.stagedOf batch session.liveNesting 0).1 = none :=
                Batch.firstLost?_eq_none_iff.2 fun staged here handle hhandle =>
                  tidy.held handle (Batch.mem_places_of_required here hhandle)
              have hsame := Batch.snd_anchor_of_error tidy.tree hanchor
              simp [acceptStatements, Batch.stage, hknown, hstage, Batch.attach, hlost, hanchor,
                hsame, discard]
          | ok anchor =>
              obtain ⟨wg, hhead, -⟩ := Batch.anchor_spec tidy.tree hanchor
              have hrooted := wg.inTree_head hhead
              have held := tidy.nested.heldBy_of_anchor hanchor
              obtain ⟨last, grown, hplant⟩ := Batch.exists_plant_of_heldBy wg hrooted
                tidy.toSound.liveNesting.settled held batch
              have hplants : session.Plants statements last grown :=
                ⟨hknown, batch, anchor, rooted, hitems, hanchor, hplant⟩
              obtain ⟨-, -, hgrown, -⟩ := Batch.plant_spec wg hrooted hplant
              refine .inr ⟨rfl, last, grown, hplants, tidy.nested.plants hplants,
                by simp [hgrown, hhead], ?_⟩
              exact acceptStatements_of_plants tidy.toSound hplants

theorem discard (tidy : session.Tidy) : session.discard.Tidy where
  tree := tidy.tree
  nesting := Nesting.isProper_empty
  scanner := Scanner.hasOpenWord_fresh
  held := by
    rw [liveNesting_discard]
    exact Nesting.heldBy_empty _
  untouched hhead := ⟨(tidy.untouched hhead).1, rfl⟩

theorem read (tidy : session.Tidy) {scanner : Scanner} (held : scanner.HasOpenWord) :
    ({ session with scanner } : Session ω).Tidy where
  tree := tidy.tree
  nesting := tidy.nesting
  scanner := held
  held := tidy.held
  untouched := tidy.untouched

theorem acceptStatements (tidy : session.Tidy) (statements : List Statement) :
    (session.acceptStatements statements).2.Tidy := by
  rcases tidy.acceptStatements_cases statements with ⟨verdict, -, haccept⟩ |
    ⟨-, last, grown, hplants, held, hhead, haccept⟩
  · rw [haccept]
    exact tidy.discard
  · rw [haccept]
    obtain ⟨wf, proper⟩ := tidy.toSound.plants hplants
    refine { tree := wf, nesting := proper, scanner := tidy.scanner, held := ?_, untouched := ?_ }
    · have hlive : ({ session with tree := grown, nesting := last } : Session ω).liveNesting =
          last := by simp [liveNesting, Forest.isEmpty, hhead]
      rw [hlive]
      exact held
    · exact fun hnone => absurd hnone hhead

theorem accept (tidy : session.Tidy) (line : String) : (session.accept line).2.Tidy := by
  have held := tidy.scanner.read session.settings.grammar line
  unfold Session.accept
  split
  · exact tidy
  · dsimp only
    split
    · exact tidy.read held
    · exact (tidy.read held).acceptStatements _

theorem clear (tidy : session.Tidy) {nesting : Nesting} (hblocks : nesting.blocks = [])
    (proper : nesting.IsProper) :
    ({ session with tree := session.tree.clear, nesting } : Session ω).Tidy where
  tree := .clear session.tree
  nesting := proper
  scanner := tidy.scanner
  held := Nesting.heldBy_empty _
  untouched _ := ⟨rfl, hblocks⟩

theorem process (tidy : session.Tidy) (line : String) (world : ω) :
    (session.process line world).2.1.Tidy ∧
      ((session.process line world).2.1.isComplete = true →
        (session.process line world).2.1.tree.head = none) := by
  have tidy' := tidy.accept line
  rcases process_cases tidy.toSound line world with ⟨hsame, hempty⟩ |
    ⟨nesting, hblocks, proper, hcleared⟩
  · rw [hsame]
    exact ⟨tidy', hempty⟩
  · rw [hcleared]
    exact ⟨tidy'.clear hblocks proper, fun _ => rfl⟩

theorem processAll (tidy : session.Tidy)
    (hempty : session.isComplete = true → session.tree.head = none)
    (lines : List (String × ω)) :
    (session.processAll lines).Tidy ∧
      ((session.processAll lines).isComplete = true →
        (session.processAll lines).tree.head = none) := by
  induction lines generalizing session with
  | nil => exact ⟨tidy, hempty⟩
  | cons entered rest ih =>
      obtain ⟨tidy', hempty'⟩ := tidy.process entered.1 entered.2
      exact ih tidy' hempty'

end Tidy

theorem tidy_fresh (settings : Settings ω) (catalog : Catalog ω) :
    ({ settings, catalog } : Session ω).Tidy where
  tree := Forest.WellFormed.empty
  nesting := Nesting.isProper_empty
  scanner := Scanner.hasOpenWord_fresh
  held := Nesting.heldBy_empty _
  untouched _ := ⟨rfl, rfl⟩

/-! ## Two runs -/

namespace Later

theorem refusal?_eq (later : Later d older newer) (sound : older.Sound) (sound' : newer.Sound)
    (statements : List Statement) : newer.refusal? statements = older.refusal? statements := by
  have wf' : (older.tree.later d).WellFormed := later.tree ▸ sound'.tree
  rw [refusal?, refusal?, later.settings, later.catalog, later.tree,
    Batch.anchor_later older.catalog older.settings.builder sound.tree wf']
  cases (Batch.anchor older.catalog older.settings.builder older.tree).1 <;> rfl

theorem acceptStatements (later : Later d older newer) (tidy : older.Tidy) (tidy' : newer.Tidy)
    (statements : List Statement) :
    (newer.acceptStatements statements).1 = (older.acceptStatements statements).1 ∧
      Later d (older.acceptStatements statements).2 (newer.acceptStatements statements).2 := by
  have hrefusal := later.refusal?_eq tidy.toSound tidy'.toSound statements
  rcases tidy.acceptStatements_cases statements with ⟨verdict, hrefused, haccept⟩ |
    ⟨hrefused, last, grown, hplants, -, hhead, haccept⟩
  · rw [hrefused] at hrefusal
    rcases tidy'.acceptStatements_cases statements with ⟨verdict', hrefused', haccept'⟩ |
      ⟨hrefused', -⟩
    · rw [hrefused', Option.some.injEq] at hrefusal
      rw [haccept, haccept', hrefusal]
      exact ⟨rfl, later.discard⟩
    · rw [hrefused'] at hrefusal
      cases hrefusal
  · rw [hrefused] at hrefusal
    rcases tidy'.acceptStatements_cases statements with ⟨verdict', hrefused', -⟩ |
      ⟨-, last', grown', hplants', -, hhead', haccept'⟩
    · rw [hrefused'] at hrefusal
      cases hrefusal
    · -- The newer session plants the batch, and there is only one way to do so.
      obtain ⟨hlast, hgrown⟩ := hplants'.unique (later.plants tidy.toSound tidy'.toSound hplants)
      rw [haccept, haccept', hlast, hgrown]
      refine ⟨rfl, later.settings, later.catalog, later.scanner, rfl, rfl, ?_⟩
      simp [liveNesting, Forest.isEmpty, hhead, Forest.later]

theorem read (later : Later d older newer) (scanner : Scanner) :
    Later d { older with scanner } { newer with scanner } where
  settings := later.settings
  catalog := later.catalog
  scanner := rfl
  tree := later.tree
  blocks := later.blocks
  live := later.live

theorem accept (later : Later d older newer) (tidy : older.Tidy) (tidy' : newer.Tidy)
    (line : String) :
    (newer.accept line).1 = (older.accept line).1 ∧
      Later d (older.accept line).2 (newer.accept line).2 := by
  have hread : newer.scanner.read newer.settings.grammar line =
      older.scanner.read older.settings.grammar line := by
    rw [later.scanner, later.settings]
  have held := tidy.scanner.read older.settings.grammar line
  have held' := tidy'.scanner.read newer.settings.grammar line
  rw [hread] at held'
  rw [Session.accept, Session.accept, hread]
  split
  · exact ⟨rfl, later⟩
  · dsimp only
    split
    · exact ⟨rfl, later.read _⟩
    · exact (later.read _).acceptStatements (tidy.read held) (tidy'.read held') _

theorem enter (later : Later d older newer) (tidy : older.Tidy) (tidy' : newer.Tidy)
    (line : String) (world : ω) :
    (newer.enter line world).1 = (older.enter line world).1 ∧
      Later d (older.enter line world).2.1 (newer.enter line world).2.1 ∧
      (newer.enter line world).2.2 = (older.enter line world).2.2 := by
  obtain ⟨hverdict, read⟩ := later.accept tidy tidy' line
  rw [Session.enter, Session.enter, submit, submit]
  rcases hold : older.accept line with ⟨verdict, older'⟩
  rcases hnew : newer.accept line with ⟨verdict', newer'⟩
  rw [hold, hnew] at hverdict read
  dsimp only at hverdict read ⊢
  rw [hverdict, read.settings]
  rcases respond older'.settings verdict world with ⟨answer, after⟩
  cases answer with
  | error cause => exact ⟨rfl, read, rfl⟩
  | ok done =>
      dsimp only
      rw [read.isComplete_eq]
      split
      · exact read.execute after
      · exact ⟨rfl, read, rfl⟩

/-- Both process a line alike. -/
theorem process (later : Later d older newer) (tidy : older.Tidy) (tidy' : newer.Tidy)
    (line : String) (world : ω) :
    (newer.process line world).1 = (older.process line world).1 ∧
      Later d (older.process line world).2.1 (newer.process line world).2.1 ∧
      (newer.process line world).2.2 = (older.process line world).2.2 := by
  obtain ⟨hanswer, entered, hworld⟩ := later.enter tidy tidy' line world
  rw [Session.process, Session.process]
  rcases hold : older.enter line world with ⟨answer, older', after⟩
  rcases hnew : newer.enter line world with ⟨answer', newer', after'⟩
  rw [hold, hnew] at hanswer entered hworld
  dsimp only at hanswer entered hworld
  rw [hanswer, hworld]
  cases answer with
  | error cause => exact ⟨rfl, entered.clear entered.blocks, rfl⟩
  | ok done => exact ⟨rfl, entered, rfl⟩

/-- Both show the same. -/
theorem observeAll_eq (later : Later d older newer) (tidy : older.Tidy) (tidy' : newer.Tidy)
    (lines : List (String × ω)) :
    newer.observeAll lines = (older.observeAll lines).map (Observation.later d) := by
  induction lines generalizing older newer with
  | nil => rfl
  | cons entered rest ih =>
      obtain ⟨line, world⟩ := entered
      obtain ⟨hanswer, later', hworld⟩ := later.process tidy tidy' line world
      have hrest := ih later' (tidy.process line world).1 (tidy'.process line world).1
      rw [observeAll, observeAll, List.map_cons, List.cons.injEq]
      refine ⟨?_, hrest⟩
      rw [hanswer, hworld, later'.tree, later'.isComplete_eq, later'.depth_eq]
      rfl

end Later

/-- A session whose input is complete and whose tree has no head is a new one in a later epoch. -/
theorem Tidy.later_of_isComplete (tidy : session.Tidy) (complete : session.isComplete = true)
    (hhead : session.tree.head = none) :
    session.tree = { epoch := session.tree.epoch } ∧
      Later session.tree.epoch { settings := session.settings, catalog := session.catalog }
        session := by
  obtain ⟨hpending, hblocks⟩ := isComplete_iff.1 complete
  have htree : session.tree = { epoch := session.tree.epoch } := by
    obtain ⟨hnodes, -⟩ := tidy.untouched hhead
    have hsize := tidy.tree.size_eq_zero hhead
    rcases htree : session.tree with ⟨nodes, head, size, epoch⟩
    rw [htree] at hnodes hhead hsize
    dsimp only at hnodes hhead hsize
    rw [hnodes, hhead, hsize]
  refine ⟨htree, rfl, rfl, tidy.scanner.eq_fresh hpending, ?_, hblocks, ?_⟩
  · rw [htree]
    simp [Forest.later]
  · simp [liveNesting, Forest.isEmpty, hhead, Nesting.later]

private theorem settings_accept (sound : session.Sound) (line : String) :
    (session.accept line).2.settings = session.settings ∧
      (session.accept line).2.catalog = session.catalog := by
  rcases accept_cases sound line with ⟨-, scanner, haccept⟩ | ⟨verdict, -, -, haccept⟩ |
    ⟨scanner, last, grown, -, -, haccept⟩
  · rw [haccept]
    exact ⟨rfl, rfl⟩
  · rw [haccept]
    exact ⟨rfl, rfl⟩
  · rw [haccept]
    exact ⟨rfl, rfl⟩

private theorem settings_process (sound : session.Sound) (line : String) (world : ω) :
    (session.process line world).2.1.settings = session.settings ∧
      (session.process line world).2.1.catalog = session.catalog := by
  rcases process_cases sound line world with ⟨hsame, -⟩ | ⟨nesting, -, -, hcleared⟩
  · rw [hsame]
    exact settings_accept sound line
  · rw [hcleared]
    exact settings_accept sound line

theorem Tidy.settings_processAll (tidy : session.Tidy) (lines : List (String × ω)) :
    (session.processAll lines).settings = session.settings ∧
      (session.processAll lines).catalog = session.catalog := by
  induction lines generalizing session with
  | nil => exact ⟨rfl, rfl⟩
  | cons entered rest ih =>
      obtain ⟨hsettings, hcatalog⟩ := ih (tidy.process entered.1 entered.2).1
      obtain ⟨hsettings', hcatalog'⟩ := settings_process tidy.toSound entered.1 entered.2
      exact ⟨hsettings.trans hsettings', hcatalog.trans hcatalog'⟩

/-- Let a session process lines from the start, the tree being dropped whenever a line fails. As
soon as the input is complete, the tree is empty, and whatever lines follow, they are answered, and
change the world and the tree, as they would in a new session with the same settings and catalog.
Only the epoch of the nodes is a later one. -/
theorem observeAll_renewed (settings : Settings ω) (catalog : Catalog ω)
    (lines : List (String × ω)) :
    let fresh : Session ω := { settings, catalog }
    let session := fresh.processAll lines
    session.isComplete = true →
      session.tree = { epoch := session.tree.epoch } ∧
      ∀ more : List (String × ω), session.observeAll more =
        (fresh.observeAll more).map (Observation.later session.tree.epoch) := by
  intro fresh session complete
  have tidy : fresh.Tidy := tidy_fresh settings catalog
  obtain ⟨tidy', hempty⟩ := tidy.processAll (fun _ => rfl) lines
  obtain ⟨hsettings, hcatalog⟩ := tidy.settings_processAll lines
  obtain ⟨htree, later⟩ := tidy'.later_of_isComplete complete (hempty complete)
  rw [hsettings, hcatalog] at later
  exact ⟨htree, later.observeAll_eq tidy tidy'⟩

/-- Statements that end in semicolons, with round brackets around blocks. -/
def grouping : Settings Demo.Screen :=
  { Settings.standard with grammar := { terminator := some ';', blocks := some ⟨'(', ')'⟩ } }

/-- Two lines that open and close a block, where the command inside the block fails. -/
def failing : List (String × Demo.Screen) := [("echo a(", {}), ("fail;)", {})]

/-- After a failure the session remembers a node that is gone, and is none the worse for it. -/
theorem observeAll_renewed_of_failure :
    ∃ fresh session : Session Demo.Screen,
      fresh = { settings := grouping, catalog := Demo.catalog } ∧
      session = fresh.processAll failing ∧ session.isComplete = true ∧
      session.nesting.last = some (.node ⟨2, 0⟩) ∧ session.tree = { epoch := 1 } ∧
      ∀ more, session.observeAll more = (fresh.observeAll more).map (Observation.later 1) := by
  have complete : (processAll { settings := grouping, catalog := Demo.catalog } failing).isComplete
      = true := by decide +kernel
  have hepoch : (processAll { settings := grouping, catalog := Demo.catalog } failing).tree.epoch
      = 1 := by decide +kernel
  have hlast : (processAll { settings := grouping, catalog := Demo.catalog } failing).nesting.last
      = some (.node ⟨2, 0⟩) := by decide +kernel
  have renewed := observeAll_renewed grouping Demo.catalog failing complete
  refine ⟨_, _, rfl, rfl, complete, hlast, ?_⟩
  rw [← hepoch]
  exact renewed

/-- The conversation of the demonstration program processes its lines in this way. -/
theorem fst_exchange [Console ω] (session : Session ω) (line : String) (world : ω) :
    (Demo.exchange session line world).1 = (session.process line world).2.1 := by
  rw [Demo.exchange, process]
  rcases session.enter line world with ⟨answer, after, last⟩
  cases answer <;> rfl

end Session

end CommandEngine
