import CommandEngine.Proofs.Session.LineBreaks
/-!
# What runs, and in which order

Running a tree is running one list of tasks, a task being an occurrence of an option at a node. The
list is found by the recursive pre-order of the tree and, at each node, by the order of its
occurrences. It ends early in two ways, which differ in what has happened by then. A task that fails
has run, and so have all before it. A node that the catalog no longer supports is found out before
any of its tasks runs, so exactly the tasks of the nodes before it have.

`Performs` says that tasks run one after another and all succeed, `Runs` adds the first failure, and
`Traces` adds the first node that is not supported. What makes `Runs` enough within a node is that
the order of the occurrences can only be found if all of them are registered, so the lookups between
two tasks of a node never fail (`Invocation.runs_executeAll`).
-/

namespace CommandEngine

variable {ω : Type} {catalog : Catalog ω} {quotes : List Char}

/-- One occurrence of an option at a node, as it is run. -/
structure Task where
  node : Handle
  command : String
  occurrence : Occurrence
  deriving DecidableEq

/-- The action registered for a task gives this answer on the arguments of the task, and makes one
world of another. -/
def Task.Answers (catalog : Catalog ω) (quotes : List Char) (task : Task) (world : ω)
    (answer : Except String Unit) (after : ω) : Prop :=
  ∃ definition, catalog.definition task.command task.occurrence.option = .ok definition ∧
    definition.action (Invocation.argumentsOf quotes task.occurrence) world = (answer, after)

/-- Tasks run one after another, and all of them succeed. -/
inductive Performs (catalog : Catalog ω) (quotes : List Char) : List Task → ω → ω → Prop
  | done (world : ω) : Performs catalog quotes [] world world
  | step {task : Task} {rest : List Task} {world between after : ω}
      (answers : task.Answers catalog quotes world (.ok ()) between)
      (later : Performs catalog quotes rest between after) :
      Performs catalog quotes (task :: rest) world after

theorem Performs.append {front back : List Task} {world between after : ω}
    (first : Performs catalog quotes front world between)
    (second : Performs catalog quotes back between after) :
    Performs catalog quotes (front ++ back) world after := by
  induction first with
  | done => exact second
  | step answers _ ih => exact .step answers (ih second)

/-- Tasks run one after another up to the first that fails. -/
inductive Runs (catalog : Catalog ω) (quotes : List Char) (tasks : List Task) (world : ω) :
    Except ExecutionError Unit × ω → Prop
  | finished {after : ω} (performs : Performs catalog quotes tasks world after) :
      Runs catalog quotes tasks world (.ok (), after)
  | failed {done rest : List Task} {task : Task} {between after : ω} {reason : String}
      (htasks : tasks = done ++ task :: rest)
      (performs : Performs catalog quotes done world between)
      (answers : task.Answers catalog quotes between (.error reason) after) :
      Runs catalog quotes tasks world
        (.error (.action task.command task.occurrence.option reason), after)

theorem Runs.cons {task : Task} {tasks : List Task} {world between : ω}
    {result : Except ExecutionError Unit × ω}
    (answers : task.Answers catalog quotes world (.ok ()) between)
    (runs : Runs catalog quotes tasks between result) :
    Runs catalog quotes (task :: tasks) world result := by
  cases runs with
  | finished performs => exact .finished (.step answers performs)
  | failed htasks performs fails =>
      subst htasks
      exact .failed (List.cons_append ..).symm (.step answers performs) fails

namespace Invocation

variable {invocation : Invocation} {entry : Entry ω} {occurrences : List Occurrence}

/-- The command is in the catalog, and so are all options that occur. -/
def IsSupported (catalog : Catalog ω) (invocation : Invocation) : Prop :=
  ∃ entry, catalog.entry invocation.name = .ok entry ∧
    ∀ occurrence ∈ invocation.occurrences, entry.hasOption occurrence.option = true

/-- The tasks of an invocation at a node, in the order in which they run. -/
def tasks (catalog : Catalog ω) (node : Handle) (invocation : Invocation) :
    Except CatalogError (List Task) :=
  (invocation.ordered catalog).map (List.map (Task.mk node invocation.name))

theorem exists_definition_iff {option : String} :
    (∃ definition, entry.definition option = .ok definition) ↔ entry.hasOption option = true := by
  rw [Entry.definition, Entry.hasOption, Table.contains]
  cases entry.options.get? option <;> simp

/-- Priorities can be looked up exactly if all options are registered, and the occurrences stay as
they are. -/
theorem withPriorities_cases (entry : Entry ω) (occurrences : List Occurrence) :
    (∃ keyed, withPriorities entry occurrences = .ok keyed ∧ keyed.map Prod.snd = occurrences ∧
      ∀ occurrence ∈ occurrences, entry.hasOption occurrence.option = true) ∨
    ∃ cause, withPriorities entry occurrences = .error cause ∧
      ¬∀ occurrence ∈ occurrences, entry.hasOption occurrence.option = true := by
  induction occurrences with
  | nil => exact .inl ⟨[], rfl, rfl, nofun⟩
  | cons occurrence rest ih =>
      rw [withPriorities, Entry.runningPriority]
      cases hdefinition : entry.definition occurrence.option with
      | error cause =>
          refine .inr ⟨cause, rfl, fun registered => ?_⟩
          obtain ⟨definition, hregistered⟩ :=
            exists_definition_iff.2 (registered occurrence List.mem_cons_self)
          rw [hdefinition] at hregistered
          cases hregistered
      | ok definition =>
          rcases ih with ⟨keyed, hkeyed, hsame, registered⟩ | ⟨cause, hcause, missing⟩
          · have first := exists_definition_iff.1 ⟨definition, hdefinition⟩
            refine .inl ⟨_, by rw [hkeyed]; rfl, by simp [hsame], ?_⟩
            exact List.forall_mem_cons.2 ⟨first, registered⟩
          · refine .inr ⟨cause, by rw [hcause]; rfl, fun registered => missing ?_⟩
            exact fun other here => registered other (List.mem_cons_of_mem _ here)

/-- The order of the occurrences can be found exactly if the catalog supports the invocation, and
then it leaves none of them out. -/
theorem ordered_cases (catalog : Catalog ω) (invocation : Invocation) :
    (∃ entry occurrences, catalog.entry invocation.name = .ok entry ∧
      invocation.ordered catalog = .ok occurrences ∧
      occurrences.Perm invocation.occurrences ∧
      ∀ occurrence ∈ occurrences, entry.hasOption occurrence.option = true) ∨
    ∃ cause, invocation.ordered catalog = .error cause ∧ ¬invocation.IsSupported catalog := by
  rw [ordered]
  cases hentry : catalog.entry invocation.name with
  | error cause =>
      refine .inr ⟨cause, rfl, fun supported => ?_⟩
      obtain ⟨entry, hsome, -⟩ := supported
      rw [hentry] at hsome
      cases hsome
  | ok entry =>
      -- All priorities are looked up before anything is sorted, so sorting decides nothing here.
      dsimp only
      rcases withPriorities_cases entry invocation.occurrences with
        ⟨keyed, hkeyed, hsame, registered⟩ | ⟨cause, hcause, missing⟩
      · have perm : ((stableSort mayPrecede keyed).map Prod.snd).Perm invocation.occurrences :=
          hsame ▸ (perm_stableSort mayPrecede keyed).map Prod.snd
        exact .inl ⟨entry, _, rfl, by rw [hkeyed]; rfl, perm,
          fun occurrence here => registered occurrence (perm.mem_iff.1 here)⟩
      · refine .inr ⟨cause, by rw [hcause]; rfl, fun supported => missing ?_⟩
        obtain ⟨other, hother, registered⟩ := supported
        rw [hentry, Except.ok.injEq] at hother
        rw [hother]
        exact registered

/-- The tasks of an invocation are its occurrences, each once. -/
theorem perm_of_tasks {node : Handle} {tasks : List Task}
    (htasks : invocation.tasks catalog node = .ok tasks) :
    tasks.Perm (invocation.occurrences.map (Task.mk node invocation.name)) := by
  rw [Invocation.tasks] at htasks
  rcases ordered_cases catalog invocation with
    ⟨entry, occurrences, -, hordered, perm, -⟩ | ⟨cause, hordered, -⟩
  · rw [hordered] at htasks
    cases htasks
    exact perm.map _
  · rw [hordered] at htasks
    cases htasks

/-- Between the tasks of a node no lookup fails. -/
theorem runs_executeAll {command : String} (hentry : catalog.entry command = .ok entry)
    (registered : ∀ occurrence ∈ occurrences, entry.hasOption occurrence.option = true)
    (node : Handle) (world : ω) :
    Runs catalog quotes (occurrences.map (Task.mk node command)) world
      (executeAll entry command quotes occurrences world) := by
  induction occurrences generalizing world with
  | nil => exact .finished (.done world)
  | cons occurrence rest ih =>
      obtain ⟨definition, hdefinition⟩ :=
        exists_definition_iff.2 (registered occurrence List.mem_cons_self)
      have hlookup : catalog.definition command occurrence.option = .ok definition := by
        rw [Catalog.definition, hentry]
        exact hdefinition
      rw [executeAll, hdefinition]
      dsimp only
      rcases hrun : definition.action (argumentsOf quotes occurrence) world with ⟨answer, after⟩
      cases answer with
      | error reason =>
          exact .failed (List.nil_append _).symm (.done world) ⟨definition, hlookup, hrun⟩
      | ok value =>
          exact .cons ⟨definition, hlookup, hrun⟩
            (ih (fun other here => registered other (List.mem_cons_of_mem _ here)) after)

/-- An invocation runs its tasks if the catalog supports it, and else nothing. -/
theorem execute_cases (catalog : Catalog ω) (quotes : List Char) (node : Handle)
    (invocation : Invocation) (world : ω) :
    (∃ tasks, invocation.tasks catalog node = .ok tasks ∧
      Runs catalog quotes tasks world (invocation.execute catalog quotes world)) ∨
    ∃ cause, invocation.tasks catalog node = .error cause ∧ ¬invocation.IsSupported catalog ∧
      invocation.execute catalog quotes world = (.error (.catalog cause), world) := by
  rw [tasks, execute]
  rcases ordered_cases catalog invocation with
    ⟨entry, occurrences, hentry, hordered, -, registered⟩ | ⟨cause, hordered, unsupported⟩
  · left
    rw [hordered, hentry]
    exact ⟨_, rfl, runs_executeAll hentry registered node world⟩
  · refine .inr ⟨cause, by rw [hordered]; rfl, unsupported, ?_⟩
    rw [hordered]
    rw [ordered] at hordered
    cases hentry : catalog.entry invocation.name with
    | error other =>
        rw [hentry] at hordered
        cases hordered
        rfl
    | ok entry => rfl

end Invocation

namespace InvocationTree

variable {tree : InvocationTree} {node : Handle} {nodes : List Handle}

/-- The tasks of a node, in the order in which they run. -/
def tasksAt (catalog : Catalog ω) (tree : InvocationTree) (node : Handle) :
    Except CatalogError (List Task) :=
  match tree.label? node with
  | none => .ok []
  | some invocation => invocation.tasks catalog node

/-- The tasks of several nodes, one node after the other. -/
def tasksOf (catalog : Catalog ω) (tree : InvocationTree) :
    List Handle → Except CatalogError (List Task)
  | [] => .ok []
  | node :: rest =>
    match tree.tasksAt catalog node with
    | .error cause => .error cause
    | .ok front => (tree.tasksOf catalog rest).map (front ++ ·)

/-- The occurrences at a node, in the order in which they were attached. -/
def attachedAt (tree : InvocationTree) (node : Handle) : List Task :=
  match tree.label? node with
  | none => []
  | some invocation => invocation.occurrences.map (Task.mk node invocation.name)

/-- The catalog does not support the command at a node. -/
def IsUnsupported (catalog : Catalog ω) (tree : InvocationTree) (node : Handle) : Prop :=
  ∃ invocation, tree.label? node = some invocation ∧ ¬invocation.IsSupported catalog

/-- How the tasks of several nodes run, one node after the other. -/
inductive Traces (catalog : Catalog ω) (quotes : List Char) (tree : InvocationTree)
    (nodes : List Handle) (world : ω) : Except ExecutionError Unit × ω → Prop
  | finished {tasks : List Task} {after : ω} (htasks : tree.tasksOf catalog nodes = .ok tasks)
      (performs : Performs catalog quotes tasks world after) :
      Traces catalog quotes tree nodes world (.ok (), after)
  | /-- All tasks before some task run and succeed, and then that task fails. -/
    failed {before rest : List Handle} {node : Handle} {earlier done remaining : List Task}
      {task : Task} {between after : ω} {reason : String} (hnodes : nodes = before ++ node :: rest)
      (hearlier : tree.tasksOf catalog before = .ok earlier)
      (hnode : tree.tasksAt catalog node = .ok (done ++ task :: remaining))
      (performs : Performs catalog quotes (earlier ++ done) world between)
      (answers : task.Answers catalog quotes between (.error reason) after) :
      Traces catalog quotes tree nodes world
        (.error (.action task.command task.occurrence.option reason), after)
  | /-- All tasks of the nodes before some node run and succeed, and that node is not supported. -/
    unsupported {before rest : List Handle} {node : Handle} {earlier : List Task} {after : ω}
      {cause : CatalogError} (hnodes : nodes = before ++ node :: rest)
      (hearlier : tree.tasksOf catalog before = .ok earlier)
      (hnode : tree.tasksAt catalog node = .error cause) (missing : tree.IsUnsupported catalog node)
      (performs : Performs catalog quotes earlier world after) :
      Traces catalog quotes tree nodes world (.error (.catalog cause), after)

private theorem tasksOf_cons {front more : List Task}
    (hfront : tree.tasksAt catalog node = .ok front)
    (hmore : tree.tasksOf catalog nodes = .ok more) :
    tree.tasksOf catalog (node :: nodes) = .ok (front ++ more) := by
  rw [tasksOf, hfront, hmore]
  rfl

/-- A node whose tasks succeed is followed by the other nodes. -/
theorem Traces.cons {front : List Task} {world between : ω}
    {result : Except ExecutionError Unit × ω} (hfront : tree.tasksAt catalog node = .ok front)
    (performs : Performs catalog quotes front world between)
    (traces : Traces catalog quotes tree nodes between result) :
    Traces catalog quotes tree (node :: nodes) world result := by
  cases traces with
  | finished htasks later => exact .finished (tasksOf_cons hfront htasks) (performs.append later)
  | failed hnodes hearlier hnode later answers =>
      subst hnodes
      refine .failed (List.cons_append ..).symm (tasksOf_cons hfront hearlier) hnode ?_ answers
      rw [List.append_assoc]
      exact performs.append later
  | unsupported hnodes hearlier hnode missing later =>
      subst hnodes
      exact .unsupported (List.cons_append ..).symm (tasksOf_cons hfront hearlier) hnode missing
        (performs.append later)

/-- Running nodes in turn runs their tasks, up to the first failure. -/
theorem traces_executeNodes (catalog : Catalog ω) (quotes : List Char) (tree : InvocationTree)
    (nodes : List Handle) (world : ω) :
    Traces catalog quotes tree nodes world (tree.executeNodes catalog quotes nodes world) := by
  induction nodes generalizing world with
  | nil => exact .finished rfl (.done world)
  | cons node rest ih =>
      rw [executeNodes]
      cases hlabel : tree.label? node with
      | none => exact .cons (by rw [tasksAt, hlabel]) (.done world) (ih world)
      | some invocation =>
          have hnode : tree.tasksAt catalog node = invocation.tasks catalog node := by
            rw [tasksAt, hlabel]
          dsimp only
          rcases invocation.execute_cases catalog quotes node world with
            ⟨tasks, htasks, runs⟩ | ⟨cause, hcause, unsupported, hexecute⟩
          · rw [htasks] at hnode
            cases hresult : invocation.execute catalog quotes world with
            | mk answer after =>
                rw [hresult] at runs
                cases runs with
                | finished performs => exact .cons hnode performs (ih after)
                | failed hsplit performs answers =>
                    rw [hsplit] at hnode
                    exact .failed (List.nil_append _).symm rfl hnode performs answers
          · rw [hcause] at hnode
            rw [hexecute]
            exact .unsupported (List.nil_append _).symm rfl hnode ⟨invocation, hlabel, unsupported⟩
              (.done world)

/-- The tasks of several nodes are their occurrences, each once. -/
theorem perm_of_tasksOf {tasks : List Task} (htasks : tree.tasksOf catalog nodes = .ok tasks) :
    tasks.Perm (nodes.flatMap tree.attachedAt) := by
  induction nodes generalizing tasks with
  | nil =>
      cases htasks
      exact .refl _
  | cons node rest ih =>
      rw [tasksOf] at htasks
      cases hfront : tree.tasksAt catalog node with
      | error cause =>
          rw [hfront] at htasks
          cases htasks
      | ok front =>
          have hperm : front.Perm (tree.attachedAt node) := by
            rw [tasksAt] at hfront
            rw [attachedAt]
            cases hlabel : tree.label? node with
            | none =>
                rw [hlabel] at hfront
                cases hfront
                exact .refl _
            | some invocation =>
                rw [hlabel] at hfront
                exact Invocation.perm_of_tasks hfront
          cases hrest : tree.tasksOf catalog rest with
          | error cause =>
              rw [hfront, hrest] at htasks
              cases htasks
          | ok more =>
              rw [hfront, hrest] at htasks
              cases htasks
              exact hperm.append (ih hrest)

end InvocationTree

/-! ## The tree of a session -/

namespace Session

variable {session : Session ω}

/-- Running the tree of a session, however the host has brought it about, runs the tasks of its
nodes in recursive pre-order from the head, and those of each node in their order. It stops right
after the first task that fails, or before the first node that the catalog does not support, and
then the session is as it was. Otherwise all occurrences in the tree have run, each once, and the
tree and the open blocks are gone. Without a head, running does nothing, not even to the open
blocks. -/
theorem execute_traces {settings : Settings ω} (reached : Reachable settings session) (world : ω) :
    match session.tree.head with
    | none => session.execute world = (.ok (), session, world)
    | some head =>
      let nodes := session.tree.subtree head
      (∀ tasks, session.tree.tasksOf session.catalog nodes = .ok tasks →
        tasks.Perm
          ((session.tree.handles.filter session.tree.inTree).flatMap session.tree.attachedAt)) ∧
      ∃ answer after,
        session.tree.Traces session.catalog session.quotes nodes world (answer, after) ∧
        session.execute world =
          match answer with
          | .ok _ =>
            (.ok (), { session with tree := session.tree.clear, nesting := {} }, after)
          | .error cause => (.error (.execution cause), session, after) := by
  have sound := reached.sound
  cases hhead : session.tree.head with
  | none =>
      show session.execute world = (.ok (), session, world)
      rw [execute, hhead]
  | some head =>
      have nodes := sound.tree.perm_subtree_head hhead
      have hpreorder := sound.tree.preorder_eq (sound.tree.contains_head head hhead)
      have traces := InvocationTree.traces_executeNodes session.catalog session.quotes session.tree
        (session.tree.subtree head) world
      rcases hrun : session.tree.executeNodes session.catalog session.quotes
        (session.tree.subtree head) world with ⟨answer, after⟩
      rw [hrun] at traces
      refine ⟨fun tasks htasks => ?_, answer, after, traces, ?_⟩
      · exact (InvocationTree.perm_of_tasksOf htasks).trans (nodes.flatMap_right _)
      · rw [execute, hhead]
        dsimp only
        rw [InvocationTree.execute, hpreorder, hrun]
        cases answer <;> rfl

/-- A command inside a block fails: those before it have run, the one after the block has not. -/
theorem execute_traces_of_failure :
    let session := (ofSettings bracketed).performAll (registering "a" ++
      [(.request (.changeCatalog (.register "b" none fun _ world => (.error "no", world))), ()),
        (.request (.submit "a (a; b;) a;"), ())])
    session.tree.subtree ⟨0, 0⟩ = [⟨0, 0⟩, ⟨1, 0⟩, ⟨2, 0⟩, ⟨3, 0⟩, ⟨4, 0⟩] ∧
    session.tree.Traces session.catalog session.quotes (session.tree.subtree ⟨0, 0⟩) ()
      (.error (.action "b" "_DEFAULT_" "no"), ()) := by
  intro session
  have reached : Reachable bracketed session := Reachable.start.performAll _
  have hhead : session.tree.head = some ⟨0, 0⟩ := by decide +kernel
  have failed : (session.execute ()).1 =
      .error (.execution (.action "b" "_DEFAULT_" "no")) := by decide +kernel
  have traced := execute_traces reached ()
  rw [hhead] at traced
  obtain ⟨-, answer, after, traces, hexecute⟩ := traced
  refine ⟨by decide +kernel, ?_⟩
  rw [hexecute] at failed
  cases answer with
  | ok done => cases failed
  | error cause =>
      cases failed
      exact traces

/-- When the tree is cleared while a block is open, running succeeds and leaves the block open. -/
theorem isOpen_execute_of_cleared :
    ∃ session : Session Unit,
      session = (ofSettings bracketed).performAll
        [(.request (.submit "__NOP__("), ()), (.editTree .clear, ())] ∧
      (session.execute ()).1 = .ok () ∧ (session.execute ()).2.1.nesting.isOpen = true :=
  ⟨_, rfl, by decide +kernel, by decide +kernel⟩

end Session

end CommandEngine
