import CommandEngine.Proofs.Session.Acceptance
/-!
# What a host does with a session

A host reads and runs lines, changes the catalog, and edits the tree as it likes. The first two
kinds of call are `Request`s; a `Call` may also edit the tree, directly or through the session. Runs
are lists of calls, each with the world in which it is made, since the host may change its world
between two calls.

What a host can bring about is `Session.Reachable`: it makes calls, and between two of them it may
put any other tree in the place of the one that the session has built up. Every such session is
sound, whatever the calls, their worlds and their outcomes. This is the only invariant here; those
that hold of fewer runs stand with the results that need them.
-/

namespace CommandEngine

namespace Session

variable {ω : Type} {session : Session ω}

/-- A call that leaves the tree to the session. -/
inductive Request (ω : Type)
  | submit (line : String)
  | enter (line : String)
  | execute
  | discard
  | changeCatalog (change : Catalog.Change ω)
  | replaceCatalog (catalog : Catalog ω)

/-- Any call of a host. -/
inductive Call (ω : Type)
  | request (request : Request ω)
  | editTree (edit : Forest.Edit Invocation)
  | changeNode (handle : Handle) (change : Invocation → Invocation)
  | newNode (name : String)
  | attachOption (handle : Handle) (option : Option String)
  | renameNode (handle : Handle) (name : String)

/-- The outcome of a request, and the session and the world after it. -/
def serve (session : Session ω) (world : ω) : Request ω → Except SessionError Unit × Session ω × ω
  | .submit line => session.submit line world
  | .enter line => session.enter line world
  | .execute => session.execute world
  | .discard => (.ok (), session.discard, world)
  | .changeCatalog change =>
    let (answer, catalog) := session.catalog.apply change
    (answer.mapError .catalog, { session with catalog }, world)
  | .replaceCatalog catalog => (.ok (), { session with catalog }, world)

/-- Whether a request runs the tree, and to its end. -/
def ran (session : Session ω) (world : ω) : Request ω → Bool
  | .execute => (session.execute world).1.isOk
  | .enter line =>
    let (answer, session, world) := session.submit line world
    answer.isOk && session.isComplete && (session.execute world).1.isOk
  | _ => false

/-- The outcome of a call, and the session and the world after it. -/
def perform (session : Session ω) (world : ω) : Call ω → Except SessionError Unit × Session ω × ω
  | .request request => session.serve world request
  | .editTree edit =>
    let (answer, tree) := session.tree.apply edit
    (answer.mapError .forest, { session with tree }, world)
  | .changeNode handle change =>
    (.ok (), { session with tree := session.tree.modifyLabel handle change }, world)
  | .newNode name =>
    let (answer, session) := session.newNode name
    (answer.map fun _ => (), session, world)
  | .attachOption handle option =>
    let (answer, session) := session.attachOption handle option
    (answer, session, world)
  | .renameNode handle name =>
    let (answer, session) := session.renameNode handle name
    (answer, session, world)

/-- The session after a run of requests, each in a world of its own. -/
def serveAll (session : Session ω) (requests : List (Request ω × ω)) : Session ω :=
  requests.foldl (fun session made => (session.serve made.2 made.1).2.1) session

/-- The session after a run of calls, each in a world of its own. -/
def performAll (session : Session ω) (calls : List (Call ω × ω)) : Session ω :=
  calls.foldl (fun session made => (session.perform made.2 made.1).2.1) session

/-- The statements that a line completes; a blank line is not read. -/
def statementsOf (session : Session ω) (line : String) : List Statement :=
  if Text.isBlankText line then [] else (session.scanner.read session.settings.grammar line).1

/-- A line without complete statements is accepted and changes no more than the scanner; any other
is accepted as a whole, or the session is what discarding leaves of it. -/
theorem accept_cases (sound : session.Sound) (line : String) :
    (session.statementsOf line = [] ∧
      ∃ scanner, session.accept line = (.accepted, { session with scanner })) ∨
    (∃ verdict, verdict ≠ .accepted ∧ session.statementsOf line ≠ [] ∧
      session.accept line = (verdict, session.discard)) ∨
    ∃ scanner last grown, session.statementsOf line ≠ [] ∧
      session.Plants (session.statementsOf line) last grown ∧
      session.accept line =
        (.accepted, { session with scanner, tree := grown, nesting := last }) := by
  unfold accept statementsOf
  by_cases blank : Text.isBlankText line = true
  · rw [if_pos blank, if_pos blank]
    exact .inl ⟨rfl, session.scanner, rfl⟩
  · rw [if_neg blank, if_neg blank]
    generalize session.scanner.read session.settings.grammar line = reading
    obtain ⟨statements, scanner⟩ := reading
    cases statements with
    | nil => exact .inl ⟨rfl, scanner, rfl⟩
    | cons statement rest =>
        have sound' : ({ session with scanner } : Session ω).Sound := ⟨sound.tree, sound.nesting⟩
        rcases acceptStatements_cases sound' (statement :: rest) with
          ⟨verdict, hverdict, hresult⟩ | ⟨last, grown, hplants, hresult⟩
        · exact .inr (.inl ⟨verdict, hverdict, nofun, hresult⟩)
        · exact .inr (.inr ⟨scanner, last, grown, nofun, hplants, hresult⟩)

/-- Running the tree leaves the session as it is, if it stops or there is no tree, or else it clears
the tree and closes the blocks. -/
theorem execute_cases (session : Session ω) (world : ω) :
    ((session.execute world).2.1 = session ∧
      ((session.execute world).1.isOk = true → session.tree.head = none)) ∨
    ((session.execute world).2.1 = { session with tree := session.tree.clear, nesting := {} } ∧
      (session.execute world).1.isOk = true) := by
  unfold execute
  split
  case h_1 hhead => exact .inl ⟨rfl, fun _ => hhead⟩
  case h_2 =>
    split
    · exact .inl ⟨rfl, nofun⟩
    · exact .inr ⟨rfl, rfl⟩

theorem session_submit (session : Session ω) (line : String) (world : ω) :
    (session.submit line world).2.1 = (session.accept line).2 := rfl

/-- Entering a line leaves what reading it leaves, or what running the tree after it leaves. -/
theorem enter_cases (session : Session ω) (line : String) (world : ω) :
    ((session.enter line world).2.1 = (session.accept line).2 ∧
      session.ran world (.enter line) = false) ∨
    ∃ later, (session.enter line world).2.1 = ((session.accept line).2.execute later).2.1 ∧
      session.ran world (.enter line) = ((session.accept line).2.execute later).1.isOk := by
  rw [enter, ran]
  rcases hsubmit : session.submit line world with ⟨answer, after, later⟩
  have hafter : (session.accept line).2 = after := by
    rw [← session_submit session line world, hsubmit]
  cases answer with
  | error cause => exact .inl ⟨hafter.symm, rfl⟩
  | ok done =>
      by_cases complete : after.isComplete = true
      · exact .inr ⟨later, by simp [complete, hafter, Except.isOk, Except.toBool]⟩
      · exact .inl (by simp [complete, hafter])

/-- What reading lines, running the tree, discarding and another catalog keep is kept by every
request. -/
theorem serve_of_keeps {P : Session ω → Prop}
    (accept : ∀ {session : Session ω} (line : String), P session → P (session.accept line).2)
    (execute : ∀ {session : Session ω} (world : ω), P session → P (session.execute world).2.1)
    (discard : ∀ {session : Session ω}, P session → P session.discard)
    (exchange : ∀ {session : Session ω} (catalog : Catalog ω), P session →
      P { session with catalog })
    (held : P session) (world : ω) (request : Request ω) : P (session.serve world request).2.1 := by
  cases request with
  | submit line => exact accept line held
  | enter line =>
      rcases enter_cases session line world with ⟨hread, -⟩ | ⟨later, hran, -⟩
      · rw [serve, hread]
        exact accept line held
      · rw [serve, hran]
        exact execute later (accept line held)
  | execute => exact execute world held
  | discard => exact discard held
  | changeCatalog change => exact exchange _ held
  | replaceCatalog catalog => exact exchange catalog held

/-! ## Soundness -/

theorem sound_ofSettings (settings : Settings ω) : (ofSettings settings).Sound where
  tree := Forest.WellFormed.empty
  nesting := Nesting.isProper_empty

/-- Planting below a head that was made for it, or was there, keeps a session sound. -/
theorem Sound.plants {statements : List Statement} {last : Nesting} {grown : InvocationTree}
    (sound : session.Sound) (hplants : session.Plants statements last grown) :
    grown.WellFormed ∧ last.IsProper := by
  obtain ⟨-, batch, anchor, rooted, -, hanchor, hplant⟩ := hplants
  obtain ⟨wg, hhead, -⟩ := Batch.anchor_spec sound.tree hanchor
  have rooted := wg.inTree_head hhead
  obtain ⟨wh, -⟩ := Batch.plant_spec wg rooted hplant
  exact ⟨wh, Batch.isProper_of_plant wg rooted sound.liveNesting hplant⟩

theorem Sound.discard (sound : session.Sound) : session.discard.Sound :=
  ⟨sound.tree, Nesting.isProper_empty⟩

theorem Sound.accept (sound : session.Sound) (line : String) : (session.accept line).2.Sound := by
  rcases accept_cases sound line with
    ⟨-, scanner, haccept⟩ | ⟨verdict, -, -, haccept⟩ | ⟨scanner, last, grown, -, hplants, haccept⟩
  · rw [haccept]
    exact ⟨sound.tree, sound.nesting⟩
  · rw [haccept]
    exact sound.discard
  · rw [haccept]
    obtain ⟨wf, proper⟩ := sound.plants hplants
    exact ⟨wf, proper⟩

theorem Sound.execute (sound : session.Sound) (world : ω) :
    (session.execute world).2.1.Sound := by
  rcases execute_cases session world with ⟨hsame, -⟩ | ⟨hcleared, -⟩
  · rw [hsame]
    exact sound
  · rw [hcleared]
    exact ⟨.clear session.tree, Nesting.isProper_empty⟩

theorem Sound.serve (sound : session.Sound) (world : ω) (request : Request ω) :
    (session.serve world request).2.1.Sound :=
  serve_of_keeps (fun line sound => sound.accept line) (fun world sound => sound.execute world)
    (fun sound => sound.discard) (fun _ sound => ⟨sound.tree, sound.nesting⟩) sound world request

/-- A change of the invocation at one node keeps a session sound, whether it is refused or not. -/
theorem Sound.edit (sound : session.Sound) (handle : Handle)
    (change : Invocation → Except CatalogError Unit × Invocation) :
    (session.edit handle change).2.Sound := by
  unfold Session.edit
  split
  · exact sound
  · exact ⟨sound.tree.modifyLabel handle fun _ => _, sound.nesting⟩

theorem Sound.perform (sound : session.Sound) (world : ω) (call : Call ω) :
    (session.perform world call).2.1.Sound := by
  cases call with
  | request request => exact sound.serve world request
  | editTree edit => exact ⟨sound.tree.apply edit, sound.nesting⟩
  | changeNode handle change => exact ⟨sound.tree.modifyLabel handle change, sound.nesting⟩
  | newNode name =>
      simp only [Session.perform, Session.newNode]
      cases session.settings.builder name [] session.catalog with
      | error cause => exact sound
      | ok invocation => exact ⟨sound.tree.create invocation, sound.nesting⟩
  | attachOption handle option => exact sound.edit handle _
  | renameNode handle name => exact sound.edit handle _

/-- A session that a host can bring about: by calls, each in a world of its own, and by putting any
other tree in the place of the one it has built up. -/
inductive Reachable (settings : Settings ω) : Session ω → Prop
  | start : Reachable settings (ofSettings settings)
  | perform {session : Session ω} (reached : Reachable settings session) (world : ω)
    (call : Call ω) : Reachable settings (session.perform world call).2.1
  | exchangeTree {session : Session ω} (reached : Reachable settings session)
    {tree : InvocationTree} (wf : tree.WellFormed) : Reachable settings { session with tree }

namespace Reachable

variable {settings : Settings ω}

theorem sound (reached : Reachable settings session) : session.Sound := by
  induction reached with
  | start => exact sound_ofSettings settings
  | perform _ world call sound => exact sound.perform world call
  | exchangeTree _ wf sound => exact ⟨wf, sound.nesting⟩

theorem performAll (reached : Reachable settings session) (calls : List (Call ω × ω)) :
    Reachable settings (session.performAll calls) := by
  induction calls generalizing session with
  | nil => exact reached
  | cons made rest ih => exact ih (reached.perform made.2 made.1)

end Reachable

end Session

end CommandEngine
