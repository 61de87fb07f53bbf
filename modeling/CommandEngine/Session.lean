import CommandEngine.Batch.Attachment
import CommandEngine.Scanner
/-!
# Sessions

A session reads lines, collects their commands in a tree and runs the tree once the input is
complete. What it keeps between lines is the unfinished statement, the open blocks and the tree of
commands that have not run.

Accepting a line is a matter of the session alone: `Session.accept` says what became of the line and
what the session is afterwards, and no action of the host takes part. Only an unknown command or
option calls on the host, so `Session.submit` is `accept` followed by at most one handler. A line
is accepted as a whole or not at all, and a line that is not accepted also discards the unfinished
statement and the open blocks.
-/

namespace CommandEngine

/-- How a session reads lines and what it does about what it does not know. -/
structure Settings (ω : Type) where
  grammar : Grammar := {}
  onUnknownCommand : Handler ω
  onUnknownOption : Handler ω
  builder : Builder ω := Builder.standard

/-- The settings under which unknown names are shown on the console. -/
def Settings.standard {ω : Type} [Console ω] : Settings ω where
  onUnknownCommand := Handler.announce "Unknown command: "
  onUnknownOption := Handler.announce "Unknown option: "

/-- Why an operation of a session fails. -/
inductive SessionError
  | /-- The catalog or the builder refused. -/
    catalog (cause : CatalogError)
  | forest (cause : ForestError)
  | execution (cause : ExecutionError)
  | handler (reason : String)
  deriving DecidableEq

def SessionError.message : SessionError → String
  | catalog cause => cause.message
  | forest cause => cause.message
  | execution cause => cause.message
  | handler reason => "illegal input handler failed: " ++ reason

/-- The session error of a batch that cannot be attached. -/
def AttachmentError.toSessionError : AttachmentError → SessionError
  | catalog cause => .catalog cause
  | forest cause => .forest cause

/-- What became of a line. -/
inductive Verdict
  | accepted
  | unknownCommand (name : String)
  | unknownOption (name : String)
  | failed (cause : SessionError)
  deriving DecidableEq

/-- The verdict on a line that cannot be staged. -/
def StagingError.verdict : StagingError → Verdict
  | unknownCommand name => .unknownCommand name
  | unknownOption name => .unknownOption name
  | refused cause => .failed (.catalog cause)

/-- Lines that were read and commands that have not run. -/
structure Session (ω : Type) where
  settings : Settings ω
  catalog : Catalog ω := Catalog.initial
  scanner : Scanner := Scanner.fresh
  tree : InvocationTree := {}
  nesting : Nesting := {}

namespace Session

variable {ω : Type}

def ofSettings (settings : Settings ω) : Session ω := { settings }

/-- The characters that quote arguments. -/
def quotes (session : Session ω) : List Char := session.settings.grammar.quotes

/-- Whether no statement waits for more text and every block is closed. -/
def isComplete (session : Session ω) : Bool :=
  session.scanner.isComplete && !session.nesting.isOpen

/-- The session without the unfinished statement and the open blocks. -/
def discard (session : Session ω) : Session ω :=
  { session with scanner := Scanner.fresh, nesting := {} }

@[simp]
theorem isComplete_discard (session : Session ω) : session.discard.isComplete = true := rfl

/-- The open blocks that still matter: a tree without a head has nothing to nest into. -/
def liveNesting (session : Session ω) : Nesting :=
  if session.tree.isEmpty then {} else session.nesting

/-- Stage and attach the statements that a line completed. -/
def acceptStatements (session : Session ω) (statements : List Statement) :
    Verdict × Session ω :=
  let builder := session.settings.builder
  match Batch.stage session.catalog builder statements session.liveNesting with
  | (.error cause, _) => (cause.verdict, session.discard)
  | (.ok staged, nesting) =>
    match Batch.attach session.catalog builder staged session.tree with
    | (.error cause, tree) => (.failed cause.toSessionError, { session.discard with tree })
    | (.ok nodes, tree) =>
      (.accepted, { session with tree, nesting := nesting.settle nodes })

/-- Read a line: what becomes of it, and the session afterwards. A blank line is not read at all. -/
def accept (session : Session ω) (line : String) : Verdict × Session ω :=
  if Text.isBlankText line then (.accepted, session)
  else
    let (statements, scanner) := session.scanner.read session.settings.grammar line
    let session := { session with scanner }
    if statements.isEmpty then (.accepted, session) else session.acceptStatements statements

/-- What the host does about a verdict. -/
def respond (settings : Settings ω) (verdict : Verdict) (world : ω) :
    Except SessionError Unit × ω :=
  match verdict with
  | .accepted => (.ok (), world)
  | .unknownCommand name =>
    let (answer, world) := settings.onUnknownCommand name world
    (answer.mapError .handler, world)
  | .unknownOption name =>
    let (answer, world) := settings.onUnknownOption name world
    (answer.mapError .handler, world)
  | .failed cause => (.error cause, world)

/-- Read a line and let the host respond to what it does not know. -/
def submit (session : Session ω) (line : String) (world : ω) :
    Except SessionError Unit × Session ω × ω :=
  let (verdict, session) := session.accept line
  let (answer, world) := respond session.settings verdict world
  (answer, session, world)

/-- Run the tree from its head. A tree that ran is dropped with the open blocks; one that stopped
stays as it is. -/
def execute (session : Session ω) (world : ω) : Except SessionError Unit × Session ω × ω :=
  match session.tree.head with
  | none => (.ok (), session, world)
  | some head =>
    match session.tree.execute session.catalog session.quotes head world with
    | (.error cause, world) => (.error (.execution cause), session, world)
    | (.ok _, world) => (.ok (), { session with tree := session.tree.clear, nesting := {} }, world)

/-- Read a line and run the tree if the input is complete. -/
def enter (session : Session ω) (line : String) (world : ω) :
    Except SessionError Unit × Session ω × ω :=
  match session.submit line world with
  | (.error cause, session, world) => (.error cause, session, world)
  | (.ok _, session, world) =>
    if session.isComplete then session.execute world else (.ok (), session, world)

/-- Create a node for a command without options, which belongs to no tree. -/
def newNode (session : Session ω) (name : String) :
    Except SessionError Handle × Session ω :=
  match session.settings.builder name [] session.catalog with
  | .error cause => (.error (.catalog cause), session)
  | .ok invocation =>
    let (handle, tree) := session.tree.create invocation
    (.ok handle, { session with tree })

/-- Let the invocation at a node change. Whatever the change leaves of it is kept, also if it is
refused. -/
def edit (session : Session ω) (handle : Handle)
    (change : Invocation → Except CatalogError Unit × Invocation) :
    Except SessionError Unit × Session ω :=
  match session.tree.label? handle with
  | none => (.error (.forest (.noSuchNode handle)), session)
  | some invocation =>
    let (answer, changed) := change invocation
    (answer.mapError .catalog,
      { session with tree := session.tree.modifyLabel handle fun _ => changed })

/-- Attach an occurrence of an option to the invocation at a node. -/
def attachOption (session : Session ω) (handle : Handle) (option : Option String) :
    Except SessionError Unit × Session ω :=
  session.edit handle fun invocation => invocation.attach session.catalog option []

/-- Put the invocation at a node under the name of another command. -/
def renameNode (session : Session ω) (handle : Handle) (name : String) :
    Except SessionError Unit × Session ω :=
  session.edit handle fun invocation => invocation.rename session.catalog name

end Session

end CommandEngine
