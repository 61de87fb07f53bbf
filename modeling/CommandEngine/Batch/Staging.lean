import CommandEngine.Batch.Nesting
import CommandEngine.Invocation
import CommandEngine.Statement
/-!
# Staging a batch

The statements read from one piece of text form a batch. Staging turns its commands into invocations
and finds the place of each, without touching any tree, so that a batch is attached only once all of
it is known to be sound.

Staging reports one fault, by a fixed priority. Every command name is checked before anything else,
so an unknown command is reported whatever else is wrong, and it leaves the nesting alone. After
that the statements are taken in order, and the first command that cannot be staged decides; the
nesting is then left as it was at that command.
-/

namespace CommandEngine

/-- How invocations are made from a command name and its selections. A builder is taken as a
function of these and of the catalog: unlike an action, it has no part in the world. -/
abbrev Builder (ω : Type) : Type :=
  String → List Selection → Catalog ω → Except CatalogError Invocation

/-- The builder that attaches the selections in order. -/
def Builder.standard {ω : Type} : Builder ω :=
  fun name selections catalog => Invocation.ofSelections catalog name selections

/-- An invocation together with its place. -/
structure Staged where
  place : Place
  invocation : Invocation
  deriving DecidableEq

/-- Why a batch cannot be staged. -/
inductive StagingError
  | unknownCommand (name : String)
  | unknownOption (name : String)
  | refused (cause : CatalogError)
  deriving DecidableEq

namespace Batch

variable {ω : Type}

/-- The first command name of a batch that is not in the catalog. -/
def firstUnknown? (catalog : Catalog ω) (statements : List Statement) : Option String :=
  (statements.filterMap Statement.name?).find? fun name => !catalog.contains name

/-- Make the invocation of one command. -/
def build (catalog : Catalog ω) (builder : Builder ω) (name : String) (words : List String) :
    Except StagingError Invocation :=
  match catalog.entry name with
  | .error _ => .error (.unknownCommand name)
  | .ok entry =>
    match entry.select words with
    | .error option => .error (.unknownOption option)
    | .ok selections => (builder name selections catalog).mapError .refused

/-- Stage statements in order, after those staged already. -/
def stageFrom (catalog : Catalog ω) (builder : Builder ω) :
    List Statement → Nesting → List Staged → Except StagingError (List Staged) × Nesting
  | [], nesting, staged => (.ok staged, nesting)
  | .openBlock :: rest, nesting, staged =>
    stageFrom catalog builder rest nesting.enter staged
  | .closeBlock :: rest, nesting, staged =>
    stageFrom catalog builder rest nesting.leave staged
  | .command [] :: rest, nesting, staged => stageFrom catalog builder rest nesting staged
  | .command (name :: words) :: rest, nesting, staged =>
    match build catalog builder name words with
    | .error cause => (.error cause, nesting)
    | .ok invocation =>
      stageFrom catalog builder rest (nesting.wrote staged.length)
        (staged ++ [⟨nesting.current, invocation⟩])

/-- Stage a batch: its invocations with their places, or the fault to report, and the nesting
afterwards. -/
def stage (catalog : Catalog ω) (builder : Builder ω) (statements : List Statement)
    (nesting : Nesting) : Except StagingError (List Staged) × Nesting :=
  match firstUnknown? catalog statements with
  | some name => (.error (.unknownCommand name), nesting)
  | none => stageFrom catalog builder statements nesting []

end Batch

end CommandEngine
