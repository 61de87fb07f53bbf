import CommandEngine.Invocation.Order
/-!
# Running an invocation

An invocation runs the actions of its occurrences in their order and stops at the first that fails.
The catalog is consulted before the first action, so an invocation that the catalog no longer
supports runs nothing at all, whereas a failing action leaves the effects of those before it.
-/

namespace CommandEngine

/-- Why a run stopped. -/
inductive ExecutionError
  | /-- The catalog no longer has the command or one of its options. -/
    catalog (cause : CatalogError)
  | action (command option reason : String)
  deriving DecidableEq

def ExecutionError.message : ExecutionError → String
  | catalog cause => cause.message
  | action command option reason =>
    "task for option '" ++ option ++ "' of command '" ++ command ++ "' failed: " ++ reason

namespace Invocation

variable {ω : Type}

/-- The arguments of an occurrence as its action sees them. -/
def argumentsOf (quotes : List Char) (occurrence : Occurrence) : List Argument :=
  occurrence.arguments.map (⟨·, quotes⟩)

/-- Run the actions of occurrences in turn, up to the first that fails. -/
def executeAll (entry : Entry ω) (command : String) (quotes : List Char) :
    List Occurrence → ω → Except ExecutionError Unit × ω
  | [], world => (.ok (), world)
  | occurrence :: rest, world =>
    match entry.definition occurrence.option with
    | .error cause => (.error (.catalog cause), world)
    | .ok definition =>
      match definition.action (argumentsOf quotes occurrence) world with
      | (.error reason, world) => (.error (.action command occurrence.option reason), world)
      | (.ok _, world) => executeAll entry command quotes rest world

def execute (catalog : Catalog ω) (quotes : List Char) (invocation : Invocation) (world : ω) :
    Except ExecutionError Unit × ω :=
  match catalog.entry invocation.name with
  | .error cause => (.error (.catalog cause), world)
  | .ok entry =>
    match invocation.ordered catalog with
    | .error cause => (.error (.catalog cause), world)
    | .ok occurrences => executeAll entry invocation.name quotes occurrences world

end Invocation

end CommandEngine
