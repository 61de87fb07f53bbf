import CommandEngine.Text.Quoted
/-!
# Why the catalog refuses

Every lookup and registration that can be refused is refused for one of five causes. The wording of
a cause is one function, so that no other module puts together a message about the catalog.
-/

namespace CommandEngine

/-- Why a lookup in the catalog or a change of it is refused. -/
inductive CatalogError
  | /-- The command already exists, so its policy is settled. -/
    settledPolicy (main : String)
  | /-- The name is blank, or reserved for the main option. -/
    reservedName (name : String)
  | /-- Priorities that are not handed out in sequence cannot be frozen. -/
    notSequential (main : String)
  | noSuchCommand (main : String)
  | noSuchOption (main option : String)
  deriving DecidableEq

def CatalogError.message : CatalogError → String
  | settledPolicy main =>
    "no need to set command configuration for existing main command: " ++ main
  | reservedName name => "invalid option name: " ++ Text.quoteText name
  | notSequential main =>
    "cannot toggle priority freezing for '" ++ main
      ++ "' when priority is not registered automatically"
  | noSuchCommand main => "main command not found: " ++ main
  | noSuchOption main option =>
    "option not found: " ++ option ++ " (main command '" ++ main ++ "')"

end CommandEngine
