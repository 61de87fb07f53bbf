import CommandEngine.Session
import CommandEngine.Text.Upper
/-!
# Commands of the demonstration program

Three commands show what the engine does. `echo` says its words, in capitals under one option.
`deploy` has options that run in a fixed order wherever they are written: the check before the
deployment and the notification after it, by way of descending priorities that pass below the main
option between the two registrations. `fail` fails, and says with how many arguments.
-/

namespace CommandEngine.Demo

variable {ω : Type} [Console ω]

/-- The action that shows its arguments, each in some form, on a line of their own. -/
def say (label : String) (form : String → String) : Action ω := fun arguments world =>
  let words := arguments.map fun argument => form argument.trimmed
  (.ok (), Console.write (label ++ " ".intercalate words ++ "\n") world)

def giveUp : Action ω := fun arguments world =>
  (.error ("asked to fail with " ++ toString arguments.length ++ " argument(s)"), world)

/-- The registrations of the demonstration commands, in order. -/
def registrations : List (Catalog.Change ω) := [
  .register "echo" none (say "" id),
  .register "echo" (some "u") (say "" Text.upper),
  .define "deploy" { base := 1, isSequential := true },
  .register "deploy" (some "check") (say "checking: " id),
  .continueBelowMain "deploy",
  .register "deploy" none (say "deploying: " id),
  .registerGroup "deploy" ["n", "notify"] (say "notifying: " id),
  .register "fail" none giveUp]

/-- The catalog of the demonstration program. -/
def catalog : Catalog ω := Catalog.initial.applyAll registrations

end CommandEngine.Demo
