import CommandEngine.Quotation
/-!
# Actions of the host

The host that uses the engine supplies what its options do. The engine knows nothing of the world
such an action changes, so the world is a type variable: an action takes the arguments of one
occurrence and a world, and returns the changed world together with success or the reason of its
failure. A failing action may have changed the world before it failed. What runs, and in which
order, can then be read off the world alone.
-/

namespace CommandEngine

/-- What an option does with its arguments. -/
abbrev Action (ω : Type) : Type := List Argument → ω → Except String Unit × ω

/-- The action that does nothing. -/
def Action.idle {ω : Type} : Action ω := fun _ world => (.ok (), world)

/-- What is done about an unknown command or option, given its name. -/
abbrev Handler (ω : Type) : Type := String → ω → Except String Unit × ω

/-- A world on which text can be shown. -/
class Console (ω : Type) where
  write : String → ω → ω

/-- The handler that shows the name after a label and carries on. -/
def Handler.announce {ω : Type} [Console ω] (label : String) : Handler ω :=
  fun name world => (.ok (), Console.write (label ++ name ++ "\n") world)

end CommandEngine
