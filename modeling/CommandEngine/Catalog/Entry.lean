import CommandEngine.Action
import CommandEngine.Catalog.Refusal
import CommandEngine.Table
import CommandEngine.Text.Blank
/-!
# One command of the catalog

An entry of the catalog is a command with its options. Each option has a priority, and the options
of one invocation run in descending order of priority. The main option, which takes the words that
follow no other option, has priority zero; the others get theirs from the policy of the command,
either all the same or in descending sequence.

The sequence is a cursor that falls by one with every registration and stops at the least priority
there is. While the entry is frozen, registrations share the priority handed out last instead. An
entry hands out a priority in one place, `Entry.handOut`, and that is the only function that
moves the cursor.
-/

namespace CommandEngine

/-- How the options of a command get their names and priorities. -/
structure Policy where
  mainOption : String := "_DEFAULT_"
  /-- The priority of all other options, or of the first of them. -/
  base : Int32 := 0
  /-- Whether priorities descend from the base, one for each registration. -/
  isSequential : Bool := false
  deriving DecidableEq

/-- What is registered for an option. -/
structure Definition (ω : Type) where
  /-- Options of higher priority run first. -/
  priority : Int32
  action : Action ω

/-- The description of a definition; an action has no text. -/
def Definition.description {ω : Type} (definition : Definition ω) : String :=
  "OptionDef \x7b priority: " ++ toString definition.priority.toInt ++ ", task: Task(..) \x7d"

def mainPriority : Int32 := 0

/-- The next lower priority; the least one has none below it. -/
def lowered (priority : Int32) : Int32 :=
  if priority = Int32.minValue then priority else priority - 1

/-- A command with its options. -/
structure Entry (ω : Type) where
  name : String
  policy : Policy
  options : Table String (Definition ω) := {}
  /-- The priority the sequence hands out next. -/
  cursor : Int32
  /-- The priority the sequence handed out last. -/
  lastAssigned : Option Int32 := none
  /-- Whether registrations share the priority handed out last. -/
  isFrozen : Bool := false
  mainIsLast : Bool := false

namespace Entry

variable {ω : Type}

/-- The entry of a new command. -/
def ofPolicy (name : String) (policy : Policy) : Entry ω :=
  { name, policy, cursor := policy.base }

/-- The name of the main option. -/
def mainOption (entry : Entry ω) : String := entry.policy.mainOption

/-- The option meant by a name: no name and a blank name mean the main option. -/
def resolve (entry : Entry ω) : Option String → String
  | some name => if Text.isBlankText name then entry.mainOption else name
  | none => entry.mainOption

def hasOption (entry : Entry ω) (option : String) : Bool := entry.options.contains option

/-- The definition of an option. -/
def definition (entry : Entry ω) (option : String) : Except CatalogError (Definition ω) :=
  match entry.options.get? option with
  | some definition => .ok definition
  | none => .error (.noSuchOption entry.name option)

/-- The priority by which an option runs: the registered one, unless the main option runs last. -/
def runningPriority (entry : Entry ω) (option : String) : Except CatalogError Int32 :=
  (entry.definition option).map fun definition =>
    if entry.mainIsLast && option == entry.mainOption then Int32.minValue
    else definition.priority

/-- Check that every name is a registered option; the first that is not is refused. -/
def requireOptions (entry : Entry ω) : List String → Except CatalogError Unit
  | [] => .ok ()
  | name :: rest =>
    match entry.definition name with
    | .error cause => .error cause
    | .ok _ => entry.requireOptions rest

/-- The entry with a definition for its main option. -/
def setMain (entry : Entry ω) (action : Action ω) : Entry ω :=
  { entry with options := entry.options.insert entry.mainOption ⟨mainPriority, action⟩ }

/-- Whether a name cannot be given to an option other than the main one. -/
def reserves (entry : Entry ω) (name : String) : Bool :=
  Text.isBlankText name || name == entry.mainOption

def handOut (entry : Entry ω) : Int32 × Entry ω :=
  if !entry.policy.isSequential then (entry.policy.base, entry)
  else
    match entry.isFrozen, entry.lastAssigned with
    | true, some shared => (shared, entry)
    | _, _ =>
      (entry.cursor,
        { entry with cursor := lowered entry.cursor, lastAssigned := some entry.cursor })

/-- The entry with several names for one action, all of one priority. -/
def setAliases (entry : Entry ω) (names : List String) (action : Action ω) : Entry ω :=
  let (priority, entry) := entry.handOut
  { entry with options := entry.options.insertAll names ⟨priority, action⟩ }

/-- The entry without some of its options. -/
def eraseOptions (entry : Entry ω) (names : List String) : Entry ω :=
  { entry with options := entry.options.eraseAll names }

/-- Take options away, all of which must exist; no names at all mean the main option. -/
def withdraw (entry : Entry ω) (options : List String) : Except CatalogError Unit × Entry ω :=
  let names := if options.isEmpty then [entry.mainOption] else options.map (entry.resolve ∘ some)
  match entry.requireOptions names with
  | .error cause => (.error cause, entry)
  | .ok _ => (.ok (), entry.eraseOptions names)

/-- Freeze the priorities of a command, or release them; the answer is the new state. -/
def switchFreezing (entry : Entry ω) (main : String) : Except CatalogError Bool × Entry ω :=
  if entry.policy.isSequential then
    (.ok !entry.isFrozen, { entry with isFrozen := !entry.isFrozen })
  else (.error (.notSequential main), entry)

/-- Make the main option run after all others. -/
def putMainLast (entry : Entry ω) : Entry ω := { entry with mainIsLast := true }

/-- Let the sequence of priorities go on just below the main option. -/
def continueBelowMain (entry : Entry ω) : Entry ω :=
  { entry with cursor := mainPriority - 1, lastAssigned := none }

end Entry

end CommandEngine
