import CommandEngine.Catalog.Entry
/-!
# The catalog of commands

A catalog holds the commands that may be written, each with its options. A lookup is strict: it
either finds the command or says that there is none. Registering is lenient about the command, which
comes into being under the default policy when it is first named, and strict about option names.

A change of the catalog is a function to a result together with the catalog afterwards, whether it
succeeds or is refused, because a refused registration has already brought its command into being.
`Catalog.Change` lists the changes as data, so that what holds after any sequence of them can be
said.
-/

namespace CommandEngine

/-- The commands that may be written. -/
structure Catalog (ω : Type) where
  entries : Table String (Entry ω) := {}

/-- The name of the command that heads every tree and does nothing. -/
def idleCommand : String := "__NOP__"

namespace Catalog

variable {ω : Type} {α : Type}

/-- Whether there is a command of a name. -/
def contains (catalog : Catalog ω) (main : String) : Bool := catalog.entries.contains main

def names (catalog : Catalog ω) : List String := catalog.entries.keys

/-- The entry of a command. -/
def entry (catalog : Catalog ω) (main : String) : Except CatalogError (Entry ω) :=
  match catalog.entries.get? main with
  | some entry => .ok entry
  | none => .error (.noSuchCommand main)

/-- The definition of an option of a command. -/
def definition (catalog : Catalog ω) (main option : String) :
    Except CatalogError (Definition ω) :=
  (catalog.entry main).bind (·.definition option)

/-- The catalog with an entry put in place of the one of its command. -/
def put (catalog : Catalog ω) (main : String) (entry : Entry ω) : Catalog ω :=
  ⟨catalog.entries.insert main entry⟩

/-- Putting an entry in place changes the entry of its command and of no other. -/
theorem get?_put (catalog : Catalog ω) (main other : String) (entry : Entry ω) :
    (catalog.put main entry).entries.get? other =
      if main = other then some entry else catalog.entries.get? other :=
  Table.get?_insert _ _ _ _

/-- The entry of a command, a new one under the default policy if there is none. -/
def entryOrNew (catalog : Catalog ω) (main : String) : Entry ω :=
  match catalog.entries.get? main with
  | some entry => entry
  | none => .ofPolicy main {}

/-- Let the entry of a command change, which must exist. Whatever the change leaves of the entry is
kept, also if it is refused. -/
def update (catalog : Catalog ω) (main : String)
    (change : Entry ω → Except CatalogError α × Entry ω) : Except CatalogError α × Catalog ω :=
  match catalog.entry main with
  | .error cause => (.error cause, catalog)
  | .ok entry =>
    let (answer, changed) := change entry
    (answer, catalog.put main changed)

/-- Bring a command into being under a policy of its own. -/
def define (catalog : Catalog ω) (main : String) (policy : Policy) :
    Except CatalogError Unit × Catalog ω :=
  if catalog.contains main then (.error (.settledPolicy main), catalog)
  else (.ok (), catalog.put main (.ofPolicy main policy))

/-- Register the main option of a command. -/
def setMain (catalog : Catalog ω) (main : String) (action : Action ω) : Catalog ω :=
  catalog.put main ((catalog.entryOrNew main).setMain action)

/-- Register names of options other than the main one. The first reserved name is refused. -/
def registerNames (catalog : Catalog ω) (main : String) (names : List String)
    (action : Action ω) : Except CatalogError Unit × Catalog ω :=
  let entry := catalog.entryOrNew main
  match names.find? entry.reserves with
  | some reserved => (.error (.reservedName reserved), catalog.put main entry)
  | none => (.ok (), catalog.put main (entry.setAliases names action))

/-- Register an option; no name and a blank name mean the main option. -/
def register (catalog : Catalog ω) (main : String) (option : Option String)
    (action : Action ω) : Except CatalogError Unit × Catalog ω :=
  match option with
  | some name =>
    if Text.isBlankText name then (.ok (), catalog.setMain main action)
    else catalog.registerNames main [name] action
  | none => (.ok (), catalog.setMain main action)

/-- Register several names for one action; no names at all mean the main option. -/
def registerGroup (catalog : Catalog ω) (main : String) (names : List String)
    (action : Action ω) : Except CatalogError Unit × Catalog ω :=
  if names.isEmpty then (.ok (), catalog.setMain main action)
  else catalog.registerNames main names action

/-- Take options of a command away, all of which must exist. -/
def withdraw (catalog : Catalog ω) (main : String) (options : List String) :
    Except CatalogError Unit × Catalog ω :=
  catalog.update main fun entry => entry.withdraw options

/-- Take a command away with all its options. -/
def withdrawCommand (catalog : Catalog ω) (main : String) :
    Except CatalogError Unit × Catalog ω :=
  if catalog.contains main then (.ok (), ⟨catalog.entries.erase main⟩)
  else (.error (.noSuchCommand main), catalog)

/-- Freeze the priorities of a command, or release them. -/
def switchFreezing (catalog : Catalog ω) (main : String) :
    Except CatalogError Bool × Catalog ω :=
  catalog.update main fun entry => entry.switchFreezing main

/-- Make the main option of a command run after all others. -/
def putMainLast (catalog : Catalog ω) (main : String) : Except CatalogError Unit × Catalog ω :=
  catalog.update main fun entry => (.ok (), entry.putMainLast)

/-- Let the sequence of priorities of a command go on just below the main option. -/
def continueBelowMain (catalog : Catalog ω) (main : String) :
    Except CatalogError Unit × Catalog ω :=
  catalog.update main fun entry => (.ok (), entry.continueBelowMain)

/-- The catalog that holds nothing but the idle command. -/
def initial : Catalog ω := setMain {} idleCommand Action.idle

/-- A change of a catalog. -/
inductive Change (ω : Type)
  | define (main : String) (policy : Policy)
  | register (main : String) (option : Option String) (action : Action ω)
  | registerGroup (main : String) (names : List String) (action : Action ω)
  | withdraw (main : String) (options : List String)
  | withdrawCommand (main : String)
  | switchFreezing (main : String)
  | putMainLast (main : String)
  | continueBelowMain (main : String)

/-- The command that a change names. -/
def Change.main : Change ω → String
  | .define main _ => main
  | .register main _ _ => main
  | .registerGroup main _ _ => main
  | .withdraw main _ => main
  | .withdrawCommand main => main
  | .switchFreezing main => main
  | .putMainLast main => main
  | .continueBelowMain main => main

/-- Whether a change is accepted, and the catalog afterwards. -/
def apply (catalog : Catalog ω) : Change ω → Except CatalogError Unit × Catalog ω
  | .define main policy => catalog.define main policy
  | .register main option action => catalog.register main option action
  | .registerGroup main names action => catalog.registerGroup main names action
  | .withdraw main options => catalog.withdraw main options
  | .withdrawCommand main => catalog.withdrawCommand main
  | .switchFreezing main =>
    let (state, changed) := catalog.switchFreezing main
    (state.map fun _ => (), changed)
  | .putMainLast main => catalog.putMainLast main
  | .continueBelowMain main => catalog.continueBelowMain main

/-- The catalog after a sequence of changes, accepted or refused. -/
def applyAll (catalog : Catalog ω) (changes : List (Change ω)) : Catalog ω :=
  changes.foldl (fun catalog change => (catalog.apply change).2) catalog

@[simp]
theorem applyAll_nil (catalog : Catalog ω) : catalog.applyAll [] = catalog := rfl

@[simp]
theorem applyAll_cons (catalog : Catalog ω) (change : Change ω) (rest : List (Change ω)) :
    catalog.applyAll (change :: rest) = (catalog.apply change).2.applyAll rest := rfl

/-- Changes made in succession are the changes of the two sequences in turn. -/
theorem applyAll_append (catalog : Catalog ω) (front back : List (Change ω)) :
    catalog.applyAll (front ++ back) = (catalog.applyAll front).applyAll back :=
  List.foldl_append

end Catalog

end CommandEngine
