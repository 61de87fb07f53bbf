import CommandEngine.Catalog
import CommandEngine.Selection
/-!
# Invocations

An invocation is a command as it will run: its name and the occurrences of its options, each with
its arguments. The same option may occur several times and every occurrence runs. An occurrence
carries a rank, its number among the occurrences attached at the same registered priority, and it
keeps that rank for good: detaching an occurrence lowers no other rank, nor does renaming.

The count of occurrences attached at each priority is therefore part of the invocation and only
ever grows. An edit is a function to an answer together with the invocation afterwards, whether it
succeeds or is refused; `Invocation.Edit` lists the edits as data.
-/

namespace CommandEngine

/-- An option that will run, with its arguments. -/
structure Occurrence where
  option : String
  arguments : List String
  /-- Its number, from one, among those attached at the same priority. -/
  rank : Nat
  deriving DecidableEq

namespace Occurrence

/-- The text of an occurrence: the option and its arguments in brackets. -/
def text (occurrence : Occurrence) : String :=
  occurrence.option ++ "=[" ++ ", ".intercalate occurrence.arguments ++ "]"

/-- The occurrence with further arguments. -/
def extend (occurrence : Occurrence) (arguments : List String) : Occurrence :=
  { occurrence with arguments := occurrence.arguments ++ arguments }

/-- The occurrence under another option of a command; no name and a blank one mean the main
option. -/
def rename {ω : Type} (entry : Entry ω) (occurrence : Occurrence) (name : Option String) :
    Except CatalogError Unit × Occurrence :=
  let option := entry.resolve name
  match entry.definition option with
  | .error cause => (.error cause, occurrence)
  | .ok _ => (.ok (), { occurrence with option })

end Occurrence

/-- A command with the options that will run. -/
structure Invocation where
  name : String
  occurrences : List Occurrence := []
  /-- How many occurrences were ever attached at each priority. -/
  counts : Table Int32 Nat := {}
  deriving DecidableEq

namespace Invocation

variable {ω : Type}

/-- The text of an invocation: the command and its occurrences in brackets. -/
def text (invocation : Invocation) : String :=
  invocation.name ++ "[" ++ ", ".intercalate (invocation.occurrences.map Occurrence.text) ++ "]"

/-- The invocation of a command without options. -/
def ofName (catalog : Catalog ω) (name : String) : Except CatalogError Invocation :=
  (catalog.entry name).map fun _ => { name }

/-- How many occurrences were ever attached at a priority. -/
def countAt (invocation : Invocation) (priority : Int32) : Nat :=
  (invocation.counts.get? priority).getD 0

/-- Attach an occurrence at a priority. -/
def push (invocation : Invocation) (priority : Int32) (option : String)
    (arguments : List String) : Invocation :=
  let rank := invocation.countAt priority + 1
  { invocation with
    occurrences := invocation.occurrences ++ [⟨option, arguments, rank⟩]
    counts := invocation.counts.insert priority rank }

@[simp]
theorem name_push (invocation : Invocation) (priority : Int32) (option : String)
    (arguments : List String) :
    (invocation.push priority option arguments).name = invocation.name := rfl

@[simp]
theorem countAt_push_self (invocation : Invocation) (priority : Int32) (option : String)
    (arguments : List String) :
    (invocation.push priority option arguments).countAt priority =
      invocation.countAt priority + 1 := by
  simp [countAt, push]

/-- Attach an occurrence of an option; no name and a blank one mean the main option. -/
def attach (catalog : Catalog ω) (invocation : Invocation) (option : Option String)
    (arguments : List String) : Except CatalogError Unit × Invocation :=
  match catalog.entry invocation.name with
  | .error cause => (.error cause, invocation)
  | .ok entry =>
    let name := entry.resolve option
    match entry.definition name with
    | .error cause => (.error cause, invocation)
    | .ok definition => (.ok (), invocation.push definition.priority name arguments)

/-- Attach an occurrence for each selection, up to the first that is refused. -/
def attachAll (catalog : Catalog ω) (invocation : Invocation) :
    List Selection → Except CatalogError Unit × Invocation
  | [] => (.ok (), invocation)
  | selection :: rest =>
    match invocation.attach catalog (some selection.option) selection.arguments with
    | (.error cause, invocation) => (.error cause, invocation)
    | (.ok _, invocation) => invocation.attachAll catalog rest

/-- The invocation of a command with the options that were selected. -/
def ofSelections (catalog : Catalog ω) (name : String) (selections : List Selection) :
    Except CatalogError Invocation :=
  match ofName catalog name with
  | .error cause => .error cause
  | .ok invocation =>
    let (answer, invocation) := invocation.attachAll catalog selections
    answer.map fun _ => invocation

def find? (invocation : Invocation) (option : String) : Option Occurrence :=
  invocation.occurrences.find? (·.option == option)

/-- The invocation without the first occurrence of an option. -/
def detach (invocation : Invocation) (option : String) : Invocation :=
  { invocation with occurrences := invocation.occurrences.eraseP (·.option == option) }

/-- Change the first occurrence of an option in a list. -/
def changeFirst (option : String) (change : Occurrence → Occurrence) :
    List Occurrence → List Occurrence
  | [] => []
  | occurrence :: rest =>
    if occurrence.option == option then change occurrence :: rest
    else occurrence :: changeFirst option change rest

/-- The invocation with further arguments for the first occurrence of an option. -/
def addArguments (invocation : Invocation) (option : String) (arguments : List String) :
    Invocation :=
  { invocation with
    occurrences := changeFirst option (·.extend arguments) invocation.occurrences }

/-- The invocation under the name of another command, which must have every option that is
attached. -/
def rename (catalog : Catalog ω) (invocation : Invocation) (name : String) :
    Except CatalogError Unit × Invocation :=
  match catalog.entry name with
  | .error cause => (.error cause, invocation)
  | .ok entry =>
    match entry.requireOptions (invocation.occurrences.map Occurrence.option) with
    | .error cause => (.error cause, invocation)
    | .ok _ => (.ok (), { invocation with name })

/-- The invocation whose first occurrence of an option goes under another option of a command. An
option that does not occur leaves everything as it is. -/
def renameOption (entry : Entry ω) (invocation : Invocation) (option : String)
    (name : Option String) : Except CatalogError Unit × Invocation :=
  match invocation.find? option with
  | none => (.ok (), invocation)
  | some occurrence =>
    let (answer, renamed) := occurrence.rename entry name
    (answer, { invocation with
      occurrences := changeFirst option (fun _ => renamed) invocation.occurrences })

/-- The invocation whose occurrence at a position goes under another option of a command. The one
attached last is handed out by position, whatever occurrences of its option stand before it. -/
def renameAt (entry : Entry ω) (invocation : Invocation) (index : Nat) (name : Option String) :
    Except CatalogError Unit × Invocation :=
  match invocation.occurrences[index]? with
  | none => (.ok (), invocation)
  | some occurrence =>
    let (answer, renamed) := occurrence.rename entry name
    (answer, { invocation with occurrences := invocation.occurrences.set index renamed })

/-- An edit of an invocation. -/
inductive Edit
  | attach (option : Option String) (arguments : List String)
  | detach (option : String)
  | addArguments (option : String) (arguments : List String)
  | rename (name : String)
  | renameOption (option : String) (name : Option String)
  | renameAt (index : Nat) (name : Option String)
  deriving DecidableEq

/-- Whether an edit is accepted, and the invocation afterwards. -/
def apply (catalog : Catalog ω) (invocation : Invocation) :
    Edit → Except CatalogError Unit × Invocation
  | .attach option arguments => invocation.attach catalog option arguments
  | .detach option => (.ok (), invocation.detach option)
  | .addArguments option arguments => (.ok (), invocation.addArguments option arguments)
  | .rename name => invocation.rename catalog name
  | .renameOption option name =>
    match catalog.entry invocation.name with
    | .error cause => (.error cause, invocation)
    | .ok entry => invocation.renameOption entry option name
  | .renameAt index name =>
    match catalog.entry invocation.name with
    | .error cause => (.error cause, invocation)
    | .ok entry => invocation.renameAt entry index name

/-- The invocation after a sequence of edits, accepted or refused. -/
def applyAll (catalog : Catalog ω) (invocation : Invocation) (edits : List Edit) : Invocation :=
  edits.foldl (fun invocation edit => (invocation.apply catalog edit).2) invocation

@[simp]
theorem applyAll_nil (catalog : Catalog ω) (invocation : Invocation) :
    invocation.applyAll catalog [] = invocation := rfl

@[simp]
theorem applyAll_cons (catalog : Catalog ω) (invocation : Invocation) (edit : Edit)
    (rest : List Edit) :
    invocation.applyAll catalog (edit :: rest) =
      (invocation.apply catalog edit).2.applyAll catalog rest := rfl

end Invocation

end CommandEngine
