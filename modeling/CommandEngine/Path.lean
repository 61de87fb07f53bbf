import CommandEngine.Text.Quoted
/-!
# Paths

A path says how to descend from a node: step by step, each step naming a child and how many children
of that name to pass over first. Its text joins the steps by `/`, and a step that passes over some
children says how many in brackets after the name, as in `outer/inner[1]`.

Reading a step cuts it where the name ends, at the first character that no name can have, and then
only the shape of what is left matters: nothing, or digits in brackets whose value fits in 64 bits.
A name may be any other text, line breaks included.
-/

namespace CommandEngine

/-- One step of a path. -/
structure PathStep where
  name : String
  /-- How many children of that name to pass over. -/
  skip : UInt64
  deriving DecidableEq

/-- A way to descend from a node. -/
structure Path where
  steps : List PathStep
  deriving DecidableEq

/-- Why a text is not a path. -/
inductive PathError
  | empty
  | badStep (part : String)
  deriving DecidableEq

def PathError.message : PathError → String
  | .empty => "empty path"
  | .badStep part => "malformed path segment: " ++ Text.quoteText part

def PathStep.text (step : PathStep) : String :=
  if step.skip == 0 then step.name
  else step.name ++ "[" ++ toString step.skip.toNat ++ "]"

def Path.text (path : Path) : String := "/".intercalate (path.steps.map PathStep.text)

namespace PathStep

/-- Whether a character can be part of a name. -/
def isNameChar (c : Char) : Bool := c != '[' && c != ']' && c != '/'

/-- The number in brackets after a name: at least one decimal digit, the value below `2 ^ 64`. -/
def skipOfChars? : List Char → Option UInt64
  | '[' :: rest =>
    let digits := rest.takeWhile Char.isDigit
    let value := Nat.ofDigitChars 10 digits 0
    if digits.isEmpty || rest.dropWhile Char.isDigit != [']'] || UInt64.size ≤ value then none
    else some (UInt64.ofNat value)
  | _ => none

/-- The step that a part of a path spells. -/
def ofChars? (part : List Char) : Option PathStep :=
  let name := part.takeWhile isNameChar
  let rest := part.dropWhile isNameChar
  if name.isEmpty then none
  else if rest.isEmpty then some ⟨String.ofList name, 0⟩
  else (skipOfChars? rest).map (⟨String.ofList name, ·⟩)

end PathStep

namespace Path

/-- The steps that the parts of a path spell, or the first part that spells none. -/
def stepsOfParts : List (List Char) → Except PathError (List PathStep)
  | [] => .ok []
  | part :: rest =>
    match PathStep.ofChars? part with
    | none => .error (.badStep (String.ofList part))
    | some step => (stepsOfParts rest).map (step :: ·)

/-- The path that a text spells. -/
def ofText (text : String) : Except PathError Path :=
  if text.isEmpty then .error .empty
  else (stepsOfParts (text.toList.splitOn '/')).map (⟨·⟩)

end Path

end CommandEngine
