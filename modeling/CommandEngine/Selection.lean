import CommandEngine.Catalog.Entry
import CommandEngine.OptionWord
/-!
# Selecting options

The words after a command name select options of that command and give them arguments. An option
word opens the options it names; any other word is an argument of the option opened last. If the
words do not begin with an option word, the main option is opened before them; a bare dash opens
nothing, so an argument may still come before any option, and then the main option is opened for it.

Only registered options can be opened. The selections made so far are kept newest first, so that
both opening an option and adding an argument work on the front of a list, and the first name that
is no option decides the outcome whatever follows it.
-/

namespace CommandEngine

/-- An option as it was selected, with the arguments written for it. -/
structure Selection where
  option : String
  arguments : List String := []
  deriving DecidableEq

namespace Selection

/-- Add an argument to the newest selection. -/
def addArgument (word : String) : List Selection → List Selection
  | [] => []
  | newest :: older => { newest with arguments := newest.arguments ++ [word] } :: older

@[simp]
theorem addArgument_nil (word : String) : addArgument word [] = [] := rfl

@[simp]
theorem addArgument_cons (word : String) (newest : Selection) (older : List Selection) :
    addArgument word (newest :: older) =
      { newest with arguments := newest.arguments ++ [word] } :: older := rfl

end Selection

namespace Entry

variable {ω : Type}

/-- Open an option, which must be registered; otherwise its name is the error. -/
def openOption (entry : Entry ω) (opened : List Selection) (name : String) :
    Except String (List Selection) :=
  if entry.hasOption name then .ok (⟨name, []⟩ :: opened) else .error name

/-- Open several options in turn. -/
def openOptions (entry : Entry ω) (opened : List Selection) :
    List String → Except String (List Selection)
  | [] => .ok opened
  | name :: rest =>
    match entry.openOption opened name with
    | .error unknown => .error unknown
    | .ok opened => entry.openOptions opened rest

/-- Take one word: open the options it names, or add it as an argument. -/
def selectWord (entry : Entry ω) (opened : List Selection) (word : String) :
    Except String (List Selection) :=
  if isOptionWord word then entry.openOptions opened (openedNames word)
  else if opened.isEmpty then
    (entry.openOption opened entry.mainOption).map (Selection.addArgument word)
  else .ok (Selection.addArgument word opened)

/-- Take several words in turn. -/
def selectWords (entry : Entry ω) (opened : List Selection) :
    List String → Except String (List Selection)
  | [] => .ok opened
  | word :: rest =>
    match entry.selectWord opened word with
    | .error unknown => .error unknown
    | .ok opened => entry.selectWords opened rest

/-- Whether the words begin with an option word. -/
def beginsWithOption : List String → Bool
  | [] => false
  | word :: _ => isOptionWord word

/-- The selections that the words after a command name make, in order, or the first name opened that
is no option of the command. -/
def select (entry : Entry ω) (words : List String) : Except String (List Selection) :=
  let start :=
    if beginsWithOption words then .ok [] else entry.openOption [] entry.mainOption
  match start with
  | .error unknown => .error unknown
  | .ok opened => (entry.selectWords opened words).map List.reverse

end Entry

end CommandEngine
