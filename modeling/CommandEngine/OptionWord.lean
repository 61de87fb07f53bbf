/-!
# Option words

Among the words after a command name, those that start with a dash open options. A word with two
dashes opens one option, named by what follows the last dash of the word; a word with one dash opens
an option for each of its other characters. The bare dash is an option word that opens nothing.
-/

namespace CommandEngine

/-- Whether a word opens options. -/
def isOptionWord (word : String) : Bool :=
  match word.toList with
  | '-' :: _ => true
  | _ => false

/-- What follows the last dash of a word, the whole word if it has none. -/
def afterLastDash (cs : List Char) : List Char := (cs.reverse.takeWhile (· != '-')).reverse

/-- The options that a word opens, in order. -/
def openedNames (word : String) : List String :=
  match word.toList with
  | '-' :: '-' :: rest => [String.ofList (afterLastDash rest)]
  | '-' :: letters => letters.map String.singleton
  | _ => []

end CommandEngine
