/-!
# Arguments and the quotes around them

A task receives its arguments as they were written, quotes included. Whether a text counts as
quoted, and what it says without its quotes, are views of the text under a list of quote
characters: a text is quoted when it has at least two characters and the first, which is a quote,
is also the last. The text alone decides; no record is kept of how it was read.
-/

namespace CommandEngine

/-- The quote character that a text both starts and ends with. -/
def enclosingQuote (quotes : List Char) (text : String) : Option Char :=
  match text.toList with
  | [] => none
  | first :: rest =>
    if quotes.contains first && rest.getLast? == some first then some first else none

/-- The text without the quotes around it, if there are any. -/
def unquote (quotes : List Char) (text : String) : String :=
  match enclosingQuote quotes text with
  | some _ => String.ofList text.toList.tail.dropLast
  | none => text

/-- A text between two copies of a quote is quoted by it. -/
theorem enclosingQuote_wrapped {quotes : List Char} {quote : Char} (known : quote ∈ quotes)
    (body : List Char) :
    enclosingQuote quotes (String.ofList (quote :: (body ++ [quote]))) = some quote := by
  simp [enclosingQuote, known]

/-- Removing the quotes around a text leaves the text. -/
theorem unquote_wrapped {quotes : List Char} {quote : Char} (known : quote ∈ quotes)
    (body : List Char) :
    unquote quotes (String.ofList (quote :: (body ++ [quote]))) = String.ofList body := by
  rw [unquote, enclosingQuote_wrapped known]
  simp

/-- One argument as a task sees it: the text, and the characters that count as quotes. -/
structure Argument where
  text : String
  quotes : List Char
  deriving DecidableEq

namespace Argument

/-- The quote character around the argument. -/
def quote? (argument : Argument) : Option Char := enclosingQuote argument.quotes argument.text

def hasQuotes (argument : Argument) : Bool := argument.quote?.isSome

/-- The argument without the quotes around it. -/
def trimmed (argument : Argument) : String := unquote argument.quotes argument.text

end Argument

end CommandEngine
