import CommandEngine.Grammar
/-!
# Describing a grammar

The description of a grammar is the text a developer sees when a configuration is printed: a record
with the five structuring characters, characters in single quotes, an absent one as `None`. It ends
in two dots because a configuration also holds functions, which have no text.
-/

namespace CommandEngine.Grammar

/-- A value that may be missing. -/
private def describeOption {α : Type} (describe : α → String) : Option α → String
  | some value => "Some(" ++ describe value ++ ")"
  | none => "None"

/-- The two block marks as a pair. -/
private def describeMarks (marks : BlockMarks) : String :=
  "(" ++ Text.quoteChar marks.opening ++ ", " ++ Text.quoteChar marks.closing ++ ")"

def description (g : Grammar) : String :=
  "ParserConfig \x7b quotes: [" ++ ", ".intercalate (g.quotes.map Text.quoteChar)
    ++ "], delimiter: " ++ Text.quoteChar g.delimiter
    ++ ", escape: " ++ describeOption Text.quoteChar g.escape
    ++ ", end_of_statement: " ++ describeOption Text.quoteChar g.terminator
    ++ ", block_chars: " ++ describeOption describeMarks g.blocks
    ++ ", .. \x7d"

end CommandEngine.Grammar
