/-!
# Statements

Text is read into statements. A statement is a command, given by its words as they were written, or
one of the two marks between which commands are nested. The first word of a command names it; the
others are its options and their arguments.
-/

namespace CommandEngine

/-- One unit of a program text. -/
inductive Statement
  | command (words : List String)
  | openBlock
  | closeBlock
  deriving DecidableEq

namespace Statement

/-- The words of a command. -/
def words? : Statement → Option (List String)
  | command words => some words
  | openBlock => none
  | closeBlock => none

/-- The first word of a command. -/
def name? : Statement → Option String
  | command (name :: _) => some name
  | command [] => none
  | openBlock => none
  | closeBlock => none

end Statement

end CommandEngine
