import CommandEngine.Grammar
import CommandEngine.Statement
import CommandEngine.Text.Blank
/-!
# Reading text into statements

Text arrives in pieces and a statement may span several of them. Between two pieces a `Scanner`
holds the words of the unfinished statement and the quotations still open; while a piece is read, a
`Scan` holds the word being read as well. Reading a piece resumes a scan from the scanner, lets each
character change the scan, and closes it again.

The central decision is that a single character is the unit of work: `Scan.step` is one function of
the scan and a character, and reading a piece is a left fold of it. The only effect that reaches
over a character boundary, an escape waiting for the character it applies to, is a field of the
scan. Reading a piece in two parts is therefore reading the parts in turn, and what it means for a
text to arrive in two pieces comes down to what `Scan.close` followed by `Scanner.resume` does.

An open quotation is carried verbatim: its word is stored untrimmed as the last pending word and
taken up again by the next piece. Every other word is trimmed when it ends.
-/

namespace CommandEngine

/-- What is kept between two pieces of text. -/
structure Scanner where
  /-- The quote characters of the open quotations, innermost first. -/
  openQuotes : List Char := []
  pending : List String := []
  deriving DecidableEq

/-- What is known in the middle of a piece of text. -/
structure Scan where
  openQuotes : List Char
  word : String
  /-- The words of the statement being read, without the one being read. -/
  words : List String
  statements : List Statement
  /-- The escape character that waits for the character it applies to. -/
  escape : Option Char
  deriving DecidableEq

namespace Scan

/-- Whether a quotation is open. -/
def isQuoted (s : Scan) : Bool := !s.openQuotes.isEmpty

/-- Add a character to the word being read. -/
def extend (s : Scan) (c : Char) : Scan := { s with word := s.word.push c }

/-- End the word being read; a blank word leaves no trace. -/
def endWord (s : Scan) : Scan :=
  let word := Text.trim s.word
  { s with word := "", words := if word.isEmpty then s.words else s.words ++ [word] }

/-- Add a statement. -/
def emit (s : Scan) (statement : Statement) : Scan :=
  { s with statements := s.statements ++ [statement] }

/-- End the statement being read; a statement without words leaves no trace. -/
def endStatement (s : Scan) : Scan :=
  if s.words.isEmpty then s else { s.emit (.command s.words) with words := [] }

/-- The open quotations after a quote character: it closes the innermost one if it matches, else it
opens another. -/
def toggleQuote (c : Char) : List Char → List Char
  | [] => [c]
  | innermost :: outer => if innermost == c then outer else c :: innermost :: outer

/-- Take a quote character: it belongs to the word, and closing the last quotation ends the word. -/
def takeQuote (s : Scan) (c : Char) : Scan :=
  let toggled := { s.extend c with openQuotes := toggleQuote c s.openQuotes }
  if toggled.isQuoted then toggled else toggled.endWord

/-- Take the character after an escape: it loses its meaning, and an escaped quote keeps the escape
before it, so that the word still shows that it does not quote. -/
def takeEscaped (g : Grammar) (s : Scan) (escape c : Char) : Scan :=
  let released := { s with escape := none }
  if g.isQuote c then (released.extend escape).extend c else released.extend c

/-- Take a character that has the given role. -/
def act (s : Scan) (c : Char) : Role → Scan
  | .skipped => s
  | .quote => s.takeQuote c
  | .opening => s.endWord.endStatement.emit .openBlock
  | .closing => s.endWord.endStatement.emit .closeBlock
  | .escape => { s with escape := some c }
  | .terminator => s.endWord.endStatement
  | .delimiter => s.endWord
  | .letter => s.extend c

/-- Take one character. -/
def step (g : Grammar) (s : Scan) (c : Char) : Scan :=
  match s.escape with
  | some escape => s.takeEscaped g escape c
  | none => s.act c (g.role s.isQuoted c)

/-- Take a text, character by character. -/
def run (g : Grammar) (s : Scan) (cs : List Char) : Scan := cs.foldl (step g) s

@[simp]
theorem run_nil (g : Grammar) (s : Scan) : s.run g [] = s := rfl

@[simp]
theorem run_cons (g : Grammar) (s : Scan) (c : Char) (cs : List Char) :
    s.run g (c :: cs) = (s.step g c).run g cs := rfl

/-- Reading a text is reading its parts in turn. -/
@[simp]
theorem run_append (g : Grammar) (s : Scan) (front back : List Char) :
    s.run g (front ++ back) = (s.run g front).run g back := List.foldl_append

/-- The scan at the end of a piece: an open quotation is kept verbatim, otherwise the word ends, and
so does the statement if the grammar has no terminator. An escape with nothing after it is lost. -/
def close (g : Grammar) (s : Scan) : Scan :=
  if s.isQuoted then
    { s with word := "", words := if s.word.isEmpty then s.words else s.words ++ [s.word] }
  else if g.terminator.isNone then s.endWord.endStatement
  else s.endWord

end Scan

namespace Scanner

/-- The scanner before any text. -/
def fresh : Scanner := {}

/-- Whether no statement waits for more text. -/
def isComplete (s : Scanner) : Bool := s.pending.isEmpty

@[simp]
theorem isComplete_fresh : fresh.isComplete = true := rfl

/-- Take up the unfinished statement; inside a quotation, also its last word. -/
def resume (s : Scanner) : Scan :=
  let idle : Scan := ⟨s.openQuotes, "", s.pending, [], none⟩
  if s.openQuotes.isEmpty then idle
  else
    match s.pending.getLast? with
    | some word => { idle with word, words := s.pending.dropLast }
    | none => idle

/-- Read a piece of text: the statements it completes, and the scanner for the next piece. -/
def read (g : Grammar) (s : Scanner) (text : String) : List Statement × Scanner :=
  let done := (s.resume.run g text.toList).close g
  (done.statements, ⟨done.openQuotes, done.words⟩)

end Scanner

end CommandEngine
