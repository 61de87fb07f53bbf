import CommandEngine.Text.Quoted
/-!
# Grammars: which characters have a meaning

A grammar names the characters that structure a text: quotes, the delimiter between words, an
escape, a terminator of statements and a pair of block marks. Any of them may coincide, so the
meaning of a character is decided in a fixed order by one function, `Grammar.role`. Everything that
reads text asks for the role of a character and nothing else, which keeps the order of precedence in
a single place.

Only quoting matters to a role besides the character itself: inside a quotation, block marks, the
terminator, the delimiter and the plain space are ordinary letters.
-/

namespace CommandEngine

/-- The two characters that open and close a block. -/
structure BlockMarks where
  opening : Char
  closing : Char
  deriving DecidableEq

/-- Which characters structure a text. -/
structure Grammar where
  quotes : List Char := []
  delimiter : Char := ' '
  escape : Option Char := some '\\'
  /-- The character that ends a statement; without one every text is a statement. -/
  terminator : Option Char := none
  /-- The characters that open and close blocks; without them there are no blocks. -/
  blocks : Option BlockMarks := none
  deriving DecidableEq

/-- Why a grammar cannot be set up. -/
inductive GrammarError
  | /-- A text that should name the two block marks has another length. -/
    blockMarks (text : String)
  deriving DecidableEq

def GrammarError.message : GrammarError → String
  | .blockMarks text =>
    "block characters must be empty or exactly two characters, got " ++ Text.quoteText text

/-- What a character does where it stands. -/
inductive Role
  | skipped
  | quote
  | opening
  | closing
  | escape
  | terminator
  | delimiter
  | letter
  deriving DecidableEq

namespace Grammar

/-- The grammar with the block marks a text names: none for the empty text, else exactly two. -/
def withBlocks (g : Grammar) (text : String) : Except GrammarError Grammar :=
  match text.toList with
  | [] => .ok { g with blocks := none }
  | [opening, closing] => .ok { g with blocks := some ⟨opening, closing⟩ }
  | _ => .error (.blockMarks text)

def isQuote (g : Grammar) (c : Char) : Bool := g.quotes.contains c

def opensBlock (g : Grammar) (c : Char) : Bool :=
  match g.blocks with
  | some marks => c == marks.opening
  | none => false

def closesBlock (g : Grammar) (c : Char) : Bool :=
  match g.blocks with
  | some marks => c == marks.closing
  | none => false

def isLineBreak (c : Char) : Bool := c == '\n' || c == '\r'

/-- The role of a character inside a quotation or outside of one. Line breaks never mean anything;
a quote is a quote everywhere; a mark that could open as well as close a block opens one; the plain
space is dropped outside of quotations even where it does not delimit. -/
def role (g : Grammar) (quoted : Bool) (c : Char) : Role :=
  if isLineBreak c then .skipped
  else if g.isQuote c then .quote
  else if !quoted && g.opensBlock c then .opening
  else if !quoted && g.closesBlock c then .closing
  else if g.escape == some c then .escape
  else if quoted then .letter
  else if g.terminator == some c then .terminator
  else if c == g.delimiter then .delimiter
  else if c == ' ' then .skipped
  else .letter

end Grammar

end CommandEngine
