import CommandEngine.Demo.Commands
import CommandEngine.Demo.Flags
import CommandEngine.Demo.TypedLine
/-!
# The conversation of the demonstration program

The program shows a prompt, reads a line, runs it, and begins again until there is no line left. The
prompt tells whether the input so far is complete. A line that fails is reported and the commands
waiting to run are dropped with it.

One exchange is a function of the session and the line, so a whole conversation over given input is
a fold, and the program that talks to a terminal performs the same exchanges one by one. What
differs between the two is only when the text is shown.
-/

namespace CommandEngine.Demo

/-- A world that is nothing but the text shown so far. -/
structure Screen where
  text : String := ""
  deriving DecidableEq

instance : Console Screen where
  write text screen := ⟨screen.text ++ text⟩

variable {ω : Type} [Console ω]

/-- The session that a conversation begins with. -/
def opening (grammar : Grammar) : Session ω :=
  { settings := { Settings.standard with grammar }, catalog }

def prompt {ω : Type} (session : Session ω) : String :=
  if session.isComplete then "> " else ". "

def farewell : String := "Eof\n"

/-- Run a line; if it fails, say so and drop the commands that wait. -/
def exchange (session : Session ω) (line : String) (world : ω) : Session ω × ω :=
  match session.enter line world with
  | (.ok _, session, world) => (session, world)
  | (.error cause, session, world) =>
    ({ session with tree := session.tree.clear },
      Console.write ("Error: " ++ cause.message ++ "\n") world)

/-- A line without the carriage return at its end. -/
def dropReturn (line : List Char) : List Char :=
  if line.getLast? == some '\r' then line.dropLast else line

/-- A line without the line break at its end; a carriage return alone is no line break. -/
def chomp (line : List Char) : List Char :=
  if line.getLast? == some '\n' then dropReturn line.dropLast else line

/-- The line that a piece of the input stands for: without its line break, and corrected. -/
def lineOf (piece : List Char) : String := String.ofList (corrected (chomp piece))

/-- The lines of a text. What follows the last line break is a line only if it is not empty. -/
def lines (text : List Char) : List String :=
  let pieces := text.splitOn '\n'
  let ended := pieces.dropLast.map (· ++ ['\n'])
  let unended := pieces.getLast?.toList.filter (!·.isEmpty)
  (ended ++ unended).map lineOf

/-- What a run of the program leaves behind. -/
structure Report where
  code : UInt32
  output : String
  errors : String
  deriving DecidableEq

/-- Show a prompt and run a line. -/
def turn (state : Session ω × ω) (line : String) : Session ω × ω :=
  exchange state.1 line (Console.write (prompt state.1) state.2)

/-- The text shown in a conversation over several lines. -/
def converse (grammar : Grammar) (input : List String) : String :=
  let (session, screen) := input.foldl turn ((opening grammar : Session Screen), {})
  screen.text ++ prompt session ++ farewell

/-- The report of a program whose arguments are mistaken. -/
def mistaken (cause : FlagError) : Report :=
  ⟨1, "", cause.message ++ "\nRun cmdline --help for more information.\n"⟩

/-- What the arguments ask for: a conversation under a grammar, or the report of a run that ends at
once. -/
def plan (arguments : List String) : Except Report Grammar :=
  match Flags.read arguments with
  | .error cause => .error (mistaken cause)
  | .ok .help => .error ⟨0, usage ++ "\n", ""⟩
  | .ok (.converse flags) =>
    flags.grammar.mapError fun cause => ⟨1, "", "Error: " ++ cause.message ++ "\n"⟩

/-- Run the program on arguments and an input. -/
def report (arguments : List String) (input : String) : Report :=
  match plan arguments with
  | .error report => report
  | .ok grammar => ⟨0, converse grammar (lines input.toList), ""⟩

end CommandEngine.Demo
