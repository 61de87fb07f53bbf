import CommandEngine.Grammar
/-!
# Flags of the demonstration program

The program takes four flags, each with a value, and asks for nothing else; a request for help wins
over everything but a mistake before it. The flags are read in one pass. A value is whatever word
follows its flag, even one that looks like a flag. After a bare double dash no word is a flag any
more, and since the program has no other arguments the next word is a mistake.

Every mistake has a text of its own, which the program completes by a hint at the help.
-/

namespace CommandEngine.Demo

/-- The values given for the flags. -/
structure Flags where
  quotes : Option String := none
  delimiter : Option Char := none
  terminator : Option Char := none
  blocks : Option String := none
  deriving DecidableEq

/-- A mistake in the arguments of the program. -/
inductive FlagError
  | trailing
  | unrecognized (word : String)
  | missingValue (flag : String)
  | unfitValue (flag value reason : String)
  deriving DecidableEq

def FlagError.message : FlagError → String
  | trailing => "Trailing arguments are not allowed after `help`."
  | unrecognized word => "Unrecognized argument: " ++ word ++ "\n"
  | missingValue flag => "No value provided for option '" ++ flag ++ "'.\n"
  | unfitValue flag value reason =>
    "Error parsing option '" ++ flag ++ "' with value '" ++ value ++ "': " ++ reason ++ "\n"

/-- What the arguments of the program ask for. -/
inductive Request
  | converse (flags : Flags)
  | help
  deriving DecidableEq

namespace Flags

/-- The only character of a text, or what is wrong with the text. -/
def onlyChar (text : String) : Except String Char :=
  match text.toList with
  | [] => .error "cannot parse char from empty string"
  | [c] => .ok c
  | _ => .error "too many characters in string"

/-- A value for a flag that has none yet. -/
def once {α : Type} (given : Option α) (value : Except String α) : Except String (Option α) :=
  if given.isSome then .error "duplicate values provided" else value.map some

/-- The flags with one more value, or what is wrong with the value; nothing for an unknown flag. -/
def set? (flags : Flags) (flag value : String) : Option (Except String Flags) :=
  match flag with
  | "--quotes" => some ((once flags.quotes (.ok value)).map ({ flags with quotes := · }))
  | "--delimiter" =>
    some ((once flags.delimiter (onlyChar value)).map ({ flags with delimiter := · }))
  | "--eos" =>
    some ((once flags.terminator (onlyChar value)).map ({ flags with terminator := · }))
  | "--blocks" => some ((once flags.blocks (.ok value)).map ({ flags with blocks := · }))
  | _ => none

/-- Whether a word is the name of a flag. -/
def isFlag (word : String) : Bool :=
  word == "--quotes" || word == "--delimiter" || word == "--eos" || word == "--blocks"

def looksLikeFlag (word : String) : Bool :=
  match word.toList with
  | '-' :: _ => true
  | _ => false

/-- Read words after the flags given so far and perhaps a request for help. -/
def readFrom (flags : Flags) (help : Bool) : List String → Except FlagError Request
  | [] => .ok (if help then .help else .converse flags)
  | word :: rest =>
    if word == "--help" || word == "help" then readFrom flags true rest
    else if !looksLikeFlag word then .error (.unrecognized word)
    else if word == "--" then
      match rest with
      | [] => .ok (if help then .help else .converse flags)
      | extra :: _ => .error (.unrecognized extra)
    else if help then .error .trailing
    else if !isFlag word then .error (.unrecognized word)
    else
      match rest with
      | [] => .error (.missingValue word)
      | value :: rest =>
        match flags.set? word value with
        | none => .error (.unrecognized word)
        | some (.error reason) => .error (.unfitValue word value reason)
        | some (.ok flags) => readFrom flags help rest

/-- What the arguments of the program ask for, or the first mistake in them. -/
def read (words : List String) : Except FlagError Request := readFrom {} false words

/-- The grammar that the flags ask for. -/
def grammar (flags : Flags) : Except GrammarError Grammar :=
  Grammar.withBlocks
    { quotes := (flags.quotes.getD "\"\x27").toList
      delimiter := flags.delimiter.getD ' '
      terminator := flags.terminator }
    (flags.blocks.getD "")

end Flags

def usage : String :=
  "Usage: cmdline [--quotes <quotes>] [--delimiter <delimiter>] [--eos <eos>] [--blocks <blocks>]\n"
    ++ "\n"
    ++ "interactive playground for the command tree engine. set RUST_LOG=debug to trace tokenizing "
    ++ "and execution.\n"
    ++ "\n"
    ++ "Options:\n"
    ++ "  --quotes          characters that quote arguments.\n"
    ++ "  --delimiter       character separating tokens.\n"
    ++ "  --eos             character ending a statement; without it every line is one\n"
    ++ "                    statement.\n"
    ++ "  --blocks          block open and close characters, e.g. \"\x7b\x7d\".\n"
    ++ "  --help, help      display usage information\n"

end CommandEngine.Demo
