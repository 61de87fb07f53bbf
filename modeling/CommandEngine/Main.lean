import CommandEngine.Demo.Conversation
/-!
# The demonstration program

Everything the program says is decided by the modules it imports. What is left is to move text: read
the arguments, show a prompt, read a line, show what the exchange shows.
-/

namespace CommandEngine.Demo

/-- Hold the conversation on the terminal until the input ends. -/
partial def talk (input output : IO.FS.Stream) (session : Session Screen) : IO Unit := do
  output.putStr (prompt session)
  output.flush
  let line ← input.getLine
  if line.isEmpty then
    output.putStr farewell
    output.flush
  else
    let (session, screen) := exchange session (lineOf line.toList) {}
    output.putStr screen.text
    talk input output session

end CommandEngine.Demo

open CommandEngine.Demo in
def main (arguments : List String) : IO UInt32 := do
  match plan arguments with
  | .error report =>
    (← IO.getStdout).putStr report.output
    (← IO.getStderr).putStr report.errors
    return report.code
  | .ok grammar =>
    talk (← IO.getStdin) (← IO.getStdout) (opening grammar)
    return 0
