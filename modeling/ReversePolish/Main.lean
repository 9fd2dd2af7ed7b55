import ReversePolish.Program

/-!
# Running the program

Reads standard input line by line, so that a session answers each line at once,
and writes the log to standard error.
-/

namespace ReversePolish

/-- Writes log lines. -/
def writeLog (lines : List String) : IO Unit := do
  let stderr ← IO.getStderr
  for line in lines do
    stderr.putStrLn line

/-- The next line of an input without its line feed, behind what has been read of it; none at the
end of the input. -/
partial def readLine (input : IO.FS.Stream) (line : ByteArray) : IO (Option ByteArray) := do
  let next ← input.read 1
  match next.toList with
  | [] => return if line.isEmpty then none else some line
  | 10 :: _ => return some line
  | byte :: _ => readLine input (line.push byte)

/-- Holds a session until its input ends, a line asks to stop, or a line cannot be read. -/
partial def converseLive (verbosity : Verbosity) (c : Calculator) : IO UInt32 := do
  match ← readLine (← IO.getStdin) ByteArray.empty with
  | none => return 0
  | some line =>
    match lineText line.toList with
    | .error failure => return failure.exitCode.toUInt32
    | .ok text =>
      match c.reply? (Request.ofLine text) with
      | none => return 0
      | some reply =>
        writeLog (plainLog verbosity reply.events)
        reply.shown.forM IO.println
        (← IO.getStdout).flush
        converseLive verbosity reply.calculator

end ReversePolish

open ReversePolish in
/-- Calculates the words on the command line, or holds a session if there are none. -/
def main (arguments : List String) : IO UInt32 := do
  match Command.ofArguments arguments with
  | .calculate options [] =>
    IO.println banner
    (← IO.getStdout).flush
    converseLive options.verbosity (.standard options.tracing)
  | _ =>
    let outcome := run arguments []
    writeLog outcome.log
    IO.print outcome.output
    return outcome.exitCode.toUInt32
