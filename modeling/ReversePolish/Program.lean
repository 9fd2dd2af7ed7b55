import ReversePolish.CommandLine
import ReversePolish.Log
import ReversePolish.Session.Reply

/-!
# The program

With words, the program calculates them and shows the value of the last one.
Without, it holds a session over its input. The outcome is everything that a
caller can see: the exit code, the text shown and the records of the log.
-/

namespace ReversePolish

/-- The program's name and version. -/
def versionText : String := "rpncalc 0.0.1"

/-- What is shown when a session begins. -/
def banner : String := versionText ++ " (:ops, :stack, :clear, :quit)"

/-- What a run of the program leaves. -/
structure Outcome where
  exitCode : UInt8
  output : String
  log : List String

/-- The text of lines, each with its line feed. -/
def unlines (lines : List String) : String := "".intercalate (lines.map (· ++ "\n"))

/-- How the program is used: what it is, its words and its options. -/
def helpText : String :=
  unlines
    ["A reverse-Polish-notation calculator brain: token stack, operation registry, " ++
        "recursive reduction", "",
      "Usage: rpncalc [OPTIONS] [TOKENS]...", "",
      "Arguments:",
      "  [TOKENS]...  Tokens to evaluate. Starts an interactive session when empty", "",
      "Options:",
      "      --trace       Log every reduction step (shown with `-vv` or `RUST_LOG=trace`)",
      "  -v, --verbose...  Raise log verbosity (`-v` debug, `-vv` trace)",
      "  -h, --help        Print help",
      "  -V, --version     Print version"]

/-- The exit code of a session that failed on a line. -/
def LineError.exitCode : LineError → UInt8
  | .undecodable => 1
  | .cutCharacter => 101

/-- Calculates words, and shows the value of the last one. -/
def calculateWords (options : Options) (words : List String) : Outcome :=
  let answer := Answer.enterWords ⟨.standard options.tracing, none, []⟩ words
  ⟨0, unlines [valueText answer.value], plainLog options.verbosity answer.events⟩

/-- A session over an input. -/
def holdSession (options : Options) (input : List UInt8) : Outcome :=
  let transcript := (Calculator.standard options.tracing).converse (inputLines input)
  ⟨transcript.failure.elim 0 LineError.exitCode, unlines (banner :: transcript.shown),
    plainLog options.verbosity transcript.events⟩

/-- Runs the program on its arguments and its standard input. -/
def run (arguments : List String) (input : List UInt8) : Outcome :=
  match Command.ofArguments arguments with
  | .calculate options [] => holdSession options input
  | .calculate options (word :: words) => calculateWords options (word :: words)
  | .version => ⟨0, unlines [versionText], []⟩
  | .help => ⟨0, helpText, []⟩
  | .invalid => ⟨2, "", []⟩

end ReversePolish
