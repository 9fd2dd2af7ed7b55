import ReversePolish.Event

/-!
# The command line

Arguments are read from the left. Words are what is to be calculated; options
begin with a hyphen and may stand anywhere before a double hyphen, after which
every argument is a word. A lone hyphen is a word. Short options may be joined.
The first argument that decides the outcome wins: one that asks for the version
or for help, or one that is not allowed.
-/

namespace ReversePolish

/-- What the options say. -/
structure Options where
  /-- Each step of a reduction is reported. -/
  tracing : Bool
  /-- How often more detail was asked for. -/
  detail : Nat
deriving DecidableEq, Repr

/-- What is shown of the events: none, those of evaluations, all. -/
def Options.verbosity (options : Options) : Verbosity :=
  match options.detail with
  | 0 => .quiet
  | 1 => .debug
  | _ => .trace

/-- What one argument before a double hyphen means. -/
inductive Argument where
  | word
  | tracing
  | moreDetail (times : Nat)
  | version
  | help
  | invalid
deriving DecidableEq, Repr

namespace Argument

/-- The short options joined behind one hyphen. -/
def ofCluster (times : Nat) : List Char → Argument
  | [] => moreDetail times
  | 'v' :: rest => ofCluster (times + 1) rest
  | 'V' :: _ => version
  | 'h' :: _ => help
  | _ => invalid

/-- An argument that begins with two hyphens, without them. -/
def ofLong (name : List Char) : Argument :=
  match String.ofList name with
  | "trace" => tracing
  | "verbose" => moreDetail 1
  | "version" => version
  | "help" => help
  | _ => invalid

def of (argument : String) : Argument :=
  match argument.toList with
  | '-' :: '-' :: name => ofLong name
  | '-' :: c :: rest => ofCluster 0 (c :: rest)
  | _ => word

end Argument

/-- What a command line asks for. -/
inductive Command where
  | calculate (options : Options) (words : List String)
  | version
  | help
  | invalid
deriving DecidableEq, Repr

namespace Command

/-- One more word in front; a command that calculates nothing stays as it is. -/
def withWord (word : String) : Command → Command
  | calculate options words => calculate options (word :: words)
  | command => command

/-- What the arguments behind the given options ask for. Tracing can be asked for once. -/
def read (options : Options) : List String → Command
  | [] => calculate options []
  | argument :: rest =>
    if argument = "--" then calculate options rest
    else
      match Argument.of argument with
      | .word => (read options rest).withWord argument
      | .tracing => if options.tracing then invalid else read { options with tracing := true } rest
      | .moreDetail times => read { options with detail := options.detail + times } rest
      | .version => version
      | .help => help
      | .invalid => invalid

/-- What a command line asks for. -/
def ofArguments (arguments : List String) : Command := read ⟨false, 0⟩ arguments

end Command

end ReversePolish
