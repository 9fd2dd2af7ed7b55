import ReversePolish.Text.Blank
import ReversePolish.Text.Erasure

/-!
# Lines of a session

The input of a session is a row of bytes. It is cut into lines, a line is
decoded and its backspaces are applied, and what remains is blank, a command
that begins with a colon, or words to be entered one after the other.
-/

namespace ReversePolish

/-! ### From bytes to lines -/

/-- Why a line of bytes cannot be read. -/
inductive LineError where
  /-- It is not UTF-8. -/
  | undecodable
  /-- A backspace would take back a part of a character. -/
  | cutCharacter

/-- The text of a line of bytes, after its backspaces. -/
def lineText (bytes : List UInt8) : Except LineError (List Char) :=
  match String.fromUTF8? bytes.toByteArray with
  | none => .error .undecodable
  | some text =>
    match Text.applyBackspaces? text.toList with
    | none => .error .cutCharacter
    | some line => .ok line

/-- The lines of an input. Each ends with a line feed, but the last one may go without. -/
def inputLines (bytes : List UInt8) : List (List UInt8) :=
  let lines := bytes.splitOn 10
  if lines.getLast?.any List.isEmpty then lines.dropLast else lines

/-! ### What a line asks for -/

/-- What a line asks for. -/
inductive Request where
  | nothing
  | quit
  | clear
  | showStack
  | showOperations
  | enter (words : List String)

/-- What a line of text asks for. Blanks at its ends do not count. -/
def Request.ofLine (line : List Char) : Request :=
  let trimmed := Text.trim line
  if trimmed.isEmpty then .nothing
  else
    match String.ofList trimmed with
    | ":quit" => .quit
    | ":q" => .quit
    | ":clear" => .clear
    | ":c" => .clear
    | ":stack" => .showStack
    | ":s" => .showStack
    | ":ops" => .showOperations
    | _ => .enter ((Text.words trimmed).map String.ofList)

end ReversePolish
