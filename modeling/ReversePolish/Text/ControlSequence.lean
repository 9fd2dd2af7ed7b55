/-!
# Control sequences

A terminal does not show every character: control characters and the sequences
that an escape begins are instructions to it. What a reader of a plain text sees
is the text without them. Line feeds, tabs, form feeds and carriage returns
remain, unless they stand inside a string. Inside an escape or control sequence
one of them interrupts it: what follows is shown again, up to the next control
character, and there the sequence goes on where it was.
-/

namespace ReversePolish.Text

/-- What a terminal is in the middle of. -/
inductive TerminalState where
  | text
  /-- An escape has been read. -/
  | escape
  /-- An escape and intermediate characters. -/
  | escapeIntermediates
  /-- A control sequence, up to its final character. -/
  | sequence
  /-- The beginning of a device control string. -/
  | device
  /-- The parameters of a device control string. -/
  | deviceParameters
  /-- The intermediate characters of a device control string. -/
  | deviceIntermediates
  /-- An operating system command, which a bell ends. -/
  | command
  /-- The body of a device control string, or a string of another kind. -/
  | string
deriving DecidableEq, Repr

/-- The control characters that move the place of writing and remain in a plain text. -/
def isLayout (c : Char) : Bool := c == '\t' || c == '\n' || c == '\x0c' || c == '\r'

/-- Whether a character of a text is shown. -/
def isShown (c : Char) : Bool := isLayout c || (' ' ≤ c && c != '\x7f')

namespace TerminalState

/-- Whether the code of a character lies in a range. -/
def within (first last : Nat) (c : Char) : Bool := first ≤ c.toNat && c.toNat ≤ last

/-- Whether a string ends at a character: one of its bytes is the string terminator. -/
def terminates (c : Char) : Bool := (String.utf8EncodeChar c).contains 0x9C

/-- What an escape goes on to. -/
def afterEscape (c : Char) : TerminalState :=
  if c = '[' then sequence
  else if c = ']' then command
  else if c = 'P' then device
  else if c = 'X' || c = '^' || c = '_' then string
  else if within 0x20 0x2F c then escapeIntermediates
  else if within 0x30 0x7E c then text
  else escape

/-- What a terminal is in the middle of after a character that is not a part of the
text. An escape begins anew, and a cancel or a substitute drops what was begun. -/
def next (state : TerminalState) (c : Char) : TerminalState :=
  if c = '\x1b' then escape
  else if c = '\x18' || c = '\x1a' then text
  else
    match state with
    | text => text
    | escape => afterEscape c
    | escapeIntermediates => if within 0x30 0x7E c then text else escapeIntermediates
    | sequence => if within 0x40 0x7E c then text else sequence
    | device =>
      if within 0x20 0x2F c then deviceIntermediates
      else if within 0x30 0x3F c then deviceParameters
      else if within 0x40 0x7E c then string
      else device
    | deviceParameters =>
      if within 0x20 0x2F c then deviceIntermediates
      else if within 0x3C 0x7E c then string
      else deviceParameters
    | deviceIntermediates => if within 0x30 0x7E c then string else deviceIntermediates
    | command => if c = '\x07' then text else command
    | string => if terminates c then text else string

/-- Whether a character begins or goes on with text. -/
def shows (state : TerminalState) (c : Char) : Bool :=
  match state with
  | text => isShown c
  | escape => isLayout c
  | escapeIntermediates => isLayout c
  | sequence => isLayout c
  | _ => false

end TerminalState

/-- A terminal that reads a text. -/
structure Terminal where
  /-- What has begun and not ended. -/
  state : TerminalState
  /-- Whether the characters before belong to the text, also where it interrupts a sequence. -/
  writing : Bool

namespace Terminal

/-- Whether a character remains in a plain text. -/
def shows (terminal : Terminal) (c : Char) : Bool :=
  (terminal.writing && isShown c) || terminal.state.shows c

/-- What the next character leaves begun. In a text that interrupts a sequence the first
character beyond ASCII gives the sequence up. -/
def nextState (terminal : Terminal) (c : Char) : TerminalState :=
  if terminal.writing && isShown c then
    if c.toNat < 0x80 then terminal.state else .text
  else terminal.state.next c

/-- The terminal after one more character. -/
def next (terminal : Terminal) (c : Char) : Terminal := ⟨terminal.nextState c, terminal.shows c⟩

/-- What remains of a text that goes on. -/
def plainFrom : Terminal → List Char → List Char
  | _, [] => []
  | terminal, c :: rest =>
    if terminal.shows c then c :: (terminal.next c).plainFrom rest
    else (terminal.next c).plainFrom rest

end Terminal

/-- A text without control sequences. -/
def plain (text : List Char) : List Char := (Terminal.mk .text true).plainFrom text

theorem plain_cons {c : Char} (h : isShown c = true) (rest : List Char) :
    plain (c :: rest) = c :: plain rest := by
  simp [plain, Terminal.plainFrom, Terminal.shows, Terminal.next, Terminal.nextState, h]

/-- A text without control characters stands as it is. -/
theorem plain_of_shown (text : List Char) (h : ∀ c ∈ text, isShown c = true) :
    plain text = text := by
  induction text with
  | nil => rfl
  | cons c rest ih =>
    rw [plain_cons (h c List.mem_cons_self), ih fun d hd => h d (List.mem_cons_of_mem c hd)]

end ReversePolish.Text
