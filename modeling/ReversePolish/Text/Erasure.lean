import ReversePolish.Text.Cluster

/-!
# Backspaces

In a line that does not come from a keyboard a backspace takes back the grapheme
cluster before it, or nothing at the beginning. The length of a cluster in bytes
is kept in one byte, so of a cluster of 256 bytes or more only the remainder is
taken back; where that would cut a character in two the line cannot be read.
-/

namespace ReversePolish.Text

/-- The part of a line that stands, newest first. -/
structure Draft where
  text : List Char
  /-- The lengths of its clusters in bytes. -/
  clusters : List Nat
  /-- The end of the newest cluster; none if nothing can be added to it. -/
  clusterEnd : Option ClusterEnd

namespace Draft

def empty : Draft := ⟨[], [], none⟩

/-- A character that begins a cluster. -/
def begin (draft : Draft) (c : Char) : Draft :=
  ⟨c :: draft.text, c.utf8Size :: draft.clusters, some (.begin (.of c))⟩

/-- A character, in the cluster where it belongs. -/
def add (draft : Draft) (c : Char) : Draft :=
  match draft.clusterEnd, draft.clusters with
  | some e, size :: sizes =>
    if e.admits (.of c) then
      ⟨c :: draft.text, (size + c.utf8Size) :: sizes, some (e.extend (.of c))⟩
    else draft.begin c
  | _, _ => draft.begin c

/-- A text, newest first, without its last `count` bytes; none if that cuts a character. -/
def dropBytes? : Nat → List Char → Option (List Char)
  | 0, text => some text
  | _, [] => some []
  | count, c :: text => if c.utf8Size ≤ count then dropBytes? (count - c.utf8Size) text else none

/-- Takes the newest cluster back. -/
def erase? (draft : Draft) : Option Draft :=
  match draft.clusters with
  | [] => some { draft with clusterEnd := none }
  | size :: sizes =>
    (dropBytes? (size % 256) draft.text).map fun text => ⟨text, sizes, none⟩

/-- A character typed: a backspace erases, any other is added. -/
def type? (draft : Draft) (c : Char) : Option Draft :=
  if c = '\x08' then draft.erase? else some (draft.add c)

end Draft

/-- A line after its backspaces. Without any it stands as it is. -/
def applyBackspaces? (line : List Char) : Option (List Char) :=
  if line.contains '\x08' then
    (line.foldlM Draft.type? Draft.empty).map fun draft => draft.text.reverse
  else some line

end ReversePolish.Text
