import ReversePolish.Text.Cluster.Table

/-!
# Grapheme clusters

What a reader takes for one character may be several: a letter with its marks,
a Hangul syllable in parts, two regional indicators that make a flag, pictographs
tied by joiners. Whether a character belongs to the cluster before it depends on
that cluster's last character and on three runs that may end there.
-/

namespace ReversePolish.Text

/-- What matters about a character where clusters meet. -/
inductive CharClass where
  | other
  | control
  | extender
  /-- The zero-width non-joiner, a mark that ends a conjunct. -/
  | nonJoiner
  | linker
  | joiner
  | spacingMark
  | prepended
  | pictograph
  | consonant
  | indicator
  | leadingJamo
  | vowelJamo
  | trailingJamo
  /-- A Hangul syllable that ends in a vowel. -/
  | openSyllable
  /-- A Hangul syllable that ends in a consonant. -/
  | closedSyllable
deriving DecidableEq, Repr

namespace CharClass

def isIn (ranges : List (Nat × Nat)) (code : Nat) : Bool :=
  ranges.any fun (first, last) => first ≤ code && code ≤ last

/-- The class of a character. -/
def of (c : Char) : CharClass :=
  let code := c.toNat
  if isIn Cluster.controls code then control
  else if code = 0x200C then nonJoiner
  else if isIn Cluster.linkers code then linker
  else if isIn Cluster.extenders code then extender
  else if code = 0x200D then joiner
  else if isIn Cluster.spacingMarks code then spacingMark
  else if isIn Cluster.prepends code then prepended
  else if isIn Cluster.pictographs code then pictograph
  else if isIn Cluster.consonants code then consonant
  else if isIn [(0x1F1E6, 0x1F1FF)] code then indicator
  else if isIn Cluster.leadingJamo code then leadingJamo
  else if isIn Cluster.vowelJamo code then vowelJamo
  else if isIn Cluster.trailingJamo code then trailingJamo
  else if isIn [(0xAC00, 0xD7A3)] code then
    if (code - 0xAC00) % 28 = 0 then openSyllable else closedSyllable
  else other

end CharClass

/-- A pictograph sequence at the end of a cluster. -/
inductive PictographRun where
  | none
  /-- A pictograph and its marks. -/
  | marked
  /-- The same, and a joiner that waits for another pictograph. -/
  | joined
deriving DecidableEq, Repr

/-- A conjunct at the end of a cluster. -/
inductive ConjunctRun where
  | none
  /-- A consonant and its marks. -/
  | marked
  /-- The same with a linker among the marks, so that another consonant may follow. -/
  | linked
deriving DecidableEq, Repr

/-- What matters about a cluster for the character after it. -/
structure ClusterEnd where
  last : CharClass
  /-- The cluster ends in a regional indicator without a partner. -/
  unpaired : Bool
  pictographs : PictographRun
  conjunct : ConjunctRun
deriving DecidableEq, Repr

namespace ClusterEnd

/-- The end of a cluster that one character begins. -/
def begin (c : CharClass) : ClusterEnd :=
  ⟨c, c == .indicator, if c == .pictograph then .marked else .none,
    if c == .consonant then .marked else .none⟩

/-- Whether a character belongs to the cluster before it. -/
def admits (e : ClusterEnd) (c : CharClass) : Bool :=
  match e.last, c with
  | .control, _ => false
  | _, .control => false
  | .leadingJamo, .leadingJamo => true
  | .leadingJamo, .vowelJamo => true
  | .leadingJamo, .openSyllable => true
  | .leadingJamo, .closedSyllable => true
  | .openSyllable, .vowelJamo => true
  | .openSyllable, .trailingJamo => true
  | .vowelJamo, .vowelJamo => true
  | .vowelJamo, .trailingJamo => true
  | .closedSyllable, .trailingJamo => true
  | .trailingJamo, .trailingJamo => true
  | _, .extender => true
  | _, .nonJoiner => true
  | _, .linker => true
  | _, .joiner => true
  | _, .spacingMark => true
  | .prepended, _ => true
  | _, .consonant => e.conjunct == .linked
  | _, .pictograph => e.pictographs == .joined
  | _, .indicator => e.unpaired
  | _, _ => false

/-- The pictograph sequence after one more character. -/
def nextPictographs (run : PictographRun) (c : CharClass) : PictographRun :=
  match c, run with
  | .pictograph, _ => .marked
  | .extender, .marked => .marked
  | .nonJoiner, .marked => .marked
  | .linker, .marked => .marked
  | .joiner, .marked => .joined
  | _, _ => .none

/-- The conjunct after one more character. -/
def nextConjunct (run : ConjunctRun) (c : CharClass) : ConjunctRun :=
  match c, run with
  | .consonant, _ => .marked
  | .linker, .marked => .linked
  | .linker, .linked => .linked
  | .extender, run => run
  | .joiner, run => run
  | _, _ => .none

/-- The end of the cluster after one more character of it. -/
def extend (e : ClusterEnd) (c : CharClass) : ClusterEnd :=
  ⟨c, c == .indicator && !(e.last == .indicator && e.unpaired),
    nextPictographs e.pictographs c, nextConjunct e.conjunct c⟩

end ClusterEnd

end ReversePolish.Text
