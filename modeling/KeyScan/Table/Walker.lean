import KeyScan.Direction
import KeyScan.Table.Basic

/-! A walker over the live keys of a version table. It keeps a copy of the entry it stands on and no
reference into the table: every move enters the table anew, from a bound made of that entry's key.

A forward scan meets the versions of a key newest first, so the first one that is not too new decides
about the key. A backward scan meets them oldest first and looks each key up instead. -/
namespace KeyScan

/-- A position among the keys seen at a sequence number. -/
structure TableWalker where
  sequence : Sequence
  current : Option (Bytes × Bytes)
  deriving DecidableEq

namespace TableWalker

def start (sequence : Sequence) : TableWalker := ⟨sequence, none⟩

/-- The first live entry among ascending versions. `deleted` is the key that a deletion was last met
for, whose older versions are hidden. -/
def scanForward (sequence : Sequence) (deleted : Option Bytes) :
    List Version → Option (Bytes × Bytes)
  | [] => none
  | version :: rest =>
    if sequence < version.stamp.sequence then scanForward sequence deleted rest
    else if deleted = some version.stamp.key then scanForward sequence deleted rest
    else
      match version.value with
      | some value => some (version.stamp.key, value)
      | none => scanForward sequence (some version.stamp.key) rest

/-- The first live entry among descending versions. `checked` is the key last looked up. -/
def scanBackward (table : VersionTable) (sequence : Sequence) (checked : Option Bytes) :
    List Version → Option (Bytes × Bytes)
  | [] => none
  | version :: rest =>
    let key := version.stamp.key
    if checked = some key then scanBackward table sequence checked rest
    else
      match (table.visible? key sequence).bind Version.value with
      | some value => some (key, value)
      | none => scanBackward table sequence (some key) rest

def firstFrom (walker : TableWalker) (table : VersionTable) (bound : Bound) :
    Option (Bytes × Bytes) :=
  scanForward walker.sequence none (table.versionsFrom bound)

def lastTo (walker : TableWalker) (table : VersionTable) (bound : Bound) :
    Option (Bytes × Bytes) :=
  scanBackward table walker.sequence none (table.versionsTo bound)

/-- The entry that a move leads to. -/
def destination (walker : TableWalker) (table : VersionTable) : Move → Option (Bytes × Bytes)
  | .first => walker.firstFrom table .unbounded
  | .last => walker.lastTo table .unbounded
  | .seek target => walker.firstFrom table (.included (.firstOf target))
  | .next =>
    walker.current.bind fun entry => walker.firstFrom table (.excluded (.lastOf entry.1))
  | .prev =>
    walker.current.bind fun entry => walker.lastTo table (.excluded (.firstOf entry.1))

def valid (walker : TableWalker) : Bool := walker.current.isSome

/-- The key stood on, empty if there is none. -/
def key (walker : TableWalker) : Bytes := (walker.current.map Prod.fst).getD []

/-- The value stood on, empty if there is none. -/
def value (walker : TableWalker) : Bytes := (walker.current.map Prod.snd).getD []

/-- Makes a move and tells whether it landed. -/
def move (walker : TableWalker) (table : VersionTable) (move : Move) : Bool × TableWalker :=
  let current := walker.destination table move
  (current.isSome, { walker with current })

end TableWalker
end KeyScan
