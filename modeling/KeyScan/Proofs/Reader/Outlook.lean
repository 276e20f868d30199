import KeyScan.Proofs.Engine.Courses
import KeyScan.Reader

namespace KeyScan

/-- The pairs of a snapshot, and of those that a reader of a window has not looked at, the ones it
would meet. -/
structure Outlook where
  window : Window
  pairs : List (Bytes × Bytes)
  ahead : List (Bytes × Bytes)
  count : UInt64

namespace Outlook

/-- What a fresh reader has before it. -/
def start (window : Window) (pairs : List (Bytes × Bytes)) : Outlook where
  window := window
  pairs := pairs
  ahead := window.direction.ahead pairs window.reached
  count := 0

/-- Looks at the next pair. A pair that the window refuses is not met again. -/
def read (outlook : Outlook) : Option Entry × Outlook :=
  match outlook.ahead with
  | [] => (none, outlook)
  | pair :: rest =>
    let (admitted, count) := outlook.window.test pair.1 outlook.count
    (if admitted then some (Reader.deliver outlook.window pair) else none,
      { outlook with ahead := rest, count })

/-- Turns to a target. -/
def seek (target : Bytes) (outlook : Outlook) : Bool × Outlook :=
  (outlook.window.parks outlook.pairs target,
    { outlook with
      ahead := if outlook.window.outOfRange target then []
        else outlook.window.direction.since outlook.pairs target })

/-- Fills a page from the pairs ahead. -/
def fill (window : Window) (highWaterMark : Nat) :
    (size : Nat) → List Entry → List (Bytes × Bytes) → UInt64 →
      Page × List (Bytes × Bytes) × UInt64
  | _, entries, [], count => (⟨entries.reverse, true⟩, [], count)
  | size, entries, pair :: rest, count =>
    let (admitted, count) := window.test pair.1 count
    let entry := Reader.deliver window pair
    if admitted then
      if highWaterMark < size + entry.size then (⟨(entry :: entries).reverse, false⟩, rest, count)
      else fill window highWaterMark (size + entry.size) (entry :: entries) rest count
    else (⟨entries.reverse, true⟩, rest, count)

/-- Reads a page. -/
def page (highWaterMark : Nat) (outlook : Outlook) : Page × Outlook :=
  let (page, ahead, count) := fill outlook.window highWaterMark 0 [] outlook.ahead outlook.count
  (page, { outlook with ahead, count })

end Outlook

namespace Direction

variable {direction : Direction} {pairs : List (Bytes × Bytes)}

/-- The pairs that an iterator will meet from where it stands; `inclusive` if it has yet to look
there. -/
def upcoming (direction : Direction) (pairs : List (Bytes × Bytes)) (inclusive : Bool)
    (current : Option (Bytes × Bytes)) : List (Bytes × Bytes) :=
  match current with
  | none => []
  | some here =>
    if inclusive then here :: direction.beyond pairs here.1 else direction.beyond pairs here.1

theorem upcoming_head {p : Bytes → Bool} (ascending : Ascending pairs)
    (absorbs : direction.Absorbs p) :
    direction.upcoming pairs true (direction.ahead pairs p).head? = direction.ahead pairs p := by
  cases head : (direction.ahead pairs p).head? with
  | none => exact (List.head?_eq_none_iff.mp head).symm
  | some here => exact (ahead_eq_cons ascending absorbs head).symm

theorem upcoming_step (ascending : Ascending pairs) (current : Option (Bytes × Bytes)) :
    direction.upcoming pairs true (direction.step.landing pairs current) =
      direction.upcoming pairs false current := by
  cases current with
  | none =>
    rw [landing_step_none]
    rfl
  | some here =>
    rw [landing_step, beyond, upcoming_head ascending (absorbs_beyond direction here.1)]
    rfl

theorem length_upcoming_le (inclusive : Bool) (current : Option (Bytes × Bytes)) :
    (direction.upcoming pairs inclusive current).length ≤ pairs.length + 1 := by
  cases current with
  | none => exact Nat.zero_le _
  | some here =>
    have bound : (direction.beyond pairs here.1).length ≤ pairs.length := length_ahead_le _
    cases inclusive with
    | true => exact Nat.succ_le_succ bound
    | false => exact Nat.le_succ_of_le bound

end Direction

end KeyScan
