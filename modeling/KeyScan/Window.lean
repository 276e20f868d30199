import KeyScan.Direction
import KeyScan.Options.Basic
import KeyScan.Report

/-! The window of a scan: its options after empty bounds are dropped and contradictory ones refused.
It says where travel starts, which keys belong to the range, how many may be tested, and which seek
targets lie outside. -/
namespace KeyScan

/-- One end of a key range. -/
structure Edge where
  key : Bytes
  inclusive : Bool
  deriving DecidableEq

namespace Edge

/-- Whether a key lies on the near side of an upper edge. -/
def below (edge : Edge) (key : Bytes) : Bool :=
  if edge.inclusive then decide (key ≤ edge.key) else decide (key < edge.key)

/-- Whether a key lies on the near side of a lower edge. -/
def above (edge : Edge) (key : Bytes) : Bool :=
  if edge.inclusive then decide (edge.key ≤ key) else decide (edge.key < key)

/-- Whether a target lies beyond an upper edge. -/
def isPassedBy (edge : Edge) (target : Bytes) : Bool :=
  if edge.inclusive then decide (edge.key < target) else decide (edge.key ≤ target)

/-- Whether a target lies short of a lower edge. -/
def isMissedBy (edge : Edge) (target : Bytes) : Bool :=
  if edge.inclusive then decide (target < edge.key) else decide (target ≤ edge.key)

def strict? (edge : Edge) : Option Bytes := if edge.inclusive then none else some edge.key

def inclusive? (edge : Edge) : Option Bytes := if edge.inclusive then some edge.key else none

end Edge

/-- A normalised range. -/
structure Window where
  direction : Direction
  /-- the start option, used where no edge says where travel begins -/
  origin : Option Bytes
  /-- the last key that travel may reach -/
  stop : Option Bytes
  upper : Option Edge
  lower : Option Edge
  /-- most keys tested over the life of a reader; no bound if negative -/
  limit : Int
  keys : Bool
  values : Bool
  deriving DecidableEq

namespace Window

/-- An empty bound says nothing. -/
def nonempty (bound : Option Bytes) : Option Bytes := bound.filter fun key => !key.isEmpty

/-- The edge described by a strict and an inclusive bound, at most one of which may be given. -/
def edge (strict inclusive : Option Bytes) (conflict : Failure) : Except Failure (Option Edge) :=
  match nonempty strict, nonempty inclusive with
  | some _, some _ => .error conflict
  | some key, none => .ok (some ⟨key, false⟩)
  | none, some key => .ok (some ⟨key, true⟩)
  | none, none => .ok none

/-- The window that options describe. Two upper bounds are reported before two lower ones. -/
def ofOptions (options : ScanOptions) : Except Failure Window := do
  let upper ← edge options.lt options.lte .twoUpperBounds
  let lower ← edge options.gt options.gte .twoLowerBounds
  return {
    direction := .ofReverse options.reverse
    origin := nonempty options.start
    stop := nonempty options.stop
    upper, lower
    limit := options.limit
    keys := options.keys
    values := options.values }

/-- The edge that travel meets first. -/
def near (window : Window) : Option Edge :=
  match window.direction with
  | .forward => window.lower
  | .backward => window.upper

/-- Where travel starts: at the near edge, or else at the start option. -/
def start (window : Window) : Option Bytes := (window.near.map Edge.key).or window.origin

def withinStop (window : Window) (key : Bytes) : Bool :=
  window.stop.all fun stop => !decide (window.direction.before stop key)

/-- Whether a key satisfies every bound. The start option is none of them: it only says where travel
begins. -/
def contains (window : Window) (key : Bytes) : Bool :=
  window.withinStop key && window.upper.all (·.below key) && window.lower.all (·.above key)

/-- The top of the window for seek targets: going backward the start option stands in for a missing
upper edge. -/
def ceiling (window : Window) : Option Edge :=
  match window.upper, window.direction with
  | some edge, _ => some edge
  | none, .backward => window.origin.map fun key => ⟨key, true⟩
  | none, .forward => none

/-- The bottom of the window for seek targets: going forward the start option stands in for a
missing lower edge. -/
def floor (window : Window) : Option Edge :=
  match window.lower, window.direction with
  | some edge, _ => some edge
  | none, .forward => window.origin.map fun key => ⟨key, true⟩
  | none, .backward => none

/-- Whether a seek target lies above the ceiling, past the stop or below the floor. Here, other than
for entries, the start option is a bound. -/
def outOfRange (window : Window) (target : Bytes) : Bool :=
  window.ceiling.any (·.isPassedBy target) ||
    window.stop.any (fun stop => decide (window.direction.before stop target)) ||
    window.floor.any (·.isMissedBy target)

/-- Tests a key that travel has reached. While a limit is set every test is counted, also of a key
that is then refused; the counter is a 64-bit word. -/
def test (window : Window) (key : Bytes) (count : UInt64) : Bool × UInt64 :=
  if 0 ≤ window.limit then
    let count := count + 1
    (decide ((count.toNat : Int) ≤ window.limit) && window.contains key, count)
  else (window.contains key, count)

end Window
end KeyScan
