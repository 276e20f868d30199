import KeyScan.Bytes

namespace KeyScan

/-- Ascending or descending keys. -/
inductive Direction where
  | forward
  | backward
  deriving DecidableEq, Repr

/-- A positioning call on an iterator over ordered keys. -/
inductive Move where
  | first
  | last
  | seek (target : Bytes)
  | next
  | prev
  deriving DecidableEq, Repr

namespace Direction

/-- The direction that a reversal flag asks for. -/
def ofReverse (reverse : Bool) : Direction := if reverse then .backward else .forward

/-- Whether travel meets `a` strictly earlier than `b`. -/
def before (direction : Direction) (a b : Bytes) : Prop :=
  match direction with
  | .forward => a < b
  | .backward => b < a

instance (direction : Direction) (a b : Bytes) : Decidable (direction.before a b) := by
  cases direction <;> exact inferInstanceAs (Decidable (_ < _))

/-- The move to where travel starts. -/
def outset : Direction → Move
  | .forward => .first
  | .backward => .last

def terminus : Direction → Move
  | .forward => .last
  | .backward => .first

def step : Direction → Move
  | .forward => .next
  | .backward => .prev

end Direction
end KeyScan
