import KeyScan.Engine.Basic
import KeyScan.Window

/-! The courses by which a reader positions an iterator in a window. An engine lands a seek on the
first key at or after its target, so travel in the other direction needs a correcting move. -/
namespace KeyScan.Window

/-- Whether a seek to the start has landed on a key that travel must leave at once. -/
def overshoots (window : Window) (start key : Bytes) : Bool :=
  match window.direction, window.near with
  | .backward, some edge => !edge.below key
  | .backward, none => decide (key ≠ start)
  | .forward, some edge => !edge.inclusive && decide (key = edge.key)
  | .forward, none => false

/-- The first positioning of an iterator. -/
def opening (window : Window) : Course Unit :=
  match window.start with
  | none => .once window.direction.outset ()
  | some start =>
    .go (.seek start) fun
      | some key =>
        if window.overshoots start key then .once window.direction.step () else .arrive ()
      | none =>
        match window.direction with
        | .forward => .arrive ()
        | .backward => .once .last ()

/-- Leaves the iterator beyond the last entry in the direction of travel. -/
def park (window : Window) : Course Bool :=
  .go window.direction.terminus fun _ => .once window.direction.step true

/-- What follows a seek that has landed on `landing`. The result tells whether the iterator was
parked: so it is for a target outside the window, and where the target lies beyond all keys in the
direction of travel. -/
def settle (window : Window) (target : Bytes) (landing : Option Bytes) : Course Bool :=
  if window.outOfRange target then window.park
  else
    match landing with
    | some key =>
      if window.direction.before key target then .once window.direction.step false
      else .arrive false
    | none =>
      .go window.direction.outset fun
        | some key => if window.direction.before key target then window.park else .arrive false
        | none => .arrive false

end KeyScan.Window
