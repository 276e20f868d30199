import KeyScan.Page
import KeyScan.Proofs.Window.Bounds

namespace KeyScan

namespace ScanOptions

/-- Whether a key satisfies the stated bounds. An empty bound says nothing, and the start option
binds only where no other bound limits the side that travel comes from. -/
def selects (options : ScanOptions) (key : Bytes) : Bool :=
  let lt := Window.nonempty options.lt
  let lte := Window.nonempty options.lte
  let gt := Window.nonempty options.gt
  let gte := Window.nonempty options.gte
  let start := Window.nonempty options.start
  let stop := Window.nonempty options.stop
  lt.all (fun bound => decide (key < bound)) && lte.all (fun bound => decide (key ≤ bound)) &&
    gt.all (fun bound => decide (bound < key)) && gte.all (fun bound => decide (bound ≤ key)) &&
    (if options.reverse then
      stop.all (fun bound => decide (bound ≤ key)) &&
        (lt.isSome || lte.isSome || start.all fun bound => decide (key ≤ bound))
    else
      stop.all (fun bound => decide (key ≤ bound)) &&
        (gt.isSome || gte.isSome || start.all fun bound => decide (bound ≤ key)))

/-- Chosen pairs in ascending order of keys as a scan delivers them after it has counted some keys: in
the order of travel, no more than the limit leaves, each with the sides asked for. -/
def present (options : ScanOptions) (count : Nat) (chosen : List (Bytes × Bytes)) : List Entry :=
  let travelled := if options.reverse then chosen.reverse else chosen
  let limited :=
    if options.limit < 0 then travelled else travelled.take (options.limit - count).toNat
  limited.map fun pair =>
    ⟨if options.keys then some pair.1 else none, if options.values then some pair.2 else none⟩

/-- The entries that a scan of ascending pairs delivers. -/
def selection (options : ScanOptions) (pairs : List (Bytes × Bytes)) : List Entry :=
  options.present 0 (pairs.filter fun pair => options.selects pair.1)

end ScanOptions

namespace Window

variable {strict inclusive : Option Bytes} {conflict : Failure} {given : Option Edge}

private theorem edge_below (described : edge strict inclusive conflict = .ok given) (key : Bytes) :
    given.all (·.below key) =
      ((nonempty strict).all (fun bound => decide (key < bound)) &&
        (nonempty inclusive).all fun bound => decide (key ≤ bound)) := by
  unfold edge at described
  split at described <;> cases described <;> simp_all [Edge.below]

private theorem edge_above (described : edge strict inclusive conflict = .ok given) (key : Bytes) :
    given.all (·.above key) =
      ((nonempty strict).all (fun bound => decide (bound < key)) &&
        (nonempty inclusive).all fun bound => decide (bound ≤ key)) := by
  unfold edge at described
  split at described <;> cases described <;> simp_all [Edge.above]

private theorem edge_isSome (described : edge strict inclusive conflict = .ok given) :
    given.isSome = ((nonempty strict).isSome || (nonempty inclusive).isSome) := by
  unfold edge at described
  split at described <;> cases described <;> simp_all

theorem edge_error {failure : Failure} (refused : edge strict inclusive conflict = .error failure) :
    failure = conflict := by
  unfold edge at refused
  split at refused <;> cases refused
  rfl

variable {options : ScanOptions} {window : Window}

theorem ofOptions_error {failure : Failure} (refused : ofOptions options = .error failure) :
    failure.report.code = .invalidArgument := by
  unfold ofOptions at refused
  cases upper : edge options.lt options.lte .twoUpperBounds with
  | error conflict =>
    rw [upper] at refused
    cases refused
    rw [edge_error upper]
    rfl
  | ok above =>
    cases lower : edge options.gt options.gte .twoLowerBounds with
    | error conflict =>
      rw [upper, lower] at refused
      cases refused
      rw [edge_error lower]
      rfl
    | ok below =>
      rw [upper, lower] at refused
      cases refused

/-- What a window owes to the options that describe it. -/
theorem ofOptions_eq_ok (accepted : ofOptions options = .ok window) :
    edge options.lt options.lte .twoUpperBounds = .ok window.upper ∧
      edge options.gt options.gte .twoLowerBounds = .ok window.lower ∧
      window.direction = .ofReverse options.reverse ∧
      window.origin = nonempty options.start ∧ window.stop = nonempty options.stop ∧
      window.limit = options.limit ∧ window.keys = options.keys ∧
      window.values = options.values := by
  unfold ofOptions at accepted
  cases upper : edge options.lt options.lte .twoUpperBounds with
  | error failure =>
    rw [upper] at accepted
    cases accepted
  | ok one =>
    cases lower : edge options.gt options.gte .twoLowerBounds with
    | error failure =>
      rw [upper, lower] at accepted
      cases accepted
    | ok two =>
      rw [upper, lower] at accepted
      cases accepted
      exact ⟨rfl, rfl, rfl, rfl, rfl, rfl, rfl, rfl⟩

private theorem reached_eq (window : Window) (key : Bytes) :
    window.reached key =
      (window.near.all (·.isReached window.direction key) &&
        (window.near.isSome ||
          window.origin.all fun origin => !decide (window.direction.before key origin))) := by
  unfold reached
  cases window.near <;> simp

private theorem not_decide_lt (a b : Bytes) : (!decide (a < b)) = decide (b ≤ a) := by
  grind

/-- The keys at which travel is under way and within the window are those that the options select. -/
theorem reached_and_contains (accepted : ofOptions options = .ok window) (key : Bytes) :
    (window.reached key && window.contains key) = options.selects key := by
  obtain ⟨upper, lower, direction, origin, stop, -, -, -⟩ := ofOptions_eq_ok accepted
  have below := edge_below upper key
  have above := edge_above lower key
  have top := edge_isSome upper
  have bottom := edge_isSome lower
  rw [reached_eq, contains, withinStop, origin, stop]
  unfold near ScanOptions.selects
  cases reverse : options.reverse with
  | false =>
    simp only [direction, reverse, Direction.ofReverse, Bool.false_eq_true, ↓reduceIte,
      Edge.isReached, Direction.before, not_decide_lt, below, above, bottom]
    grind
  | true =>
    simp only [direction, reverse, Direction.ofReverse, ↓reduceIte,
      Edge.isReached, Direction.before, not_decide_lt, below, above, top]
    grind

end Window
end KeyScan
