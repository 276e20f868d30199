import KeyScan.Proofs.Travel
import KeyScan.Window

/-! What the bounds of a window ask of a key, split by where travel meets them: once travel has
reached the keys past the near end it stays among them, and once it has left the keys before the far
end it does not come back. -/
namespace KeyScan

/-- Whether a key satisfies an edge that travel meets as its near end. -/
def Edge.isReached (edge : Edge) (direction : Direction) (key : Bytes) : Bool :=
  match direction with
  | .forward => edge.above key
  | .backward => edge.below key

namespace Edge

variable {edge : Edge} {direction : Direction} {key : Bytes}

/-- Travel has reached the keys that are not before an inclusive edge, and those after a strict one. -/
theorem isReached_iff : edge.isReached direction key = true ↔
    if edge.inclusive then ¬ direction.before key edge.key else direction.before edge.key key := by
  obtain ⟨bound, inclusive⟩ := edge
  cases direction <;> cases inclusive <;>
    simp [isReached, above, below, Direction.before, List.not_lt]

theorem not_before_of_isReached (reached : edge.isReached direction key = true) :
    ¬ direction.before key edge.key := by
  rw [isReached_iff] at reached
  split at reached
  · exact reached
  · intro earlier
    exact Direction.before_irrefl direction key (Direction.before_trans earlier reached)

theorem isReached_of_before (past : direction.before edge.key key) :
    edge.isReached direction key = true := by
  rw [isReached_iff]
  split
  · intro earlier
    exact Direction.before_irrefl direction key (Direction.before_trans earlier past)
  · exact past

private theorem absorbs_isReached (edge : Edge) (direction : Direction) :
    direction.Absorbs (edge.isReached direction) := by
  intro a b earlier reached
  rw [isReached_iff] at reached ⊢
  by_cases inclusive : edge.inclusive = true
  · rw [if_pos inclusive] at reached ⊢
    exact fun later => reached (Direction.before_trans earlier later)
  · rw [if_neg inclusive] at reached ⊢
    exact Direction.before_trans reached earlier

private theorem isMissedBy_eq (edge : Edge) (target : Bytes) :
    edge.isMissedBy target = !edge.above target := by
  unfold isMissedBy above
  cases edge.inclusive <;> simp [← List.not_lt]

private theorem isPassedBy_eq (edge : Edge) (target : Bytes) :
    edge.isPassedBy target = !edge.below target := by
  unfold isPassedBy below
  cases edge.inclusive <;> simp [← List.not_lt]

end Edge

namespace Window

variable {window : Window}

/-- The edge that travel meets last. -/
def far (window : Window) : Option Edge :=
  match window.direction with
  | .forward => window.upper
  | .backward => window.lower

/-- Whether travel that starts where the window says has a key before it. -/
def reached (window : Window) (key : Bytes) : Bool :=
  match window.near with
  | some edge => edge.isReached window.direction key
  | none => window.origin.all fun origin => !decide (window.direction.before key origin)

def unpassed (window : Window) (key : Bytes) : Bool :=
  window.withinStop key &&
    window.far.all fun edge =>
      match window.direction with
      | .forward => edge.below key
      | .backward => edge.above key

theorem contains_eq (window : Window) (key : Bytes) :
    window.contains key =
      (window.unpassed key && window.near.all (·.isReached window.direction key)) := by
  unfold contains unpassed near far Edge.isReached
  cases window.direction with
  | forward => rfl
  | backward =>
    simp only [Bool.and_assoc]
    rw [Bool.and_comm (window.upper.all _)]

theorem absorbs_reached (window : Window) : window.direction.Absorbs window.reached := by
  intro a b earlier
  unfold reached
  split
  · exact Edge.absorbs_isReached _ _ a b earlier
  · cases window.origin with
    | none => exact fun holds => holds
    | some origin => exact Direction.absorbs_since _ origin a b earlier

private theorem all_imp {α : Type} {option : Option α} {p q : α → Bool}
    (imp : ∀ a, p a = true → q a = true) (holds : option.all p = true) : option.all q = true := by
  cases option with
  | none => rfl
  | some a => exact imp a holds

private theorem unpassed_of_before {a b : Bytes} (earlier : window.direction.before a b)
    (holds : window.unpassed b = true) : window.unpassed a = true := by
  obtain ⟨within, inside⟩ := Bool.and_eq_true_iff.mp holds
  refine Bool.and_eq_true_iff.mpr ⟨?_, ?_⟩
  · refine all_imp ?_ within
    intro stop notPast
    simp only [Bool.not_eq_true', decide_eq_false_iff_not] at notPast ⊢
    intro past
    exact notPast (Direction.before_trans past earlier)
  · refine all_imp ?_ inside
    intro edge short
    cases found : window.direction with
    | forward =>
      simp only [found, Direction.before] at earlier
      simp only [found, Edge.below] at short ⊢
      grind
    | backward =>
      simp only [found, Direction.before] at earlier
      simp only [found, Edge.above] at short ⊢
      grind

/-- Among keys past the near end, travel that has left the window does not come back. -/
theorem contains_pairwise {met : List (Bytes × Bytes)}
    (ordered : met.Pairwise fun a b => window.direction.before a.1 b.1)
    (past : ∀ pair ∈ met, window.near.all (·.isReached window.direction pair.1) = true) :
    met.Pairwise fun a b => window.contains b.1 = true → window.contains a.1 = true := by
  refine List.Pairwise.imp_of_mem ?_ ordered
  intro a b member _ earlier holds
  rw [contains_eq, Bool.and_eq_true] at holds ⊢
  exact ⟨unpassed_of_before earlier holds.1, past a member⟩

/-- Among keys past the near end, the keys of the window are the first that travel meets. -/
theorem takeWhile_contains {met : List (Bytes × Bytes)}
    (ordered : met.Pairwise fun a b => window.direction.before a.1 b.1)
    (past : ∀ pair ∈ met, window.near.all (·.isReached window.direction pair.1) = true) :
    met.takeWhile (fun pair => window.contains pair.1) =
      met.filter fun pair => window.contains pair.1 :=
  takeWhile_eq_filter (contains_pairwise ordered past)

theorem near_of_reached {key : Bytes} (holds : window.reached key = true) :
    window.near.all (·.isReached window.direction key) = true := by
  unfold reached at holds
  split at holds
  · rename_i edge found
    rw [found]
    exact holds
  · rename_i missing
    rw [missing]
    rfl

private theorem stop_any_eq (window : Window) (target : Bytes) :
    (window.stop.any fun stop => decide (window.direction.before stop target)) =
      !window.withinStop target := by
  unfold withinStop
  cases window.stop <;> simp

private theorem floor_any_eq (forward : window.direction = .forward) (target : Bytes) :
    window.floor.any (·.isMissedBy target) = !window.reached target := by
  unfold floor reached near
  rw [forward]
  cases window.lower with
  | some edge => exact edge.isMissedBy_eq target
  | none =>
    cases window.origin with
    | none => rfl
    | some origin =>
      have same : decide (target < origin) = decide (Direction.forward.before target origin) :=
        decide_eq_decide.mpr Iff.rfl
      simpa [Edge.isMissedBy] using same

private theorem ceiling_any_eq (backward : window.direction = .backward) (target : Bytes) :
    window.ceiling.any (·.isPassedBy target) = !window.reached target := by
  unfold ceiling reached near
  rw [backward]
  cases window.upper with
  | some edge => exact edge.isPassedBy_eq target
  | none =>
    cases window.origin with
    | none => rfl
    | some origin =>
      have same : decide (origin < target) = decide (Direction.backward.before target origin) :=
        decide_eq_decide.mpr Iff.rfl
      simpa [Edge.isPassedBy] using same

/-- A target lies outside if travel is past its end there, or has not reached its start. -/
theorem outOfRange_eq (window : Window) (target : Bytes) :
    window.outOfRange target = !(window.unpassed target && window.reached target) := by
  unfold outOfRange unpassed far
  rw [stop_any_eq]
  cases direction : window.direction with
  | forward =>
    have past : window.ceiling.any (·.isPassedBy target) = !window.upper.all (·.below target) := by
      unfold ceiling
      rw [direction]
      cases window.upper with
      | none => rfl
      | some edge => exact edge.isPassedBy_eq target
    rw [floor_any_eq direction, past]
    cases window.withinStop target <;> simp
  | backward =>
    have past : window.floor.any (·.isMissedBy target) = !window.lower.all (·.above target) := by
      unfold floor
      rw [direction]
      cases window.lower with
      | none => rfl
      | some edge => exact edge.isMissedBy_eq target
    rw [ceiling_any_eq direction, past]
    cases window.withinStop target <;> simp [Bool.or_comm]

/-- A target inside the window leaves only keys past the near end ahead of it. -/
theorem near_of_outOfRange {target key : Bytes} (inside : window.outOfRange target = false)
    (since : ¬ window.direction.before key target) :
    window.near.all (·.isReached window.direction key) = true := by
  rw [outOfRange_eq, Bool.not_eq_false', Bool.and_eq_true] at inside
  refine near_of_reached ?_
  by_cases same : key = target
  · exact same ▸ inside.2
  · exact window.absorbs_reached target key (Direction.before_of_not_before since same) inside.2

theorem test_count (window : Window) (key : Bytes) (count : UInt64) :
    (window.test key count).2 = if 0 ≤ window.limit then count + 1 else count := by
  unfold test
  split <;> rfl

theorem contains_of_test {key : Bytes} {count : UInt64}
    (admitted : (window.test key count).1 = true) : window.contains key = true := by
  unfold test at admitted
  split at admitted
  · exact (Bool.and_eq_true_iff.mp admitted).2
  · exact admitted

/-- Under a limit a key is admitted only while the counter, moved on by the test, has not passed it. -/
theorem test_of_limited {key : Bytes} {count : UInt64} (limited : 0 ≤ window.limit) :
    (window.test key count).1 = true ↔
      ((count + 1).toNat : Int) ≤ window.limit ∧ window.contains key = true := by
  rw [test, if_pos limited, Bool.and_eq_true, decide_eq_true_eq]

end Window
end KeyScan
