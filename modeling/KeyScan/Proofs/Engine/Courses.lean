import KeyScan.Engine.Positioning
import KeyScan.Proofs.Window.Bounds

/-! Where the courses of a reader lead among fixed pairs. However many corrections it takes, each one
lands on the first pair that travel meets past the place it aims at. -/
namespace KeyScan

/-- Follows a course among fixed pairs. -/
def Course.walk {α : Type} (pairs : List (Bytes × Bytes)) :
    Course α → Option (Bytes × Bytes) → α × Option (Bytes × Bytes)
  | .arrive result, current => (result, current)
  | .go move onward, current =>
    let landing := move.landing pairs current
    (onward (landing.map Prod.fst)).walk pairs landing

namespace Direction

variable {direction : Direction} {pairs : List (Bytes × Bytes)} {p : Bytes → Bool}

theorem head?_ahead_of_least {pair : Bytes × Bytes} (ascending : Ascending pairs)
    (member : pair ∈ direction.ahead pairs p)
    (least : ∀ other ∈ direction.ahead pairs p, ¬ direction.before other.1 pair.1) :
    (direction.ahead pairs p).head? = some pair := by
  have ordered : (direction.ahead pairs p).Pairwise fun a b => direction.before a.1 b.1 :=
    ahead_pairwise ascending p
  cases found : direction.ahead pairs p with
  | nil => simp [found] at member
  | cons first rest =>
    rw [found] at member ordered least
    rcases List.mem_cons.mp member with rfl | later
    · rfl
    · exact absurd ((List.pairwise_cons.mp ordered).1 pair later) (least first List.mem_cons_self)

private theorem ahead_congr {q : Bytes → Bool} (same : ∀ pair ∈ pairs, p pair.1 = q pair.1) :
    direction.ahead pairs p = direction.ahead pairs q :=
  List.filter_congr fun pair member => same pair (mem_arrange.mp member)

/-- A seek lands on a pair at or after its target, with only smaller keys before it. -/
theorem of_landing_seek {target : Bytes} {current : Option (Bytes × Bytes)} {here : Bytes × Bytes}
    (ascending : Ascending pairs)
    (lands : (Move.seek target).landing pairs current = some here) :
    here ∈ pairs ∧ target ≤ here.1 ∧ ∀ other ∈ pairs, other.1 < here.1 → other.1 < target := by
  obtain ⟨reached, before, after, split, skipped⟩ := List.find?_eq_some_iff_append.mp lands
  refine ⟨split ▸ List.mem_append_right before List.mem_cons_self, of_decide_eq_true reached, ?_⟩
  intro other member less
  rw [split, Ascending, List.pairwise_append, List.pairwise_cons] at ascending
  rw [split, List.mem_append, List.mem_cons] at member
  rcases member with early | rfl | late
  · have short := skipped other early
    grind
  · exact absurd less (List.lt_irrefl other.1)
  · exact absurd (List.lt_trans less (ascending.2.1.1 other late)) (List.lt_irrefl other.1)

private theorem of_landing_seek_none {target : Bytes} {current : Option (Bytes × Bytes)}
    (lost : (Move.seek target).landing pairs current = none) :
    ∀ other ∈ pairs, other.1 < target := by
  intro other member
  have short := List.find?_eq_none.mp lost other member
  grind

/-- Let a predicate hold of all keys that travel meets past a target and of no key before it. A seek
to the target, corrected by a step where it lands outside, finds the first pair of the predicate. -/
theorem landing_corrected {target : Bytes} {current : Option (Bytes × Bytes)} {here : Bytes × Bytes}
    (ascending : Ascending pairs) (never : ∀ key, p key = true → ¬ direction.before key target)
    (always : ∀ key, direction.before target key → p key = true)
    (lands : (Move.seek target).landing pairs current = some here) :
    (if p here.1 then some here else direction.step.landing pairs (some here)) =
      (direction.ahead pairs p).head? := by
  obtain ⟨member, reached, first⟩ := of_landing_seek ascending lands
  split
  · rename_i inside
    refine (head?_ahead_of_least ascending (mem_ahead.mpr ⟨member, inside⟩) ?_).symm
    intro other ahead earlier
    obtain ⟨present, holds⟩ := mem_ahead.mp ahead
    have notBefore := never other.1 holds
    cases direction with
    | forward => exact notBefore (first other present earlier)
    | backward =>
      simp only [before] at earlier notBefore
      grind
  · rename_i outside
    rw [landing_step, beyond]
    refine congrArg List.head? (ahead_congr ?_)
    intro other present
    rw [Bool.eq_iff_iff, decide_eq_true_eq]
    constructor
    · intro past
      refine always other.1 ?_
      cases direction with
      | forward =>
        simp only [before] at past ⊢
        grind
      | backward => exact first other present past
    · intro holds
      have notBefore := never other.1 holds
      have apart : other.1 ≠ here.1 := fun same => outside (same ▸ holds)
      cases direction with
      | forward =>
        have smaller := first other present
        simp only [before] at notBefore ⊢
        grind
      | backward =>
        simp only [before] at notBefore ⊢
        grind

/-- Where a seek finds no key at or after its target, travel forward is at its end, and travel
backward has not begun. -/
theorem landing_corrected_none {target : Bytes} {current : Option (Bytes × Bytes)}
    (never : ∀ key, p key = true → ¬ direction.before key target)
    (always : ∀ key, direction.before target key → p key = true)
    (lost : (Move.seek target).landing pairs current = none) :
    (direction.ahead pairs p).head? =
      if direction = .forward then none else pairs.getLast? := by
  have smaller := of_landing_seek_none lost
  cases direction with
  | forward =>
    have nothing : forward.ahead pairs p = [] := by
      refine List.filter_eq_nil_iff.mpr ?_
      intro other member holds
      exact never other.1 holds (smaller other member)
    rw [nothing]
    rfl
  | backward =>
    have everything : backward.ahead pairs p = pairs.reverse := by
      refine List.filter_eq_self.mpr ?_
      intro other member
      exact always other.1 (smaller other (List.mem_reverse.mp member))
    rw [everything, List.head?_reverse]
    rfl

end Direction

namespace Window

variable {window : Window} {pairs : List (Bytes × Bytes)}

theorem not_before_of_reached {start key : Bytes} (starts : window.start = some start)
    (holds : window.reached key = true) : ¬ window.direction.before key start := by
  unfold Window.start at starts
  unfold reached at holds
  cases near : window.near with
  | some edge =>
    rw [near] at starts holds
    cases starts
    exact Edge.not_before_of_isReached holds
  | none =>
    rw [near] at starts holds
    have origin : window.origin = some start := starts
    simpa [origin] using holds

theorem reached_of_before {start key : Bytes} (starts : window.start = some start)
    (past : window.direction.before start key) : window.reached key = true := by
  unfold Window.start at starts
  unfold reached
  cases near : window.near with
  | some edge =>
    rw [near] at starts
    cases starts
    exact Edge.isReached_of_before past
  | none =>
    rw [near] at starts
    have origin : window.origin = some start := starts
    have notBefore : ¬ window.direction.before key start := fun earlier =>
      Direction.before_irrefl _ _ (Direction.before_trans earlier past)
    simpa [origin] using notBefore

/-- A key at or after the start is left at once exactly if travel has not reached the window there. -/
theorem overshoots_eq {start key : Bytes} (starts : window.start = some start)
    (after : start ≤ key) : window.overshoots start key = !window.reached key := by
  unfold Window.start at starts
  unfold overshoots reached
  cases near : window.near with
  | some edge =>
    rw [near] at starts
    cases starts
    cases window.direction with
    | forward =>
      simp only [Edge.isReached, Edge.above]
      grind
    | backward => rfl
  | none =>
    rw [near] at starts
    have origin : window.origin = some start := starts
    rw [origin]
    cases window.direction with
    | forward =>
      have notBefore : ¬ Direction.forward.before key start := List.not_lt.mpr after
      simp [notBefore]
    | backward =>
      simp only [Option.all_some, Direction.before]
      grind

private theorem reached_of_start_eq_none (starts : window.start = none) (key : Bytes) :
    window.reached key = true := by
  unfold Window.start at starts
  unfold reached
  simp_all

/-- The first positioning lands on the first pair of the window's side of its start. -/
theorem opening_walk (window : Window) (ascending : Ascending pairs) (current : Option (Bytes × Bytes)) :
    window.opening.walk pairs current =
      ((), (window.direction.ahead pairs window.reached).head?) := by
  unfold opening
  split
  · rename_i starts
    have everything : window.direction.ahead pairs window.reached =
        window.direction.arrange pairs :=
      List.filter_eq_self.mpr fun pair _ => reached_of_start_eq_none starts pair.1
    rw [everything, ← Direction.landing_outset current]
    rfl
  · rename_i start starts
    have never : ∀ key, window.reached key = true → ¬ window.direction.before key start :=
      fun _ => not_before_of_reached starts
    have always : ∀ key, window.direction.before start key → window.reached key = true :=
      fun _ => reached_of_before starts
    rw [Course.walk]
    cases lands : (Move.seek start).landing pairs current with
    | some here =>
      have reached := (Direction.of_landing_seek ascending lands).2.1
      rw [← Direction.landing_corrected ascending never always lands]
      simp only [Option.map_some, overshoots_eq starts reached]
      cases window.reached here.1 <;> rfl
    | none =>
      rw [Direction.landing_corrected_none never always lands]
      simp only [Option.map_none]
      cases window.direction <;> rfl

theorem park_walk (window : Window) (ascending : Ascending pairs) (current : Option (Bytes × Bytes)) :
    window.park.walk pairs current = (true, none) := by
  simp only [park, Course.once, Course.walk,
    Direction.landing_step_terminus ascending current]

/-- Whether a seek to a target parks: the target lies outside the window, or travel forward finds
only smaller keys. -/
def parks (window : Window) (pairs : List (Bytes × Bytes)) (target : Bytes) : Bool :=
  window.outOfRange target ||
    (decide (window.direction = .forward) && !pairs.isEmpty &&
      pairs.all fun pair => decide (pair.1 < target))

/-- A seek inside the window lands on the first pair at or beyond its target; one outside, nowhere. -/
theorem settle_walk (ascending : Ascending pairs) (target : Bytes)
    (current : Option (Bytes × Bytes)) :
    let landing := (Move.seek target).landing pairs current
    (window.settle target (landing.map Prod.fst)).walk pairs landing =
      (window.parks pairs target,
        if window.outOfRange target then none
        else (window.direction.since pairs target).head?) := by
  intro landing
  unfold settle parks
  cases outside : window.outOfRange target with
  | true => simpa using park_walk window ascending landing
  | false =>
    simp only [Bool.false_eq_true, ↓reduceIte, Bool.false_or]
    have never (key : Bytes) (holds : (!decide (window.direction.before key target)) = true) :
        ¬ window.direction.before key target := by simpa using holds
    have always (key : Bytes) (past : window.direction.before target key) :
        (!decide (window.direction.before key target)) = true := by
      have notBefore : ¬ window.direction.before key target := fun earlier =>
        Direction.before_irrefl _ _ (Direction.before_trans past earlier)
      simpa using notBefore
    cases lands : landing with
    | some here =>
      obtain ⟨member, reached, _⟩ := Direction.of_landing_seek ascending lands
      have some_not_smaller : (pairs.all fun pair => decide (pair.1 < target)) = false := by
        refine List.all_eq_false.mpr ⟨here, member, ?_⟩
        simpa using List.not_lt.mpr reached
      rw [Direction.since, ← Direction.landing_corrected ascending never always lands,
        some_not_smaller, Bool.and_false]
      simp only [Option.map_some]
      by_cases short : window.direction.before here.1 target <;> simp [short, Course.once, Course.walk]
    | none =>
      have smaller := Direction.of_landing_seek_none lands
      have all_smaller : (pairs.all fun pair => decide (pair.1 < target)) = true :=
        List.all_eq_true.mpr fun pair member => decide_eq_true (smaller pair member)
      rw [Direction.since, Direction.landing_corrected_none never always lands, all_smaller,
        Bool.and_true]
      simp only [Option.map_none, Course.walk, Direction.landing_outset]
      cases direction : window.direction with
      | forward =>
        cases pairs with
        | nil => rfl
        | cons first rest =>
          have less := smaller first List.mem_cons_self
          have parked := park_walk window ascending (some first)
          simpa [Direction.arrange, Direction.before, less] using parked
      | backward =>
        simp only [Direction.arrange, List.head?_reverse, reduceCtorEq, decide_false,
          Bool.false_and]
        cases last : pairs.getLast? with
        | none => rfl
        | some here =>
          have less := smaller here (List.mem_of_getLast? last)
          have notGreater : ¬ target < here.1 := fun greater =>
            List.lt_irrefl target (List.lt_trans greater less)
          simp [Direction.before, notGreater, Course.walk]

end Window
end KeyScan
