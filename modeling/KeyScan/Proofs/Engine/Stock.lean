import KeyScan.Engine.Script
import KeyScan.Proofs.Engine.Courses

/-! Engines that show a fixed stock of pairs and whose calls may fail. A failure is reported by the call,
which then leaves the iterator where it stands, or it costs the iterator its place. -/
namespace KeyScan

/-- Where a positioning call leads among pairs, if it succeeds; one that fails leads nowhere else. -/
def Move.outcome (pairs : List (Bytes × Bytes)) (landed : Except Report Bool)
    (current : Option (Bytes × Bytes)) (move : Move) : Option (Bytes × Bytes) :=
  match landed with
  | .ok _ => move.landing pairs current
  | .error _ => current

/-- What an engine owes to those who read ascending pairs at one of its snapshots. Any call may fail. -/
structure Stock (σ : Type) {ι : Type} [Engine σ ι] (sequence : Sequence)
    (pairs : List (Bytes × Bytes)) where
  ascending : Ascending pairs
  Serves : σ → Prop
  Holds : ι → σ → Prop
  /-- the iterator has lost its place -/
  Lost : ι → σ → Prop
  serves : ∀ {iterator engine}, Holds iterator engine → Serves engine
  reach : ∀ {engine}, Serves engine → pairs.length ≤ Engine.reach engine
  opened : ∀ {fillCache engine iterator after}, Serves engine →
    Engine.open fillCache sequence engine = (.ok iterator, after) →
      Holds iterator after ∧ Engine.entry? iterator after = none
  refused : ∀ {fillCache engine report after}, Serves engine →
    Engine.open fillCache sequence engine = (.error report, after) → Serves after
  /-- an iterator comes to stand where the call leads, or it stands nowhere and has lost its place; what
  is lost stays lost -/
  moved : ∀ {move iterator engine landed next after}, Holds iterator engine →
    Engine.move move iterator engine = (landed, next, after) →
      Holds next after ∧ (Lost iterator engine → Lost next after) ∧
        (Engine.entry? next after = move.outcome pairs landed (Engine.entry? iterator engine) ∨
          Engine.entry? next after = none ∧ Lost next after)
  closed : ∀ {iterator engine}, Holds iterator engine → Serves (Engine.close iterator engine)

namespace Stock

variable {σ ι α : Type} [Engine σ ι] {sequence : Sequence} {pairs : List (Bytes × Bytes)}

/-- No iterator loses its place: what fails is reported by the call that fails. -/
def Faithful (stock : Stock σ sequence pairs) : Prop :=
  ∀ {iterator engine}, stock.Holds iterator engine → ¬ stock.Lost iterator engine

/-- An iterator that has lost its place has recorded an error other than that there is nothing to find. -/
def Recorded (stock : Stock σ sequence pairs) : Prop :=
  ∀ {iterator engine}, stock.Holds iterator engine → stock.Lost iterator engine →
    ∃ report, Engine.health iterator engine = .error report ∧ report.code ≠ .notFound

/-- A course leads where it leads among the pairs, unless a call fails or the iterator loses its place
on the way. -/
theorem follow (stock : Stock σ sequence pairs) {course : Course α} {iterator next : ι}
    {engine after : σ} {result : Except Report α} (holds : stock.Holds iterator engine)
    (followed : course.follow iterator engine = (result, next, after)) :
    stock.Holds next after ∧ (stock.Lost iterator engine → stock.Lost next after) ∧
      (stock.Lost next after ∨ ∀ value, result = .ok value →
        course.walk pairs (Engine.entry? iterator engine) = (value, Engine.entry? next after)) := by
  induction course generalizing iterator engine with
  | arrive value =>
    cases followed
    refine ⟨holds, id, .inr ?_⟩
    rintro _ ⟨⟩
    rfl
  | go move onward ih =>
    unfold Course.follow at followed
    split at followed
    · rename_i failed
      cases followed
      obtain ⟨held, kept, -⟩ := stock.moved holds failed
      exact ⟨held, kept, .inr fun _ impossible => nomatch impossible⟩
    · rename_i landed
      obtain ⟨held, kept, place⟩ := stock.moved holds landed
      obtain ⟨last, still, walked⟩ := ih _ held followed
      refine ⟨last, still ∘ kept, ?_⟩
      rcases place with place | ⟨-, lost⟩
      · rw [place] at walked
        exact walked
      · exact .inl (still lost)

/-- Wherever a course leads, an iterator that stood on one of the pairs or nowhere still does. -/
theorem follow_mem (stock : Stock σ sequence pairs) {course : Course α} {iterator next : ι}
    {engine after : σ} {result : Except Report α} (holds : stock.Holds iterator engine)
    (within : ∀ here, Engine.entry? iterator engine = some here → here ∈ pairs)
    (followed : course.follow iterator engine = (result, next, after)) {here : Bytes × Bytes}
    (stands : Engine.entry? next after = some here) : here ∈ pairs := by
  induction course generalizing iterator engine with
  | arrive value =>
    cases followed
    exact within here stands
  | go move onward ih =>
    have still {landed : Except Report Bool} {between : ι} {during : σ}
        (moved : Engine.move move iterator engine = (landed, between, during)) :
        stock.Holds between during ∧
          ∀ here, Engine.entry? between during = some here → here ∈ pairs := by
      obtain ⟨held, -, place⟩ := stock.moved holds moved
      refine ⟨held, fun here there => ?_⟩
      rcases place with place | ⟨nowhere, -⟩
      · rw [there] at place
        cases landed with
        | error report => exact within here place.symm
        | ok landed => exact Move.mem_of_landing place.symm
      · cases there.symm.trans nowhere
    unfold Course.follow at followed
    split at followed
    · rename_i failed
      cases followed
      exact (still failed).2 here stands
    · rename_i landed
      exact ih _ (still landed).1 (still landed).2 followed

end Stock

/-- A condition of an engine under which no call of an iterator fails, neither now nor later. -/
structure Engine.Steady {σ ι : Type} [Engine σ ι] (Works : σ → Prop) : Prop where
  «open» : ∀ {engine} fillCache sequence, Works engine →
    ∃ iterator after, Engine.open fillCache sequence engine = (.ok iterator, after) ∧ Works after
  move : ∀ {engine} move iterator, Works engine →
    ∃ landed next after, Engine.move move iterator engine = (.ok landed, next, after) ∧ Works after

/-- Where no call fails, every course arrives. -/
theorem Engine.Steady.follow {σ ι α : Type} [Engine σ ι] {Works : σ → Prop}
    (steady : Engine.Steady Works) {engine : σ} (works : Works engine) (course : Course α)
    (iterator : ι) :
    ∃ value next after, course.follow iterator engine = (.ok value, next, after) ∧ Works after := by
  induction course generalizing iterator engine with
  | arrive value => exact ⟨value, iterator, engine, rfl, works⟩
  | go move onward ih =>
    obtain ⟨landed, next, after, moved, still⟩ := steady.move move iterator works
    simp only [Course.follow, moved]
    exact ih _ still next

end KeyScan
