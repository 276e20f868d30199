import KeyScan.Proofs.Window.Selection

namespace KeyScan

namespace ScanOptions

/-- Whether two bounds limit the same side of a range, neither of them empty. -/
def Clash (strict inclusive : Option Bytes) : Prop :=
  ∃ one other, strict = some one ∧ inclusive = some other ∧ one ≠ [] ∧ other ≠ []

/-- Where travel departs from: a bound on the side that it comes from, or else the start option. -/
def departure (options : ScanOptions) : Option Bytes :=
  if options.reverse then
    (Window.nonempty options.lt).or ((Window.nonempty options.lte).or (Window.nonempty options.start))
  else
    (Window.nonempty options.gt).or ((Window.nonempty options.gte).or (Window.nonempty options.start))

end ScanOptions

namespace Window

private theorem nonempty_eq_some_iff {bound : Option Bytes} {key : Bytes} :
    nonempty bound = some key ↔ bound = some key ∧ key ≠ [] := by
  rw [nonempty, Option.filter_eq_some_iff]
  simp

section Edges

variable {strict inclusive : Option Bytes} {conflict : Failure}

theorem edge_eq_error_iff {failure : Failure} :
    edge strict inclusive conflict = .error failure ↔
      failure = conflict ∧ ScanOptions.Clash strict inclusive := by
  constructor
  · intro refused
    refine ⟨edge_error refused, ?_⟩
    unfold edge at refused
    split at refused <;> cases refused
    rename_i one other first second
    obtain ⟨given, full⟩ := nonempty_eq_some_iff.mp first
    obtain ⟨also, filled⟩ := nonempty_eq_some_iff.mp second
    exact ⟨one, other, given, also, full, filled⟩
  · rintro ⟨rfl, one, other, given, also, full, filled⟩
    have first := nonempty_eq_some_iff.mpr ⟨given, full⟩
    have second := nonempty_eq_some_iff.mpr ⟨also, filled⟩
    simp only [edge, first, second]

private theorem edge_key {given : Option Edge} (described : edge strict inclusive conflict = .ok given) :
    given.map Edge.key = (nonempty strict).or (nonempty inclusive) := by
  unfold edge at described
  split at described <;> cases described <;> simp_all

end Edges

variable {options : ScanOptions} {window : Window}

/-- Options are refused exactly if two bounds on one side clash. -/
theorem ofOptions_eq_error_iff :
    (∃ failure, ofOptions options = .error failure) ↔
      ScanOptions.Clash options.lt options.lte ∨ ScanOptions.Clash options.gt options.gte := by
  cases upper : edge options.lt options.lte .twoUpperBounds with
  | error failure =>
    have clash := (edge_eq_error_iff.mp upper).2
    exact ⟨fun _ => .inl clash, fun _ => ⟨failure, by rw [ofOptions, upper]; rfl⟩⟩
  | ok above =>
    have apart : ¬ ScanOptions.Clash options.lt options.lte := fun clash =>
      nomatch upper.symm.trans (edge_eq_error_iff.mpr ⟨rfl, clash⟩)
    cases lower : edge options.gt options.gte .twoLowerBounds with
    | error failure =>
      have clash := (edge_eq_error_iff.mp lower).2
      exact ⟨fun _ => .inr clash, fun _ => ⟨failure, by rw [ofOptions, upper, lower]; rfl⟩⟩
    | ok below =>
      have alsoApart : ¬ ScanOptions.Clash options.gt options.gte := fun clash =>
        nomatch lower.symm.trans (edge_eq_error_iff.mpr ⟨rfl, clash⟩)
      constructor
      · rintro ⟨failure, refused⟩
        rw [ofOptions, upper, lower] at refused
        cases refused
      · intro clash
        exact absurd clash (not_or.mpr ⟨apart, alsoApart⟩)

theorem start_eq_departure (accepted : ofOptions options = .ok window) :
    window.start = options.departure := by
  obtain ⟨upper, lower, direction, origin, -, -, -, -⟩ := ofOptions_eq_ok accepted
  unfold start near ScanOptions.departure
  rw [direction, origin]
  cases options.reverse with
  | false => simp [Direction.ofReverse, edge_key lower, Option.or_assoc]
  | true => simp [Direction.ofReverse, edge_key upper, Option.or_assoc]

/-- Travel has reached a key unless the near edge refuses it, or it lies before the start. -/
theorem reached_eq_false_iff {key : Bytes} :
    window.reached key = false ↔
      window.near.all (·.isReached window.direction key) = false ∨
        ∃ start, window.start = some start ∧ window.direction.before key start := by
  unfold reached start
  cases window.near with
  | some edge =>
    constructor
    · exact .inl
    · rintro (refused | ⟨start, ⟨⟩, earlier⟩)
      · exact refused
      · exact Bool.eq_false_iff.mpr fun reached => Edge.not_before_of_isReached reached earlier
  | none => cases window.origin <;> simp

/-- A target lies outside if the window does not contain it, or if it lies before the start. -/
theorem outOfRange_iff {target : Bytes} :
    window.outOfRange target = true ↔
      window.contains target = false ∨
        ∃ start, window.start = some start ∧ window.direction.before target start := by
  rw [outOfRange_eq, contains_eq, Bool.not_eq_true', Bool.and_eq_false_iff, Bool.and_eq_false_iff,
    reached_eq_false_iff, or_assoc]

/-- The three answers of a window agree. Options are refused, as an invalid argument, exactly if two
nonempty bounds limit one side. Otherwise travel starts where they have it depart from, and a seek target
lies outside exactly if its key is not contained or lies before that start. -/
theorem ofOptions_answers (options : ScanOptions) :
    match ofOptions options with
    | .error failure =>
      (ScanOptions.Clash options.lt options.lte ∨ ScanOptions.Clash options.gt options.gte) ∧
        failure.report.code = .invalidArgument
    | .ok window =>
      ¬ (ScanOptions.Clash options.lt options.lte ∨ ScanOptions.Clash options.gt options.gte) ∧
        window.start = options.departure ∧
        ∀ target, window.outOfRange target = true ↔
          window.contains target = false ∨
            ∃ start, options.departure = some start ∧
              if options.reverse then start < target else target < start := by
  cases given : ofOptions options with
  | error failure => exact ⟨ofOptions_eq_error_iff.mp ⟨failure, given⟩, ofOptions_error given⟩
  | ok window =>
    have departure := start_eq_departure given
    refine ⟨?_, departure, ?_⟩
    · intro clash
      obtain ⟨failure, refused⟩ := ofOptions_eq_error_iff.mpr clash
      cases given.symm.trans refused
    · intro target
      rw [outOfRange_iff, departure, (ofOptions_eq_ok given).2.2.1]
      cases options.reverse <;> exact Iff.rfl

end Window
end KeyScan
