import KeyScan.Proofs.Engine.Stock
import KeyScan.Proofs.Reader.Outlook
import KeyScan.Proofs.Reader.Pin

/-! A reader on a stock of pairs. A read takes the next pair off what lies ahead of the reader, or it
fails and takes nothing, unless the iterator loses its place. -/
namespace KeyScan

namespace Reader

variable {σ ι : Type} [Engine σ ι] {sequence : Sequence} {pairs : List (Bytes × Bytes)}

/-- What a reader has before it from where its iterator stands. -/
def outlook (pairs : List (Bytes × Bytes)) (reader : Reader ι) (engine : σ) : Outlook where
  window := reader.window
  pairs := pairs
  ahead :=
    match reader.handle with
    | .pending => reader.window.direction.ahead pairs reader.window.reached
    | .opened iterator =>
      reader.window.direction.upcoming pairs reader.sought (Engine.entry? iterator engine)
    | .released => []
  count := reader.count

/-- A reader that draws on a stock: it has a snapshot of it and is not released. -/
structure Draws (reader : Reader ι) (stock : Stock σ sequence pairs) (engine : σ) : Prop where
  pin : reader.pin = some sequence
  handle :
    (reader.handle = .pending ∧ stock.Serves engine) ∨
    ∃ iterator, reader.handle = .opened iterator ∧ stock.Holds iterator engine

/-- A reader whose iterator has lost its place. -/
def Strays (reader : Reader ι) (stock : Stock σ sequence pairs) (engine : σ) : Prop :=
  ∃ iterator, reader.handle = .opened iterator ∧ stock.Lost iterator engine

variable {stock : Stock σ sequence pairs} {reader next : Reader ι} {engine after : σ}

theorem Draws.remark (draws : reader.Draws stock engine) (landed : Bool) (target : Option Bytes) :
    { reader with landed, target }.Draws stock engine := ⟨draws.pin, draws.handle⟩

theorem new_draws {window : Window} {fillCache : Bool} {engine : σ}
    {stock : Stock σ (Engine.acquire engine).1 pairs} (serves : stock.Serves (Engine.acquire engine).2) :
    (Reader.new window fillCache engine).1.Draws stock (Reader.new window fillCache engine).2 :=
  ⟨rfl, .inl ⟨rfl, serves⟩⟩

theorem Draws.not_strays (draws : reader.Draws stock engine) (faithful : stock.Faithful) :
    ¬ reader.Strays stock engine := by
  rintro ⟨iterator, opened, lost⟩
  rcases draws.handle with ⟨pending, -⟩ | ⟨_, same, holds⟩
  · cases opened.symm.trans pending
  · cases opened.symm.trans same
    exact faithful holds lost

/-- Where lost places are recorded, an iterator without a recorded error has not lost its place. -/
theorem Draws.not_strays_of_recorded (draws : reader.Draws stock engine) (recorded : stock.Recorded)
    (sound : reader.brokenOff? engine = none) : ¬ reader.Strays stock engine := by
  rintro ⟨iterator, opened, lost⟩
  rcases draws.handle with ⟨pending, -⟩ | ⟨_, same, holds⟩
  · cases opened.symm.trans pending
  · cases opened.symm.trans same
    obtain ⟨report, health, serious⟩ := recorded holds lost
    simp [brokenOff?, status, opened, health, serious] at sound

/-- An iterator is opened at the first pair of the window's side of its start. -/
theorem launch_stocked {result : Except Failure ι} (pin : reader.pin = some sequence)
    (serves : stock.Serves engine) (launched : reader.launch engine = (result, after)) :
    match result with
    | .error _ => stock.Serves after
    | .ok iterator =>
      stock.Holds iterator after ∧
        (stock.Lost iterator after ∨ Engine.entry? iterator after =
          (reader.window.direction.ahead pairs reader.window.reached).head?) := by
  unfold launch at launched
  simp only [pin] at launched
  split at launched
  · rename_i refused
    cases launched
    exact stock.refused serves refused
  · rename_i began
    obtain ⟨held, nowhere⟩ := stock.opened serves began
    split at launched
    · rename_i arrived
      cases launched
      obtain ⟨holds, -, place⟩ := stock.follow held arrived
      refine ⟨holds, place.imp_right fun walked => ?_⟩
      have there := walked () rfl
      rw [Window.opening_walk _ stock.ascending] at there
      exact (congrArg Prod.snd there).symm
    · rename_i failed
      cases launched
      exact stock.closed (stock.follow held failed).1

/-- Opening the iterator does not change what lies ahead. -/
theorem Draws.materialize {result : Except Failure (Bool × ι)} (draws : reader.Draws stock engine)
    (opened : reader.materialize engine = (result, next, after)) :
    next.Draws stock after ∧ (reader.Strays stock engine → next.Strays stock after) ∧
      match result with
      | .error _ => next = reader ∧ reader.handle = .pending
      | .ok (fresh, iterator) =>
        next = { reader with handle := .opened iterator } ∧ stock.Holds iterator after ∧
          (stock.Lost iterator after ∨ (reader.outlook pairs engine).ahead =
            reader.window.direction.upcoming pairs (fresh || reader.sought)
              (Engine.entry? iterator after)) := by
  unfold Reader.materialize at opened
  rcases draws.handle with ⟨pending, serves⟩ | ⟨iterator, handle, holds⟩
  · have settled : ¬ reader.Strays stock engine := by
      rintro ⟨_, opened, -⟩
      cases opened.symm.trans pending
    simp only [pending] at opened
    split at opened
    · rename_i launched
      cases opened
      exact ⟨⟨draws.pin, .inl ⟨pending, launch_stocked draws.pin serves launched⟩⟩,
        fun strays => absurd strays settled, rfl, pending⟩
    · rename_i iterator _ launched
      cases opened
      obtain ⟨holds, place⟩ := launch_stocked draws.pin serves launched
      refine ⟨⟨draws.pin, .inr ⟨iterator, rfl, holds⟩⟩, fun strays => absurd strays settled, rfl, holds,
        place.imp_right fun there => ?_⟩
      simp only [outlook, pending, there, Bool.true_or]
      exact (Direction.upcoming_head stock.ascending (Window.absorbs_reached reader.window)).symm
  · simp only [handle] at opened
    cases opened
    refine ⟨draws, id, ?_, holds, .inr ?_⟩
    · cases reader
      cases handle
      rfl
    · simp only [outlook, handle, Bool.false_or]

/-- Where a read has taken its iterator from where that was when the read began: to where it meets the pairs
that were ahead, unless it has lost its place. -/
structure Arrives (stock : Stock σ sequence pairs) (direction : Direction) (inclusive : Bool)
    (ahead : List (Bytes × Bytes)) (began : ι) (during : σ) (place : ι) (after : σ) : Prop where
  holds : stock.Holds place after
  kept : stock.Lost began during → stock.Lost place after
  there : direction.upcoming pairs inclusive (Engine.entry? place after) = ahead ∨
    Engine.entry? place after = none ∧ stock.Lost place after

/-- A reader whose iterator has been taken to where it is to look. -/
def arrivedAt (reader : Reader ι) (place : ι) : Reader ι :=
  { reader with handle := .opened place, sought := false }

/-- What a read comes to. -/
inductive Reads (stock : Stock σ sequence pairs) (reader : Reader ι) (engine : σ) :
    Except Failure (Option Entry) → Reader ι → σ → Prop where
  | unopened {failure : Failure} {after : σ} (pending : reader.handle = .pending)
      (draws : reader.Draws stock after) : Reads stock reader engine (.error failure) reader after
  | stuck {fresh : Bool} {iterator onward : ι} {during after : σ} {report : Report}
      (opened : reader.materialize engine =
        (.ok (fresh, iterator), { reader with handle := .opened iterator }, during))
      (arrives : Arrives stock reader.window.direction reader.sought
        (reader.window.direction.upcoming pairs (fresh || reader.sought) (Engine.entry? iterator during))
        iterator during onward after) :
      Reads stock reader engine (.error (.engine report)) { reader with handle := .opened onward } after
  | looked {fresh : Bool} {iterator place : ι} {during after : σ}
      (opened : reader.materialize engine =
        (.ok (fresh, iterator), { reader with handle := .opened iterator }, during))
      (arrives : Arrives stock reader.window.direction true
        (reader.window.direction.upcoming pairs (fresh || reader.sought) (Engine.entry? iterator during))
        iterator during place after) :
      Reads stock reader engine (.ok ((reader.arrivedAt place).look place after).1)
        ((reader.arrivedAt place).look place after).2 after

theorem Draws.reads {result : Except Failure (Option Entry)} (draws : reader.Draws stock engine)
    (read : reader.read engine = (result, next, after)) :
    Reads stock reader engine result next after := by
  unfold Reader.read at read
  split at read
  · rename_i failed
    cases read
    obtain ⟨drawn, -, rfl, pending⟩ := draws.materialize failed
    exact .unopened pending drawn
  · rename_i fresh iterator opening during began
    obtain ⟨-, -, rfl, holds, -⟩ := draws.materialize began
    split at read
    · rename_i ready
      cases read
      exact .looked began ⟨holds, id, .inl (by rw [ready])⟩
    · rename_i stale
      rw [Bool.not_eq_true] at stale
      have waiting : reader.sought = false := (Bool.or_eq_false_iff.mp stale).2
      split at read
      · rename_i failed
        cases read
        obtain ⟨held, kept, place⟩ := stock.moved holds failed
        refine .stuck began ⟨held, kept, place.imp_left fun same => ?_⟩
        rw [same, stale, waiting]
        rfl
      · rename_i onward _ moved
        obtain ⟨held, kept, place⟩ := stock.moved holds moved
        have settled : ({ reader with handle := .opened onward } : Reader ι) =
            reader.arrivedAt onward := by rw [arrivedAt, ← waiting]
        simp only [settled] at read
        cases read
        refine .looked began ⟨held, kept, place.imp_left fun same => ?_⟩
        rw [same, stale, Move.outcome, Direction.upcoming_step stock.ascending]

theorem Draws.after_look (draws : reader.Draws stock engine) (iterator : ι) :
    (reader.look iterator engine).2.Draws stock engine where
  pin := (look_pin reader engine iterator).trans draws.pin
  handle := (look_handle reader iterator engine).symm ▸ draws.handle

theorem Draws.look {iterator : ι} {before : Outlook} (draws : reader.Draws stock engine)
    (handle : reader.handle = .opened iterator) (sought : reader.sought = false)
    (arrived : stock.Lost iterator engine ∨ before = ⟨reader.window, pairs,
      reader.window.direction.upcoming pairs true (Engine.entry? iterator engine), reader.count⟩) :
    let looked := reader.look iterator engine
    looked.2.Draws stock engine ∧ (stock.Lost iterator engine → looked.2.Strays stock engine) ∧
      (looked.2.Strays stock engine ∨ before.read = (looked.1, looked.2.outlook pairs engine)) := by
  have still : (reader.look iterator engine).2.handle = .opened iterator :=
    (look_handle reader iterator engine).trans handle
  refine ⟨draws.after_look iterator, fun lost => ⟨iterator, still, lost⟩,
    arrived.imp (fun lost => ⟨iterator, still, lost⟩) ?_⟩
  rintro rfl
  unfold Reader.look Outlook.read outlook
  cases here : Engine.entry? iterator engine with
  | none => simp [handle, here, Direction.upcoming]
  | some pair => simp [handle, sought, here, Direction.upcoming]

/-- A read takes the next pair off what lies ahead, or it fails and takes nothing. -/
theorem Draws.read {result : Except Failure (Option Entry)} (draws : reader.Draws stock engine)
    (read : reader.read engine = (result, next, after)) :
    next.Draws stock after ∧ (reader.Strays stock engine → next.Strays stock after) ∧
      (next.Strays stock after ∨
        match result with
        | .error _ => next.outlook pairs after = reader.outlook pairs engine
        | .ok entry => (reader.outlook pairs engine).read = (entry, next.outlook pairs after)) := by
  cases draws.reads read with
  | unopened pending drawn =>
    refine ⟨drawn, ?_, .inr (by simp only [outlook, pending])⟩
    rintro ⟨_, opened, -⟩
    cases opened.symm.trans pending
  | stuck opened arrives =>
    obtain ⟨-, strays, -, -, ahead⟩ := draws.materialize opened
    refine ⟨⟨draws.pin, .inr ⟨_, rfl, arrives.holds⟩⟩, fun strayed => ?_, ?_⟩
    · obtain ⟨_, ⟨⟩, lost⟩ := strays strayed
      exact ⟨_, rfl, arrives.kept lost⟩
    · rcases arrives.there with there | ⟨-, lost⟩
      · refine ahead.imp (fun lost => ⟨_, rfl, arrives.kept lost⟩) fun ahead => ?_
        exact congrArg (Outlook.mk reader.window pairs · reader.count) (there.trans ahead.symm)
      · exact .inl ⟨_, rfl, lost⟩
  | @looked fresh iterator place during _ opened arrives =>
    obtain ⟨-, strays, -, -, ahead⟩ := draws.materialize opened
    have arrived : (reader.arrivedAt place).Draws stock after :=
      ⟨draws.pin, .inr ⟨place, rfl, arrives.holds⟩⟩
    have there : stock.Lost place after ∨ reader.outlook pairs engine = ⟨reader.window, pairs,
        reader.window.direction.upcoming pairs true (Engine.entry? place after), reader.count⟩ := by
      rcases arrives.there with there | ⟨-, lost⟩
      · refine ahead.imp arrives.kept fun ahead => ?_
        exact congrArg (Outlook.mk reader.window pairs · reader.count) (ahead.trans there.symm)
      · exact .inl lost
    obtain ⟨drawn, strayed, taken⟩ := arrived.look rfl rfl there
    refine ⟨drawn, fun strayed' => ?_, taken⟩
    obtain ⟨_, ⟨⟩, lost⟩ := strays strayed'
    exact strayed (arrives.kept lost)

/-! Where no call of the engine fails, none of the reader fails. -/

section Working

variable {Works : σ → Prop}

private theorem launch_works (steady : Engine.Steady (ι := ι) Works) (works : Works engine)
    (pin : reader.pin = some sequence) :
    ∃ iterator after, reader.launch engine = (.ok iterator, after) ∧ Works after := by
  obtain ⟨iterator, between, began, working⟩ := steady.open reader.fillCache sequence works
  obtain ⟨_, arrived, after, followed, still⟩ := steady.follow working reader.window.opening iterator
  refine ⟨arrived, after, ?_, still⟩
  simp only [launch, pin, began, followed]

theorem Draws.materialize_works (draws : reader.Draws stock engine) (steady : Engine.Steady Works)
    (works : Works engine) :
    ∃ opened next after, reader.materialize engine = (.ok opened, next, after) ∧ Works after := by
  unfold Reader.materialize
  rcases draws.handle with ⟨pending, -⟩ | ⟨iterator, opened, -⟩
  · obtain ⟨iterator, after, launched, still⟩ := launch_works steady works draws.pin
    simp only [pending, launched]
    exact ⟨_, _, after, rfl, still⟩
  · simp only [opened]
    exact ⟨_, _, engine, rfl, works⟩

theorem Draws.read_works (draws : reader.Draws stock engine) (steady : Engine.Steady Works)
    (works : Works engine) :
    ∃ entry next after, reader.read engine = (.ok entry, next, after) ∧ Works after := by
  obtain ⟨⟨fresh, iterator⟩, opening, between, began, working⟩ :=
    draws.materialize_works steady works
  unfold Reader.read
  simp only [began]
  split
  · exact ⟨_, _, between, rfl, working⟩
  · obtain ⟨landed, onward, after, moved, still⟩ :=
      steady.move opening.window.direction.step iterator working
    simp only [moved]
    exact ⟨_, _, after, rfl, still⟩

end Working

/-! However its iterator strays, a reader meets each pair at most once after it has opened it, so that a
page comes to its end. -/

/-- A bound on the reads that can still bring an entry. -/
def due (pairs : List (Bytes × Bytes)) (reader : Reader ι) (engine : σ) : Nat :=
  match reader.handle with
  | .pending => pairs.length + 1
  | .opened iterator =>
    (reader.window.direction.upcoming pairs reader.sought (Engine.entry? iterator engine)).length
  | .released => 0

private theorem due_le (pairs : List (Bytes × Bytes)) (reader : Reader ι) (engine : σ) :
    reader.due pairs engine ≤ pairs.length + 1 := by
  unfold due
  split
  · exact Nat.le_refl _
  · exact Direction.length_upcoming_le _ _
  · exact Nat.zero_le _

private theorem due_look {iterator : ι} {entry : Entry} (handle : reader.handle = .opened iterator)
    (sought : reader.sought = false) (looked : (reader.look iterator engine).1 = some entry) :
    (reader.look iterator engine).2.due pairs engine <
      (reader.window.direction.upcoming pairs true (Engine.entry? iterator engine)).length := by
  unfold look at looked ⊢
  cases here : Engine.entry? iterator engine with
  | none => simp [here] at looked
  | some pair => simp [due, handle, sought, here, Direction.upcoming]

private theorem Draws.due_materialize {fresh : Bool} {iterator : ι} (draws : reader.Draws stock engine)
    (opened : reader.materialize engine = (.ok (fresh, iterator), next, after)) :
    (reader.window.direction.upcoming pairs (fresh || reader.sought)
      (Engine.entry? iterator after)).length ≤ reader.due pairs engine := by
  rcases draws.handle with ⟨pending, -⟩ | ⟨_, handle, -⟩
  · simp only [due, pending]
    exact Direction.length_upcoming_le _ _
  · simp only [Reader.materialize, handle, Prod.mk.injEq, Except.ok.injEq] at opened
    obtain ⟨⟨rfl, rfl⟩, -, rfl⟩ := opened
    simp only [due, handle, Bool.false_or, Nat.le_refl]

private theorem Draws.due_read {entry : Entry} (draws : reader.Draws stock engine)
    (read : reader.read engine = (.ok (some entry), next, after)) :
    next.due pairs after < reader.due pairs engine := by
  generalize brings : (.ok (some entry) : Except Failure (Option Entry)) = result at read
  cases draws.reads read with
  | unopened pending drawn => cases brings
  | stuck opened arrives => cases brings
  | looked opened arrives =>
    have shown := (Except.ok.inj brings).symm
    refine Nat.lt_of_lt_of_le (due_look rfl rfl shown) (Nat.le_trans ?_ (draws.due_materialize opened))
    rcases arrives.there with there | ⟨nowhere, -⟩
    · exact Nat.le_of_eq (congrArg List.length there)
    · rw [nowhere]
      exact Nat.zero_le _

/-- More fuel than reads that can bring an entry makes no difference to a page. -/
theorem Draws.gather_eq {fuel other : Nat} (draws : reader.Draws stock engine)
    (highWaterMark size : Nat) (entries : List Entry) (enough : reader.due pairs engine < fuel)
    (also : reader.due pairs engine < other) :
    reader.gather highWaterMark fuel size entries engine =
      reader.gather highWaterMark other size entries engine := by
  induction fuel generalizing reader engine other size entries with
  | zero => exact absurd enough (Nat.not_lt_zero _)
  | succ fuel ih =>
    obtain ⟨other, rfl⟩ := Nat.exists_eq_succ_of_ne_zero (Nat.ne_zero_of_lt also)
    unfold gather
    split
    · rfl
    · rfl
    · rename_i entry next after read
      have less := draws.due_read read
      have drawn := (draws.read read).1
      simp only
      split
      · rfl
      · exact ih (drawn.remark true next.target) _ _ (Nat.lt_of_lt_of_le less (Nat.le_of_lt_succ enough))
          (Nat.lt_of_lt_of_le less (Nat.le_of_lt_succ also))

/-- A page is read to its end: more fuel than it is given makes no difference. -/
theorem Draws.page_eq {fuel : Nat} (draws : reader.Draws stock engine) (highWaterMark : Nat)
    (enough : Engine.reach engine + 2 ≤ fuel) :
    reader.gather highWaterMark fuel 0 [] engine = reader.page highWaterMark engine := by
  have bound : reader.due pairs engine < Engine.reach engine + 2 := by
    have serves : stock.Serves engine := by
      rcases draws.handle with ⟨-, serves⟩ | ⟨_, -, holds⟩
      · exact serves
      · exact stock.serves holds
    have reach := stock.reach serves
    have due := due_le pairs reader engine
    omega
  exact draws.gather_eq highWaterMark 0 [] (Nat.lt_of_lt_of_le bound enough) bound

end Reader
end KeyScan
