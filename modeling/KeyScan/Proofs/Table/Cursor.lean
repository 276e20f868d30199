import KeyScan.Proofs.Table.Scan

namespace KeyScan

/-- The pairs that lookups at a sequence number find, in ascending order of keys. -/
structure VersionTable.Lists (table : VersionTable) (sequence : Sequence)
    (pairs : List (Bytes × Bytes)) : Prop where
  ascending : Ascending pairs
  found : ∀ key value, (key, value) ∈ pairs ↔ table.get key sequence = (true, some value)

inductive TableCall where
  | add (sequence : Sequence) (key value : Bytes)
  | delete (sequence : Sequence) (key : Bytes)
  | move (move : Move)

/-- What a move shows: whether it landed, and what the walker tells of the place it stands on
then. -/
structure Sight where
  landed : Bool
  valid : Bool
  key : Bytes
  value : Bytes

/-- What the moves among some calls show. -/
def TableWalker.sights : List TableCall → VersionTable → TableWalker → List Sight
  | [], _, _ => []
  | .add sequence key value :: rest, table, walker =>
    walker.sights rest (table.add sequence key value)
  | .delete sequence key :: rest, table, walker => walker.sights rest (table.delete sequence key)
  | .move move :: rest, table, walker =>
    let (landed, walker) := walker.move table move
    ⟨landed, walker.valid, walker.key, walker.value⟩ :: walker.sights rest table

/-- What is shown of a pair, or of no place. -/
def Sight.of : Option (Bytes × Bytes) → Sight
  | some (key, value) => ⟨true, true, key, value⟩
  | none => ⟨false, false, [], []⟩

/-- A cursor that stands on a pair or nowhere goes through some calls and shows some sights. It
keeps its place while the table is written, and it moves among the pairs that lookups find then. -/
inductive CursorTrace (sequence : Sequence) :
    VersionTable → Option (Bytes × Bytes) → List TableCall → List Sight → Prop where
  | done {table : VersionTable} {place : Option (Bytes × Bytes)} :
      CursorTrace sequence table place [] []
  | add {table : VersionTable} {place : Option (Bytes × Bytes)} {number : Sequence}
      {key value : Bytes} {rest : List TableCall} {sights : List Sight}
      (next : CursorTrace sequence (table.add number key value) place rest sights) :
      CursorTrace sequence table place (.add number key value :: rest) sights
  | delete {table : VersionTable} {place : Option (Bytes × Bytes)} {number : Sequence}
      {key : Bytes} {rest : List TableCall} {sights : List Sight}
      (next : CursorTrace sequence (table.delete number key) place rest sights) :
      CursorTrace sequence table place (.delete number key :: rest) sights
  | move {table : VersionTable} {place : Option (Bytes × Bytes)} {pairs : List (Bytes × Bytes)}
      {move : Move} {rest : List TableCall} {sights : List Sight}
      (lists : table.Lists sequence pairs)
      (next : CursorTrace sequence table (move.landing pairs place) rest sights) :
      CursorTrace sequence table place (.move move :: rest)
        (.of (move.landing pairs place) :: sights)

namespace VersionTable

variable {table : VersionTable} {sequence : Sequence}

private theorem get_eq_some_iff {key value : Bytes} :
    table.get key sequence = (true, some value) ↔ table.valueAt? key sequence = some value := by
  unfold get valueAt?
  cases table.visible? key sequence <;> simp

private theorem lists_live (table : VersionTable) (sequence : Sequence) :
    table.Lists sequence (table.live sequence) where
  ascending := table.live_ascending sequence
  found key value := by rw [mem_live_iff, get_eq_some_iff]

/-- Lookups determine the pairs they find. -/
theorem Lists.eq_live {pairs : List (Bytes × Bytes)} (lists : table.Lists sequence pairs) :
    pairs = table.live sequence := by
  refine lists.ascending.ext (table.live_ascending sequence) ?_
  rintro ⟨key, value⟩
  rw [lists.found, (table.lists_live sequence).found]

end VersionTable

namespace TableWalker

private theorem sight_of_current (walker : TableWalker) :
    (⟨walker.current.isSome, walker.valid, walker.key, walker.value⟩ : Sight) =
      .of walker.current := by
  unfold valid key value
  cases walker.current <;> rfl

/-- One move of a walker shows the place that it leads to among the live pairs. -/
theorem sights_move (walker : TableWalker) (table : VersionTable) (move : Move)
    (rest : List TableCall) :
    walker.sights (.move move :: rest) table =
      .of (move.landing (table.live walker.sequence) walker.current) ::
        sights rest table
          ⟨walker.sequence, move.landing (table.live walker.sequence) walker.current⟩ := by
  rw [← walker.destination_eq table move, ← sight_of_current ⟨_, _⟩]
  rfl

theorem cursorTrace_iff {sights : List Sight} (calls : List TableCall) (table : VersionTable)
    (walker : TableWalker) :
    CursorTrace walker.sequence table walker.current calls sights ↔
      sights = walker.sights calls table := by
  induction calls generalizing table walker sights with
  | nil =>
    constructor
    · rintro ⟨⟩
      rfl
    · rintro rfl
      exact .done
  | cons call rest ih =>
    cases call with
    | add number key value =>
      constructor
      · rintro ⟨⟩
        rename_i next
        exact (ih _ walker).mp next
      · intro shown
        exact .add ((ih _ walker).mpr shown)
    | delete number key =>
      constructor
      · rintro ⟨⟩
        rename_i next
        exact (ih _ walker).mp next
      · intro shown
        exact .delete ((ih _ walker).mpr shown)
    | move move =>
      let moved : TableWalker :=
        ⟨walker.sequence, move.landing (table.live walker.sequence) walker.current⟩
      rw [sights_move]
      constructor
      · intro trace
        cases trace with
        | move lists next =>
          rw [lists.eq_live] at next ⊢
          exact congrArg _ ((ih table moved).mp next)
      · rintro rfl
        exact .move (table.lists_live walker.sequence) ((ih table moved).mpr rfl)

/-- A walker over a table, written and moved by any calls from the start, shows exactly what a
cursor shows that moves among the pairs which lookups find at the walker's sequence number. -/
theorem sights_refine_cursor (sequence : Sequence) (calls : List TableCall) (sights : List Sight) :
    CursorTrace sequence .empty none calls sights ↔
      sights = (TableWalker.start sequence).sights calls .empty :=
  cursorTrace_iff calls .empty (.start sequence)

/-- A deletion under the largest number and a value under zero are bounds of the scans
themselves. -/
example : (TableWalker.start 18446744073709551615).sights
    [.add 0 [1] [10], .move .first, .delete 18446744073709551615 [1], .add 0 [2] [20], .move .next,
      .move .prev, .move .next] .empty =
    [.of (some ([1], [10])), .of (some ([2], [20])), .of none, .of none] := by
  rfl

end TableWalker
end KeyScan
