import Mathlib.Data.List.Induction
import KeyScan.Proofs.Engine.Contents
import KeyScan.Proofs.Table.Scan

namespace KeyScan.MemoryEngine

/-- A call on an engine or on an iterator of it. -/
inductive Call where
  | write (entry : Write)
  | acquire
  | release (sequence : Sequence)
  | «open» (fillCache : Bool) (sequence : Sequence)
  | move (move : Move) (iterator : TableWalker)
  | close (iterator : TableWalker)

def Call.write? : Call → Option Write
  | .write entry => some entry
  | .acquire | .release _ | .open _ _ | .move _ _ | .close _ => none

def after (engine : MemoryEngine) : Call → MemoryEngine
  | .write entry => engine.apply entry
  | .acquire => (Engine.acquire engine).2
  | .release sequence => Engine.release sequence engine
  | .open fillCache sequence => (Engine.open fillCache sequence engine).2
  | .move move iterator => (Engine.move move iterator engine).2.2
  | .close iterator => Engine.close iterator engine

def afterAll (engine : MemoryEngine) (calls : List Call) : MemoryEngine := calls.foldl after engine

def writesOf (calls : List Call) : List Write := calls.filterMap Call.write?

/-- The value that was written to a key last, unless it was deleted since or never written. -/
def latest? (key : Bytes) (writes : List Write) : Option Bytes :=
  (writes.reverse.find? fun write => decide (write.key = key)).bind Write.value

/-- Moves an iterator to where travel starts and then step by step, with some calls before each
move; gives what it stands on after each. -/
def travel (step : Move) :
    Move → List (List Call) → TableWalker → MemoryEngine → List (Option (Bytes × Bytes))
  | _, [], _, _ => []
  | move, calls :: rest, iterator, engine =>
    let (_, iterator, engine) := Engine.move move iterator (engine.afterAll calls)
    Engine.entry? iterator engine :: travel step step rest iterator engine

variable {engine : MemoryEngine} {sequence : Sequence} {writes : List Write}

/-- Only writes change the table and the number of the last write. -/
theorem after_agrees {call : Call} (silent : call.write? = none) :
    engine.Agrees (engine.after call) := by
  cases call with
  | write entry => cases silent
  | acquire => exact engine.acquire_agrees
  | release sequence => exact ⟨rfl, rfl⟩
  | «open» fillCache sequence => exact .refl engine
  | move move iterator => exact .refl engine
  | close iterator => exact .refl engine

theorem Holds.after {call : Call} (holds : engine.Holds writes)
    (room : (writes ++ call.write?.toList).length < 2 ^ 64) :
    (engine.after call).Holds (writes ++ call.write?.toList) := by
  cases written : call.write? with
  | none =>
    rw [Option.toList_none, List.append_nil]
    exact holds.agrees (after_agrees written)
  | some entry =>
    rw [written, Option.toList_some, List.length_append, List.length_singleton] at room
    cases call <;> cases written
    exact holds.apply room

private theorem length_lt_of_append {front back : List Write} {bound : Nat}
    (room : (front ++ back).length < bound) : front.length < bound := by
  rw [List.length_append] at room
  exact Nat.lt_of_le_of_lt (Nat.le_add_right _ _) room

theorem writesOf_append (first second : List Call) :
    writesOf (first ++ second) = writesOf first ++ writesOf second :=
  List.filterMap_append

theorem writesOf_cons (call : Call) (rest : List Call) :
    writes ++ writesOf (call :: rest) = writes ++ call.write?.toList ++ writesOf rest := by
  rw [writesOf, List.filterMap_cons, List.append_assoc]
  cases call.write? <;> rfl

/-- The engine after some calls shows the plain map of their writes. -/
theorem Holds.afterAll {calls : List Call} (holds : engine.Holds writes)
    (room : (writes ++ writesOf calls).length < 2 ^ 64) :
    (engine.afterAll calls).Holds (writes ++ writesOf calls) := by
  induction calls generalizing engine writes with
  | nil => simpa [writesOf, MemoryEngine.afterAll] using holds
  | cons call rest ih =>
    rw [writesOf_cons] at room ⊢
    exact ih (holds.after (length_lt_of_append room)) room

private theorem live_after {call : Call} (holds : engine.Holds writes)
    (room : (writes ++ call.write?.toList).length < 2 ^ 64) (earlier : sequence ≤ engine.sequence) :
    (engine.after call).table.live sequence = engine.table.live sequence ∧
      sequence ≤ (engine.after call).sequence := by
  cases written : call.write? with
  | none =>
    have agrees := engine.after_agrees written
    rw [agrees.table, agrees.sequence]
    exact ⟨rfl, earlier⟩
  | some entry =>
    rw [written, Option.toList_some, List.length_append, List.length_singleton, ← holds.counted]
      at room
    cases call <;> cases written
    refine ⟨live_apply_of_le room earlier, ?_⟩
    rw [MemoryEngine.after, apply_sequence]
    exact UInt64.le_of_lt (lt_succ room earlier)

/-- What a reader at an earlier number sees outlasts all calls. -/
theorem live_afterAll {calls : List Call} (holds : engine.Holds writes)
    (room : (writes ++ writesOf calls).length < 2 ^ 64) (earlier : sequence ≤ engine.sequence) :
    (engine.afterAll calls).table.live sequence = engine.table.live sequence ∧
      sequence ≤ (engine.afterAll calls).sequence := by
  induction calls generalizing engine writes with
  | nil => exact ⟨rfl, earlier⟩
  | cons call rest ih =>
    rw [writesOf_cons] at room
    have short := length_lt_of_append room
    have ⟨same, still⟩ := live_after holds short earlier
    have ⟨later, bound⟩ := ih (holds.after short) room still
    exact ⟨later.trans same, bound⟩

private theorem mem_contents_iff (writes : List Write) (pair : Bytes × Bytes) :
    pair ∈ contents writes ↔ latest? pair.1 writes = some pair.2 := by
  induction writes using List.reverseRecOn with
  | nil => simp [contents, latest?]
  | append_singleton before write ih =>
    rw [contents_concat, Write.mem_enter_iff, latest?, List.reverse_append, List.reverse_singleton,
      List.singleton_append, List.find?_cons]
    by_cases same : write.key = pair.1
    · simp [same]
    · simpa [same, latest?] using ih

private theorem contents_ascending (writes : List Write) : Ascending (contents writes) := by
  induction writes using List.reverseRecOn with
  | nil => exact .nil
  | append_singleton before write ih =>
    rw [contents_concat]
    exact write.enter_ascending ih

theorem Holds.get?_eq (holds : engine.Holds writes) (key : Bytes) :
    engine.get? key = latest? key writes := by
  have found : engine.get? key = engine.table.valueAt? key engine.sequence := by
    unfold get? VersionTable.get VersionTable.valueAt?
    cases engine.table.visible? key engine.sequence <;> rfl
  ext value
  rw [found, ← mem_contents_iff writes (key, value), ← holds.shown, live,
    VersionTable.mem_live_iff]

/-- An iterator that travels among lasting pairs stands on one after the other, then nowhere. -/
theorem travel_eq {direction : Direction} {pairs : List (Bytes × Bytes)} (ascending : Ascending pairs)
    {breaks : List (List Call)} {iterator : TableWalker} {move : Move} {place : Nat}
    (holds : engine.Holds writes) (room : (writes ++ writesOf breaks.flatten).length < 2 ^ 64)
    (earlier : iterator.sequence ≤ engine.sequence)
    (shown : engine.table.live iterator.sequence = pairs)
    (leads : move.landing pairs iterator.current = (direction.arrange pairs)[place]?) :
    travel direction.step move breaks iterator engine =
      (List.range breaks.length).map fun count => (direction.arrange pairs)[place + count]? := by
  induction breaks generalizing engine writes iterator move place with
  | nil => rfl
  | cons calls rest ih =>
    have split : writes ++ writesOf (calls :: rest).flatten =
        writes ++ writesOf calls ++ writesOf rest.flatten := by
      rw [List.flatten_cons, writesOf_append, List.append_assoc]
    rw [split] at room
    have short := length_lt_of_append room
    have ⟨same, still⟩ := live_afterAll holds short earlier
    rw [shown] at same
    let moved : TableWalker := ⟨iterator.sequence, (direction.arrange pairs)[place]?⟩
    have landed : (iterator.move (engine.afterAll calls).table move).2 = moved := by
      rw [TableWalker.move, TableWalker.destination_eq, same, leads]
    have onward : travel direction.step direction.step rest moved (engine.afterAll calls) =
        (List.range rest.length).map fun count => (direction.arrange pairs)[place + 1 + count]? :=
      ih (holds.afterAll short) room still same (Direction.landing_step_getElem? ascending place)
    have unfolded : travel direction.step move (calls :: rest) iterator engine =
        moved.current :: travel direction.step direction.step rest moved (engine.afterAll calls) := by
      rw [← landed]
      rfl
    rw [unfolded, onward, List.length_cons, List.range_succ_eq_map, List.map_cons, List.map_map]
    refine congrArg _ (List.map_congr_left ?_)
    intro count _
    rw [Function.comp_apply, Nat.add_right_comm]
    rfl

private theorem travel_start {direction : Direction} {pairs : List (Bytes × Bytes)}
    (ascending : Ascending pairs) {breaks : List (List Call)} (holds : engine.Holds writes)
    (room : (writes ++ writesOf breaks.flatten).length < 2 ^ 64)
    (earlier : sequence ≤ engine.sequence) (shown : engine.table.live sequence = pairs) :
    travel direction.step direction.outset breaks (.start sequence) engine =
      (List.range breaks.length).map fun place => (direction.arrange pairs)[place]? := by
  have leads : direction.outset.landing pairs (TableWalker.start sequence).current =
      (direction.arrange pairs)[0]? := by
    rw [Direction.landing_outset, List.head?_eq_getElem?]
  rw [travel_eq ascending holds room earlier shown leads]
  simp only [Nat.zero_add]

/-- The pairs of a plain map that was written some times, in ascending order of keys. -/
structure MapOf (writes : List Write) (pairs : List (Bytes × Bytes)) : Prop where
  ascending : Ascending pairs
  written : ∀ key value, (key, value) ∈ pairs ↔ latest? key writes = some value

private theorem mapOf_contents (writes : List Write) : MapOf writes (contents writes) :=
  ⟨contents_ascending writes, fun _ _ => mem_contents_iff writes _⟩

theorem MapOf.eq_contents {pairs : List (Bytes × Bytes)} (map : MapOf writes pairs) :
    pairs = contents writes := by
  refine map.ascending.ext (contents_ascending writes) ?_
  rintro ⟨key, value⟩
  rw [map.written, mem_contents_iff]

/-- What was written before a snapshot is what a reader at it sees ever after. -/
theorem live_snapshot {before later : List Call}
    (room : (writesOf before ++ writesOf later).length < 2 ^ 64) :
    (empty.afterAll (before ++ .acquire :: later)).table.live (empty.afterAll before).sequence =
        contents (writesOf before) ∧
      (empty.afterAll before).sequence ≤
        (empty.afterAll (before ++ .acquire :: later)).sequence := by
  have taken : (empty.afterAll before).Holds (writesOf before) :=
    holds_empty.afterAll (length_lt_of_append room)
  have joins : empty.afterAll (before ++ .acquire :: later) =
      (empty.afterAll before).afterAll (.acquire :: later) := List.foldl_append
  have ⟨same, still⟩ : ((empty.afterAll before).afterAll (.acquire :: later)).table.live
      (empty.afterAll before).sequence =
        (empty.afterAll before).table.live (empty.afterAll before).sequence ∧ _ :=
    live_afterAll taken room (UInt64.le_refl _)
  rw [joins]
  exact ⟨same.trans taken.shown, still⟩

/-- After whatever calls, a lookup finds what was written last. An iterator opened at a snapshot of
theirs, then or after more calls, stands one after the other on the pairs of the map that was
written before the snapshot, in either direction and through whatever is called meanwhile. Sequence
numbers are 64-bit words, so fewer writes are assumed than there are numbers. -/
theorem afterAll_versioned (calls : List Call) (breaks : List (List Call))
    (few : (writesOf (calls ++ breaks.flatten)).length < 2 ^ 64) :
    (∀ key, (empty.afterAll calls).get? key = latest? key (writesOf calls)) ∧
      ∀ before later, calls = before ++ .acquire :: later →
        ∃ pairs, MapOf (writesOf before) pairs ∧
          ∀ (direction : Direction) (fillCache : Bool), ∃ iterator,
            Engine.open fillCache (Engine.acquire (empty.afterAll before)).1 (empty.afterAll calls) =
              (.ok iterator, empty.afterAll calls) ∧
            travel direction.step direction.outset breaks iterator (empty.afterAll calls) =
              (List.range breaks.length).map fun place => (direction.arrange pairs)[place]? := by
  rw [writesOf_append] at few
  have short : (writesOf calls).length < 2 ^ 64 := length_lt_of_append few
  have holds : (empty.afterAll calls).Holds (writesOf calls) := holds_empty.afterAll short
  refine ⟨holds.get?_eq, ?_⟩
  rintro before later rfl
  have parted : writesOf (before ++ .acquire :: later) = writesOf before ++ writesOf later :=
    writesOf_append before (.acquire :: later)
  rw [parted] at short
  have ⟨shown, earlier⟩ := live_snapshot short
  refine ⟨contents (writesOf before), mapOf_contents _, fun direction _ => ?_⟩
  refine ⟨.start (empty.afterAll before).sequence, rfl, ?_⟩
  exact travel_start (contents_ascending _) holds few earlier shown

/-- A snapshot between writes, read while more writes come, and after it was given back. -/
theorem afterAll_versioned_amid_writes :
    let calls : List Call := [.write ⟨[1], some [10]⟩, .write ⟨[2], some [20]⟩, .write ⟨[1], none⟩,
      .acquire, .write ⟨[1], some [11]⟩, .write ⟨[2], none⟩, .release 3]
    let breaks : List (List Call) := [[], [.write ⟨[3], some [30]⟩]]
    (writesOf (calls ++ breaks.flatten)).length < 2 ^ 64 ∧
      (empty.afterAll calls).get? [1] = some [11] ∧
      travel .prev .last breaks (.start 3) (empty.afterAll calls) = [some ([2], [20]), none] := by
  intro calls breaks
  have few : (writesOf (calls ++ breaks.flatten)).length < 2 ^ 64 := by decide
  obtain ⟨lookups, snapshots⟩ := afterAll_versioned calls breaks few
  obtain ⟨pairs, map, travels⟩ := snapshots (calls.take 3) (calls.drop 4) rfl
  obtain ⟨iterator, opened, passed⟩ := travels .backward false
  cases opened
  refine ⟨few, (lookups [1]).trans (by decide), passed.trans ?_⟩
  rw [map.eq_contents]
  rfl

end KeyScan.MemoryEngine
