import KeyScan.Proofs.Engine.Stock
import KeyScan.Proofs.Table.Scan

namespace KeyScan

namespace MemoryEngine

theorem move_eq (move : Move) (walker : TableWalker) (engine : MemoryEngine) :
    let landing := move.landing (engine.table.live walker.sequence) walker.current
    Engine.move move walker engine =
      (.ok landing.isSome, (⟨walker.sequence, landing⟩ : TableWalker), engine) := by
  intro landing
  have there : walker.destination engine.table move = landing := walker.destination_eq _ _
  simp only [Engine.move, TableWalker.move, there]

theorem follow_eq {α : Type} (course : Course α) (walker : TableWalker) (engine : MemoryEngine) :
    let walk := course.walk (engine.table.live walker.sequence) walker.current
    course.follow walker engine = (.ok walk.1, ⟨walker.sequence, walk.2⟩, engine) := by
  induction course generalizing walker with
  | arrive result => rfl
  | go move onward ih =>
    rw [Course.follow, move_eq]
    exact ih _ ⟨walker.sequence, move.landing (engine.table.live walker.sequence) walker.current⟩

/-- What the engine in memory shows at a snapshot, it shows as long as no write changes that. None of
its calls fails. -/
def stock (engine : MemoryEngine) (sequence : Sequence) :
    Stock MemoryEngine sequence (engine.table.live sequence) where
  ascending := VersionTable.live_ascending _ _
  Serves other := other.table.live sequence = engine.table.live sequence
  Holds walker other :=
    walker.sequence = sequence ∧ other.table.live sequence = engine.table.live sequence
  Lost _ _ := False
  serves holds := holds.2
  reach serves := serves ▸ VersionTable.live_length_le _ _
  opened := by
    rintro fillCache other walker after serves ⟨⟩
    exact ⟨⟨rfl, serves⟩, rfl⟩
  refused := by
    rintro fillCache other report after serves ⟨⟩
  moved := by
    rintro move walker other landed next after ⟨same, serves⟩ moved
    rw [move_eq, same, serves] at moved
    cases moved
    exact ⟨⟨rfl, serves⟩, id, .inl rfl⟩
  closed holds := holds.2

theorem stock_faithful (engine : MemoryEngine) (sequence : Sequence) :
    (engine.stock sequence).Faithful := fun _ lost => lost

theorem steady (engine : MemoryEngine) : Engine.Steady fun other => other = engine where
  «open» := by
    rintro _ fillCache sequence rfl
    exact ⟨_, _, rfl, rfl⟩
  move := by
    rintro _ move walker rfl
    exact ⟨_, _, _, move_eq move walker _, rfl⟩

end MemoryEngine

namespace ScriptedEngine

variable {script : Script}

/-- The places that a script leads to are those of the pairs that the calls lead to. -/
theorem entry_destination (ascending : Ascending script.entries.toList)
    {move : Move} (rule : ∀ target, move = .seek target → script.seekRule = .atOrAfter)
    {index : Option Nat} (inside : ∀ place ∈ index, place < script.entries.size) :
    ((script.destination index move).bind fun place => script.entries[place]?) =
      move.landing script.entries.toList (index.bind fun place => script.entries[place]?) := by
  simp only [← Array.getElem?_toList]
  cases move with
  | first =>
    simp only [Script.destination, Move.landing, Option.bind_some, List.head?_eq_getElem?]
  | last =>
    simp only [Script.destination, Move.landing, List.getLast?_eq_getElem?, Array.length_toList]
    split
    · rename_i empty
      simp [empty]
    · rfl
  | seek target =>
    simp only [Script.destination, Script.find, rule target rfl, Move.landing, Array.find?_toList,
      Array.find?_eq_bind_findIdx?_getElem?, Array.getElem?_toList]
  | next =>
    cases index with
    | none => rfl
    | some place =>
      have step : Direction.forward.step.landing _ (Direction.forward.arrange _)[place]? = _ :=
        Direction.landing_step_getElem? ascending place
      exact step.symm
  | prev =>
    cases index with
    | none => rfl
    | some place =>
      have below := inside place rfl
      have step : Direction.backward.step.landing _ (Direction.backward.arrange _)[_]? = _ :=
        Direction.landing_step_getElem? ascending (script.entries.size - 1 - place)
      simp only [Direction.arrange, Direction.step] at step
      rw [List.getElem?_reverse (by rw [Array.length_toList]; omega), Array.length_toList] at step
      have back : script.entries.size - 1 - (script.entries.size - 1 - place) = place := by omega
      rw [back] at step
      refine Eq.trans ?_ step.symm
      cases place with
      | zero => simp [Script.destination]; omega
      | succ place =>
        rw [List.getElem?_reverse (by rw [Array.length_toList]; omega), Array.length_toList]
        have before : script.entries.size - 1 - (script.entries.size - 1 - (place + 1) + 1) = place := by
          omega
        rw [before]
        rfl

/-- An iterator within the entries of its script, which has failed only if there is a bad place. -/
def Placed (script : Script) (iterator : ScriptedIterator) : Prop :=
  (∀ place ∈ iterator.index, place < script.entries.size) ∧
    (script.good = none → iterator.failed = false)

/-- An iterator that is brought to a place stands there, or it has met a bad place. -/
theorem land_placed {iterator : ScriptedIterator} (placed : Placed script iterator) (place : Option Nat) :
    Placed script (script.land iterator place) ∧
      (iterator.failed = true → (script.land iterator place).failed = true) ∧
      ((script.land iterator place).index.bind (fun index => script.entries[index]?) =
          place.bind (fun index => script.entries[index]?) ∨
        (script.land iterator place).index = none ∧ (script.land iterator place).failed = true) := by
  obtain ⟨-, unfailed⟩ := placed
  unfold Script.land Placed
  cases place with
  | none => simpa using unfailed
  | some index =>
    simp only
    split
    · rename_i bad
      cases good : script.good with
      | none => simp [good] at bad
      | some good => simp
    · split
      · rename_i inside
        exact ⟨⟨by simpa using inside, unfailed⟩, id, .inl rfl⟩
      · rename_i outside
        refine ⟨⟨by simp, unfailed⟩, id, .inl ?_⟩
        simpa using outside

/-- Seeks keep to the rule, or each of them leads to a bad place. -/
def FindsOrFails (script : Script) : Prop :=
  script.seekRule = .atOrAfter ∨
    ∃ place, script.seekRule = .always place ∧ script.good.any (fun good => decide (good ≤ place)) = true

/-- A move brings an iterator where it leads among the entries, or to a bad place. -/
theorem land_destination (ascending : Ascending script.entries.toList) (seeks : FindsOrFails script)
    {iterator : ScriptedIterator} (placed : Placed script iterator) (move : Move) :
    let landed := script.land iterator (script.destination iterator.index move)
    (landed.index.bind (fun index => script.entries[index]?) = move.landing script.entries.toList
        (iterator.index.bind fun index => script.entries[index]?)) ∨
      landed.index = none ∧ landed.failed = true := by
  intro landed
  have follows (rule : ∀ target, move = .seek target → script.seekRule = .atOrAfter) :
      landed.index.bind (fun index => script.entries[index]?) = move.landing script.entries.toList
          (iterator.index.bind fun index => script.entries[index]?) ∨
        landed.index = none ∧ landed.failed = true :=
    (land_placed placed _).2.2.imp_left fun there =>
      there.trans (entry_destination ascending rule placed.1)
  rcases seeks with rule | ⟨place, rule, bad⟩
  · exact follows fun _ _ => rule
  · cases move with
    | seek target =>
      refine .inr ?_
      simp only [landed, Script.destination, Script.find, rule, Script.land, bad, ↓reduceIte, and_self]
    | first | last | next | prev => exact follows (by rintro _ ⟨⟩)

/-- A scripted engine has its entries in stock if they are in order and no seek leads elsewhere. -/
def keptStock (script : Script) (sequence : Sequence) (ascending : Ascending script.entries.toList)
    (seeks : FindsOrFails script) : Stock ScriptedEngine sequence script.entries.toList where
  ascending := ascending
  Serves engine := engine.script = script
  Holds iterator engine := engine.script = script ∧ Placed script iterator
  Lost iterator _ := iterator.failed = true
  serves holds := holds.1
  reach := by
    rintro engine rfl
    exact Nat.le_of_eq Array.length_toList
  opened := by
    intro fillCache engine iterator after serves opened
    simp only [Engine.open] at opened
    split at opened <;> cases opened
    exact ⟨⟨serves, by simp [Placed]⟩, rfl⟩
  refused := by
    intro fillCache engine report after serves refused
    simp only [Engine.open] at refused
    split at refused <;> cases refused
    exact serves
  moved := by
    rintro move iterator engine landed next after ⟨rfl, placed⟩ moved
    simp only [Engine.move] at moved
    split at moved
    · cases moved
      exact ⟨⟨rfl, placed⟩, id, .inl rfl⟩
    · cases moved
      obtain ⟨still, kept, -⟩ :=
        land_placed placed (engine.script.destination iterator.index move)
      refine ⟨⟨rfl, still⟩, kept, (land_destination ascending seeks placed move).imp_right ?_⟩
      rintro ⟨nowhere, failed⟩
      exact ⟨by simp only [Engine.entry?, nowhere, Option.bind_none], failed⟩
  closed holds := holds.1

/-- A scripted engine has its entries in stock if they are in order and seeks keep to the rule. -/
def stock (script : Script) (sequence : Sequence) (ascending : Ascending script.entries.toList)
    (rule : script.seekRule = .atOrAfter) : Stock ScriptedEngine sequence script.entries.toList :=
  keptStock script sequence ascending (.inl rule)

theorem stock_faithful {sequence : Sequence} {ascending : Ascending script.entries.toList}
    {rule : script.seekRule = .atOrAfter} (good : script.good = none) :
    (stock script sequence ascending rule).Faithful := by
  rintro iterator engine ⟨-, -, unfailed⟩ failed
  exact Bool.false_ne_true ((unfailed good).symm.trans failed)

theorem keptStock_recorded {sequence : Sequence} {ascending : Ascending script.entries.toList}
    {seeks : FindsOrFails script} {report : Report} (failure : script.failure = some report)
    (serious : report.code ≠ .notFound) : (keptStock script sequence ascending seeks).Recorded := by
  rintro iterator engine ⟨rfl, -⟩ failed
  have failed : iterator.failed = true := failed
  exact ⟨report, by simp only [Engine.health, failure, failed, ↓reduceIte], serious⟩

theorem stock_recorded {sequence : Sequence} {ascending : Ascending script.entries.toList}
    {rule : script.seekRule = .atOrAfter} {report : Report} (failure : script.failure = some report)
    (serious : report.code ≠ .notFound) : (stock script sequence ascending rule).Recorded :=
  keptStock_recorded failure serious

theorem steady (script : Script) (granted : script.refusal = none) :
    Engine.Steady fun engine : ScriptedEngine =>
      engine.script = script ∧ ∀ failing ∈ script.failingCalls, failing.1 < engine.moves where
  «open» := by
    rintro engine fillCache sequence ⟨rfl, past⟩
    refine ⟨⟨none, false⟩, engine, ?_, rfl, past⟩
    simp only [Engine.open, granted]
  move := by
    rintro engine move iterator ⟨rfl, past⟩
    have unlisted : engine.script.failingCalls.lookup engine.moves = none := by
      refine List.lookup_eq_none_iff.mpr ?_
      intro failing member
      have less := past failing member
      exact bne_iff_ne.mpr (Nat.ne_of_gt less)
    let landed := engine.script.land iterator (engine.script.destination iterator.index move)
    refine ⟨landed.index.isSome, landed, { engine with moves := engine.moves + 1 }, ?_, rfl,
      fun failing member => Nat.lt_succ_of_lt (past failing member)⟩
    simp only [Engine.move, unlisted, landed]

end ScriptedEngine
end KeyScan
