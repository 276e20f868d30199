import KeyScan.Proofs.Engine.Contents
import KeyScan.Proofs.Engine.Suppliers
import KeyScan.Proofs.Reader.Stocked

namespace KeyScan

namespace Reader

/-- A reader that reads at a sequence number and has an outlook before it. -/
structure Sees (reader : Reader TableWalker) (sequence : Sequence) (outlook : Outlook) : Prop where
  window : reader.window = outlook.window
  count : reader.count = outlook.count
  pin : reader.pin = some sequence
  ascending : Ascending outlook.pairs
  handle :
    (reader.handle = .pending ∧
      outlook.ahead = reader.window.direction.ahead outlook.pairs reader.window.reached) ∨
    ∃ walker, reader.handle = .opened walker ∧ walker.sequence = sequence ∧
      outlook.ahead =
        reader.window.direction.upcoming outlook.pairs reader.sought walker.current

variable {reader : Reader TableWalker} {sequence : Sequence} {outlook : Outlook}
  {engine : MemoryEngine}

theorem Sees.length_le (sees : reader.Sees sequence outlook) :
    outlook.ahead.length ≤ outlook.pairs.length + 1 := by
  rcases sees.handle with ⟨_, ahead⟩ | ⟨walker, _, _, ahead⟩
  · rw [ahead]
    exact Nat.le_succ_of_le (Direction.length_ahead_le _)
  · rw [ahead]
    exact Direction.length_upcoming_le _ _

theorem Sees.remark (sees : reader.Sees sequence outlook) (landed : Bool) (target : Option Bytes) :
    { reader with landed, target }.Sees sequence outlook :=
  ⟨sees.window, sees.count, sees.pin, sees.ascending, sees.handle⟩

theorem new_sees (window : Window) (fillCache : Bool) (engine : MemoryEngine) :
    (Reader.new window fillCache engine).1.Sees engine.sequence (.start window engine.live) where
  window := rfl
  count := rfl
  pin := rfl
  ascending := VersionTable.live_ascending _ _
  handle := .inl ⟨rfl, rfl⟩

/-- What a reader sees at a snapshot is a stock that it draws on. -/
theorem Sees.draws (sees : reader.Sees sequence outlook) (engine : MemoryEngine) :
    reader.Draws (engine.stock sequence) engine := by
  refine ⟨sees.pin, ?_⟩
  rcases sees.handle with ⟨pending, _⟩ | ⟨walker, opened, same, _⟩
  · exact .inl ⟨pending, rfl⟩
  · exact .inr ⟨walker, opened, same, rfl⟩

theorem Sees.outlook_eq (sees : reader.Sees sequence outlook) (engine : MemoryEngine) :
    reader.outlook outlook.pairs engine = outlook := by
  obtain ⟨window, pairs, ahead, count⟩ := outlook
  obtain ⟨rfl, rfl, -, -, ⟨pending, seen⟩ | ⟨walker, opened, -, seen⟩⟩ := sees
  · simp only [Reader.outlook, pending]
    exact congrArg (Outlook.mk reader.window pairs · reader.count) seen.symm
  · simp only [Reader.outlook, opened]
    exact congrArg (Outlook.mk reader.window pairs · reader.count) seen.symm

private theorem Draws.sees (draws : reader.Draws (engine.stock sequence) engine) :
    reader.Sees sequence (reader.outlook (engine.table.live sequence) engine) := by
  refine ⟨rfl, rfl, draws.pin, VersionTable.live_ascending _ _, ?_⟩
  rcases draws.handle with ⟨pending, -⟩ | ⟨walker, opened, same, -⟩
  · exact .inl ⟨pending, by simp only [Reader.outlook, pending]⟩
  · exact .inr ⟨walker, opened, same, by simp only [Reader.outlook, opened, Engine.entry?]⟩

theorem materialize_sees (sees : reader.Sees sequence outlook)
    (live : engine.table.live sequence = outlook.pairs) :
    ∃ fresh walker,
      reader.materialize engine =
        (.ok (fresh, walker), { reader with handle := .opened walker }, engine) ∧
      walker.sequence = sequence ∧
      outlook.ahead = reader.window.direction.upcoming outlook.pairs (fresh || reader.sought)
        walker.current := by
  obtain ⟨⟨fresh, walker⟩, next, engine, opened, rfl⟩ :=
    (sees.draws engine).materialize_works engine.steady rfl
  obtain ⟨-, -, rfl, holds, place⟩ := (sees.draws engine).materialize opened
  have ahead := place.resolve_left id
  rw [live, sees.outlook_eq] at ahead
  exact ⟨fresh, walker, opened, holds.1, ahead⟩

/-- Reading is reading from the outlook. -/
theorem read_sees (sees : reader.Sees sequence outlook)
    (live : engine.table.live sequence = outlook.pairs) :
    ∃ next, reader.read engine = (.ok outlook.read.1, next, engine) ∧
      next.Sees sequence outlook.read.2 := by
  obtain ⟨entry, next, engine, read, rfl⟩ := (sees.draws engine).read_works engine.steady rfl
  obtain ⟨draws, -, taken⟩ := (sees.draws engine).read read
  have taken := taken.resolve_left (draws.not_strays (engine.stock_faithful sequence))
  have sight := draws.sees
  rw [live] at taken sight
  rw [sees.outlook_eq] at taken
  rw [taken]
  exact ⟨next, read, sight⟩

/-- Seeking is turning the outlook. -/
theorem seek_sees (sees : reader.Sees sequence outlook)
    (live : engine.table.live sequence = outlook.pairs) (target : Bytes) :
    ∃ next, reader.seek target engine = (.ok (outlook.seek target).1, next, engine) ∧
      next.Sees sequence (outlook.seek target).2 := by
  obtain ⟨fresh, walker, opened, same, _⟩ :=
    materialize_sees (sees.remark reader.landed none) live
  obtain ⟨window, pairs, ahead, count⟩ := outlook
  obtain ⟨rfl, rfl, pin, ascending, -⟩ := sees
  let landing := (Move.seek target).landing pairs walker.current
  have moved : Engine.move (.seek target) walker engine =
      (.ok landing.isSome, (⟨sequence, landing⟩ : TableWalker), engine) := by
    have moves := MemoryEngine.move_eq (.seek target) walker engine
    rwa [same, live] at moves
  have settled := MemoryEngine.follow_eq
    (reader.window.settle target (landing.map Prod.fst)) ⟨sequence, landing⟩ engine
  simp only [live, Window.settle_walk ascending, landing] at settled
  unfold seek
  simp only [opened, moved, Engine.entry?, landing, settled]
  refine ⟨_, rfl, rfl, rfl, pin, ascending, .inr ⟨_, rfl, rfl, ?_⟩⟩
  simp only [Outlook.seek]
  split
  · rfl
  · exact (Direction.upcoming_head ascending
      (Direction.absorbs_since reader.window.direction target)).symm

private theorem brokenOff?_memory (reader : Reader TableWalker) (engine : MemoryEngine) :
    reader.brokenOff? engine = none := by
  unfold brokenOff? status
  cases reader.handle <;> rfl

/-- A page is filled from the outlook, whatever fuel is left, as long as it suffices. -/
theorem gather_sees {fuel : Nat} (highWaterMark size : Nat) (entries : List Entry)
    (enough : outlook.ahead.length < fuel) (sees : reader.Sees sequence outlook)
    (live : engine.table.live sequence = outlook.pairs) :
    let filled := Outlook.fill outlook.window highWaterMark size entries outlook.ahead outlook.count
    ∃ next, reader.gather highWaterMark fuel size entries engine = (.ok filled.1, next, engine) ∧
      next.Sees sequence { outlook with ahead := filled.2.1, count := filled.2.2 } := by
  induction fuel generalizing reader outlook size entries with
  | zero => exact absurd enough (Nat.not_lt_zero _)
  | succ fuel ih =>
    obtain ⟨next, read, sight⟩ := read_sees sees live
    unfold gather
    simp only [read]
    cases ahead : outlook.ahead with
    | nil =>
      simp only [Outlook.read, ahead] at sight ⊢
      simp only [brokenOff?_memory, Outlook.fill]
      refine ⟨next, rfl, ?_⟩
      cases outlook
      cases ahead
      exact sight
    | cons pair rest =>
      simp only [Outlook.read, ahead] at sight ⊢
      simp only [Outlook.fill]
      cases admitted : (outlook.window.test pair.1 outlook.count).1 with
      | false =>
        simp only [Bool.false_eq_true, ↓reduceIte, brokenOff?_memory]
        exact ⟨next, rfl, sight⟩
      | true =>
        simp only [↓reduceIte]
        split
        · exact ⟨_, rfl, sight.remark true next.target⟩
        · have left : rest.length < fuel := by
            rw [ahead, List.length_cons] at enough
            exact Nat.lt_of_succ_lt_succ enough
          exact ih _ _ left (sight.remark true next.target) live

/-- Reading a page is reading it from the outlook. -/
theorem page_sees (sees : reader.Sees sequence outlook)
    (live : engine.table.live sequence = outlook.pairs) (highWaterMark : Nat) :
    ∃ next, reader.page highWaterMark engine = (.ok (outlook.page highWaterMark).1, next, engine) ∧
      next.Sees sequence (outlook.page highWaterMark).2 := by
  refine gather_sees highWaterMark 0 [] ?_ sees live
  have bound := VersionTable.live_length_le engine.table sequence
  have length := sees.length_le
  rw [live] at bound
  simp only [Engine.reach]
  omega

end Reader
end KeyScan
