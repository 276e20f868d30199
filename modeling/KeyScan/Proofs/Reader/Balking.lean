import KeyScan.Proofs.Reader.Remaining

/-! What a seek costs that fails before it has moved: the iterator cannot be opened, it cannot be brought
to where travel starts, or its own move to the target fails. Such a seek costs no entry, except where it
has opened the iterator: the next read takes the one that it stands on for delivered. -/
namespace KeyScan

private theorem Direction.tail_upcoming (direction : Direction) (pairs : List (Bytes × Bytes))
    (current : Option (Bytes × Bytes)) :
    (direction.upcoming pairs true current).tail = direction.upcoming pairs false current := by
  cases current <;> rfl

namespace Reader

variable {σ ι : Type} [Engine σ ι]

section Calls

variable {reader next : Reader ι} {engine after : σ}

private theorem materialize_fresh {fresh : Bool} {iterator : ι}
    (opened : reader.materialize engine = (.ok (fresh, iterator), next, after)) :
    fresh = !reader.isMaterialized := by
  unfold materialize at opened
  unfold isMaterialized
  cases handle : reader.handle with
  | opened _ =>
    simp only [handle, Prod.mk.injEq, Except.ok.injEq] at opened
    exact opened.1.1.symm
  | released => simp [handle] at opened
  | pending =>
    simp only [handle] at opened
    split at opened <;> cases opened
    rfl

/-- Whether a seek fails before it has moved. -/
def balks (target : Bytes) (reader : Reader ι) (engine : σ) : Bool :=
  match { reader with target := none }.materialize engine with
  | (.error _, _, _) => true
  | (.ok (_, iterator), _, engine) => !(Engine.move (.seek target) iterator engine).1.toBool

/-- A balked seek fails where it opens the iterator, or at its own move. -/
theorem seek_of_balks {target : Bytes} (balked : reader.balks target engine = true) :
    ∃ failure next after, reader.seek target engine = (.error failure, next, after) ∧
      ({ reader with target := none }.materialize engine = (.error failure, next, after) ∨
        ∃ fresh iterator opening between report onward,
          { reader with target := none }.materialize engine =
              (.ok (fresh, iterator), opening, between) ∧
            Engine.move (.seek target) iterator between = (.error report, onward, after) ∧
            next = { opening with handle := .opened onward }) := by
  unfold balks at balked
  unfold seek
  split at balked
  · rename_i failure next after failed
    simp only [failed]
    exact ⟨failure, next, after, rfl, .inl rfl⟩
  · rename_i fresh iterator opening between opened
    simp only [opened]
    split
    · rename_i report onward after failed
      exact ⟨_, _, after, rfl, .inr ⟨_, _, _, _, report, onward, rfl, failed, rfl⟩⟩
    · rename_i moved
      simp [moved, Except.toBool] at balked

/-- Where the iterator of a reader stands, if it is open. -/
def place (reader : Reader ι) (engine : σ) : Option (Bytes × Bytes) :=
  match reader.handle with
  | .opened iterator => Engine.entry? iterator engine
  | .pending | .released => none

/-- What a reader has before it depends on its engine by where the iterator stands there. -/
theorem outlook_eq (pairs : List (Bytes × Bytes)) {other : σ}
    (same : reader.place other = reader.place engine) :
    reader.outlook pairs other = reader.outlook pairs engine := by
  unfold place at same
  unfold outlook
  cases handle : reader.handle with
  | pending => rfl
  | released => rfl
  | opened iterator =>
    simp only [handle] at same ⊢
    rw [same]

end Calls

variable {sequence : Sequence} {pairs : List (Bytes × Bytes)} {stock : Stock σ sequence pairs}
  {reader next : Reader ι} {engine after : σ} {Works : σ → Prop}

/-- A balked seek leaves the outlook as it is, unless it has opened the iterator. -/
theorem Draws.seek_balked {target : Bytes} (draws : reader.Draws stock engine)
    (faithful : stock.Faithful) (balked : reader.balks target engine = true) :
    let outlook := reader.outlook pairs engine
    ∃ failure next after, reader.seek target engine = (.error failure, next, after) ∧
      next.Draws stock after ∧
      (next.isMaterialized = reader.isMaterialized → next.outlook pairs after = outlook) ∧
      (next.isMaterialized ≠ reader.isMaterialized → reader.sought = false →
        next.outlook pairs after = { outlook with ahead := outlook.ahead.tail }) := by
  intro outlook
  obtain ⟨failure, next, after, sought, unopened | ⟨fresh, iterator, opening, between, report, onward,
    opened, failed, rfl⟩⟩ := seek_of_balks balked
  · obtain ⟨drawn, -, rfl, pending⟩ := (draws.remark reader.landed none).materialize unopened
    have still : reader.handle = .pending := pending
    refine ⟨failure, _, after, sought, drawn, fun _ => ?_, fun other => absurd rfl other⟩
    simp only [outlook, Reader.outlook, still]
  · have first := materialize_fresh opened
    obtain ⟨-, -, rfl, holds, lost | ahead⟩ := (draws.remark reader.landed none).materialize opened
    · exact absurd lost (faithful holds)
    obtain ⟨held, -, stays | ⟨-, lost⟩⟩ := stock.moved holds failed
    · change outlook.ahead = _ at ahead
      change fresh = !reader.isMaterialized at first
      have remains : reader.window.direction.upcoming pairs reader.sought
          (Engine.entry? onward after) = reader.window.direction.upcoming pairs reader.sought
          (Engine.entry? iterator between) := congrArg _ stays
      refine ⟨failure, _, after, sought, ⟨draws.pin, .inr ⟨onward, rfl, held⟩⟩, ?_, ?_⟩
      · intro already
        have stale : fresh = false := by rw [first, ← already]; rfl
        rw [stale, Bool.false_or] at ahead
        exact congrArg (Outlook.mk reader.window pairs · reader.count) (remains.trans ahead.symm)
      · intro newly waiting
        have fresh : fresh = true := by
          rw [first, Bool.not_eq_true', ← Bool.not_eq_true]
          exact fun already => newly already.symm
        rw [ahead, fresh, Bool.true_or, Direction.tail_upcoming, ← waiting]
        exact congrArg (Outlook.mk reader.window pairs · reader.count) remains
    · exact absurd lost (faithful held)

/-- What a seek costs that fails before it has moved. What the reader has before it is what it would
deliver, were no call to fail; so it is after the seek, unless the seek has opened the iterator. In that
case the first pair ahead is passed over. -/
theorem balked_seek_delivers {target : Bytes} (faithful : stock.Faithful)
    (steady : Engine.Steady Works) (draws : reader.Draws stock engine)
    (balked : reader.balks target engine = true) :
    let outlook := reader.outlook pairs engine
    (∀ other, Works other → reader.Draws stock other → reader.place other = reader.place engine →
      reader.Delivers other outlook.remaining) ∧
    ∃ failure next after, reader.seek target engine = (.error failure, next, after) ∧
      (Works after →
        (next.isMaterialized = reader.isMaterialized → next.Delivers after outlook.remaining) ∧
        (next.isMaterialized ≠ reader.isMaterialized → reader.sought = false →
          next.Delivers after { outlook with ahead := outlook.ahead.tail }.remaining)) := by
  intro outlook
  constructor
  · intro other works drawn same
    have delivers := drawn.delivers faithful steady works
    rwa [outlook_eq pairs same] at delivers
  · obtain ⟨failure, next, after, sought, drawn, kept, passed⟩ := draws.seek_balked faithful balked
    refine ⟨failure, next, after, sought, fun works => ?_⟩
    have delivers := drawn.delivers faithful steady works
    refine ⟨fun already => ?_, fun newly waiting => ?_⟩
    · rwa [kept already] at delivers
    · rwa [passed newly waiting] at delivers

/-- A reader that has delivered its first entry before a seek fails goes on with the second. -/
theorem balked_seek_delivers_after_read :
    let script : Script :=
      { entries := #[([97], [1]), ([98], [2]), ([99], [3])]
        failingCalls := [(1, ⟨.ioError, some "unreadable"⟩)] }
    let window : Window := ⟨.forward, none, none, none, none, -1, true, true⟩
    let created : Reader ScriptedIterator × ScriptedEngine :=
      Reader.new window false (ScriptedEngine.start script)
    let state := (created.1.read created.2).2
    state.1.balks [99] state.2 = true ∧
      ∃ failure next after, state.1.seek [99] state.2 = (.error failure, next, after) ∧
        next.Delivers after [⟨some [98], some [2]⟩, ⟨some [99], some [3]⟩] := by
  intro script window created state
  have ascending : Ascending script.entries.toList := by
    unfold Ascending
    decide
  have balked : state.1.balks [99] state.2 = true := by decide
  let stock := ScriptedEngine.stock script 0 ascending rfl
  have draws : state.1.Draws stock state.2 := by
    have fresh : created.1.Draws stock created.2 := new_draws rfl
    exact (fresh.read rfl).1
  obtain ⟨-, failure, next, after, sought, left⟩ :=
    balked_seek_delivers (ScriptedEngine.stock_faithful rfl) (ScriptedEngine.steady script rfl) draws balked
  refine ⟨balked, failure, next, after, sought, ?_⟩
  obtain ⟨rfl, rfl⟩ : (state.1.seek [99] state.2).2 = (next, after) := congrArg Prod.snd sought
  exact (left ⟨rfl, by decide⟩).1 rfl

/-- A seek that opens the iterator and then fails to move it: the first entry is not delivered. -/
theorem balked_seek_passes_first :
    let report : Report := ⟨.ioError, some "unreadable"⟩
    let script : Script :=
      { entries := #[([97], [118]), ([98], [119])], failingCalls := [(1, report)] }
    let window : Window := ⟨.forward, none, none, none, none, -1, true, true⟩
    let fresh : Reader ScriptedIterator × ScriptedEngine :=
      Reader.new window false (ScriptedEngine.start script)
    let working : ScriptedEngine := { fresh.2 with moves := 2 }
    let sought := fresh.1.seek [98] fresh.2
    let entries : List Entry := [⟨some [97], some [118]⟩, ⟨some [98], some [119]⟩]
    sought.1 = .error (.engine report) ∧ fresh.1.Delivers working entries ∧
      sought.2.1.place sought.2.2 = some ([97], [118]) ∧ ¬ sought.2.1.Delivers sought.2.2 entries := by
  intro report script window fresh working sought entries
  have short : sought.2.1.Delivers sought.2.2 [⟨some [98], some [119]⟩] :=
    .more rfl (.nothing rfl)
  refine ⟨rfl, .more rfl (.more rfl (.nothing rfl)), rfl, fun full => ?_⟩
  exact absurd (full.unique short) (by decide)

end Reader
end KeyScan
