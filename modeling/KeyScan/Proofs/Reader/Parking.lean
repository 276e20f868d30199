import KeyScan.Proofs.Reader.Balking
import KeyScan.Proofs.Reader.Cutting

namespace KeyScan

private theorem Window.parks_iff {window : Window} {pairs : List (Bytes × Bytes)} {target : Bytes} :
    window.parks pairs target = true ↔ window.outOfRange target = true ∨
      (window.direction = .forward ∧ pairs ≠ [] ∧ ∀ pair ∈ pairs, pair.1 < target) := by
  simp only [Window.parks, Bool.or_eq_true, Bool.and_eq_true, decide_eq_true_eq, Bool.not_eq_true',
    List.isEmpty_eq_false_iff, List.all_eq_true, and_assoc]

private theorem Direction.since_eq_nil {pairs : List (Bytes × Bytes)} {target : Bytes}
    (smaller : ∀ pair ∈ pairs, pair.1 < target) : Direction.forward.since pairs target = [] := by
  refine List.filter_eq_nil_iff.mpr fun pair member => ?_
  have short : Direction.forward.before pair.1 target := smaller pair member
  simp [short]

private theorem Outlook.seek_ahead_of_parks {outlook : Outlook} {target : Bytes}
    (parks : outlook.window.parks outlook.pairs target = true) :
    (outlook.seek target).2.ahead = [] := by
  simp only [Outlook.seek]
  rcases Window.parks_iff.mp parks with outside | ⟨forward, -, smaller⟩
  · rw [if_pos outside]
  · rw [forward, Direction.since_eq_nil smaller, ite_self]

namespace Reader

theorem opened_of_seek {σ ι : Type} [Engine σ ι] {reader next : Reader ι} {engine after : σ}
    {target : Bytes} {parked : Bool} (sought : reader.seek target engine = (.ok parked, next, after)) :
    (∃ iterator, next.handle = .opened iterator) ∧ next.sought = true := by
  unfold seek at sought
  split at sought
  · cases sought
  · split at sought
    · cases sought
    · dsimp only at sought
      split at sought
      · cases sought
      · cases sought
        exact ⟨⟨_, rfl⟩, rfl⟩

variable {reader : Reader TableWalker} {sequence : Sequence} {outlook : Outlook} {engine : MemoryEngine}

/-- The iterator of a reader whose next read will not step stands on the first pair ahead, if there is
one. -/
theorem Sees.place_of_sought {walker : TableWalker} (sees : reader.Sees sequence outlook)
    (opened : reader.handle = .opened walker) (sought : reader.sought = true) :
    reader.place engine = outlook.ahead.head? := by
  rcases sees.handle with ⟨pending, -⟩ | ⟨walker, handle, -, ahead⟩
  · cases opened.symm.trans pending
  · rw [ahead, sought, place, handle]
    cases current : walker.current with
    | none => exact current
    | some here => exact current

/-- A seek tells whether it has parked, and its iterator stands on the first pair it has left ahead. -/
theorem seek_places (sees : reader.Sees sequence outlook)
    (live : engine.table.live sequence = outlook.pairs) (target : Bytes) :
    ∃ next, reader.seek target engine =
        (.ok (outlook.window.parks outlook.pairs target), next, engine) ∧
      next.Sees sequence (outlook.seek target).2 ∧ next.isMaterialized = true ∧
      next.place engine = (outlook.seek target).2.ahead.head? := by
  obtain ⟨next, turned, sight⟩ := seek_sees sees live target
  obtain ⟨⟨walker, opened⟩, sought⟩ := opened_of_seek turned
  exact ⟨next, turned, sight, by rw [isMaterialized, opened], sight.place_of_sought opened sought⟩

theorem read_of_ahead_eq_nil (sees : reader.Sees sequence outlook)
    (live : engine.table.live sequence = outlook.pairs) (nothing : outlook.ahead = []) :
    ∃ last, reader.read engine = (.ok none, last, engine) ∧ last.count = reader.count := by
  obtain ⟨last, read, sight⟩ := read_sees sees live
  simp only [Outlook.read, nothing] at read sight
  exact ⟨last, read, sight.count.trans sees.count.symm⟩

/-- Whatever the engine in memory held when a reader was made of it, however the reader has been used, and
whatever was written meanwhile, a seek to any target succeeds. It tells that it has parked exactly if the
target lies outside the window or if travel goes forward and what the engine held is not nothing but has
smaller keys only. Then the open iterator stands nowhere, and the next read finds nothing and counts
nothing. -/
theorem seek_tells_parking (writes : List MemoryEngine.Write) (window : Window) (fillCache : Bool)
    (uses : List Use) (target : Bytes)
    (space : writes.length + (uses.filterMap Use.write?).length < 2 ^ 64) :
    let contents := MemoryEngine.contents writes
    let created := Reader.new window fillCache (MemoryEngine.ofWrites writes)
    let state := created.1.afterUses uses created.2
    ∃ parked next, state.1.seek target state.2 = (.ok parked, next, state.2) ∧
      (parked = true ↔ window.outOfRange target = true ∨
        (window.direction = .forward ∧ contents ≠ [] ∧ ∀ pair ∈ contents, pair.1 < target)) ∧
      (parked = true → next.isMaterialized = true ∧ next.place state.2 = none ∧
        ∃ last, next.read state.2 = (.ok none, last, state.2) ∧ last.count = next.count) := by
  intro contents created state
  have holds := MemoryEngine.holds_ofWrites (Nat.lt_of_le_of_lt (Nat.le_add_right _ _) space)
  let fresh := Outlook.start window (MemoryEngine.ofWrites writes).live
  obtain ⟨sees, live⟩ := afterUses_outlook uses (new_sees window fillCache (MemoryEngine.ofWrites writes))
    (new_live window fillCache _) (UInt64.le_refl _) (holds.counted ▸ space)
  have sameWindow : (outlookAfter uses fresh).window = window := (outlookAfter_fixed uses fresh).1
  have samePairs : (outlookAfter uses fresh).pairs = contents :=
    (outlookAfter_fixed uses fresh).2.trans holds.shown
  obtain ⟨next, sought, sight, opened, place⟩ := seek_places sees live target
  refine ⟨_, next, sought, ?_, fun parks => ?_⟩
  · rw [Window.parks_iff]
    change (outlookAfter uses fresh).window.outOfRange target = true ∨ _ ↔ _
    rw [sameWindow, samePairs]
  · have nothing := Outlook.seek_ahead_of_parks parks
    refine ⟨opened, ?_, read_of_ahead_eq_nil sight live nothing⟩
    rw [place, nothing]
    rfl

/-- The target lies inside the window. Its own key was deleted before the reader was made, and a later key
is written only afterwards. -/
theorem seek_tells_parking_beyond_deleted :
    let writes : List MemoryEngine.Write :=
      [⟨[1], some [10]⟩, ⟨[2], some [20]⟩, ⟨[3], some [30]⟩, ⟨[3], none⟩]
    let window : Window := ⟨.forward, none, some [9], none, some ⟨[1], true⟩, 5, true, true⟩
    let uses : List Use := [.read, .seek [0], .write ⟨[4], some [40]⟩, .read]
    let created := Reader.new window false (MemoryEngine.ofWrites writes)
    let state := created.1.afterUses uses created.2
    writes.length + (uses.filterMap Use.write?).length < 2 ^ 64 ∧ window.outOfRange [3] = false ∧
      (state.1.seek [3] state.2).1 = .ok true ∧
      ∃ parked next, state.1.seek [3] state.2 = (.ok parked, next, state.2) ∧
        (parked = true ↔ window.outOfRange [3] = true ∨ (window.direction = .forward ∧
          MemoryEngine.contents writes ≠ [] ∧
          ∀ pair ∈ MemoryEngine.contents writes, pair.1 < [3])) ∧
        (parked = true → next.isMaterialized = true ∧ next.place state.2 = none ∧
          ∃ last, next.read state.2 = (.ok none, last, state.2) ∧ last.count = next.count) := by
  intro writes window uses
  exact ⟨by decide, by decide, by decide,
    seek_tells_parking writes window false uses [3] (by decide)⟩

end Reader
end KeyScan
