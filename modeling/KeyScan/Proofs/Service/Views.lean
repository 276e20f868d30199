import KeyScan.Proofs.Reader.Parking
import KeyScan.Proofs.Service.Stability

namespace KeyScan

/-- What a scan is opened on: its window, and the pairs that the engine holds then. -/
structure View where
  window : Window
  pairs : List (Bytes × Bytes)
  deriving DecidableEq

namespace View

def outside (view : View) (target : Bytes) : Bool := view.window.outOfRange target

/-- Whether a target lies inside the window of travel forward, but beyond all keys, of which there are
some. -/
def overrun (view : View) (target : Bytes) : Bool :=
  !view.outside target && (decide (view.window.direction = .forward) && !view.pairs.isEmpty &&
    view.pairs.all fun pair => decide (pair.1 < target))

def parks (view : View) (target : Bytes) : Bool := view.window.parks view.pairs target

/-- A seek parks for one of two reasons. -/
theorem toNat_parks (view : View) (target : Bytes) :
    (view.parks target).toNat = (view.outside target).toNat + (view.overrun target).toNat := by
  unfold parks Window.parks overrun outside
  cases view.window.outOfRange target <;> simp

end View

/-- Until it is released, a reader has the pairs before it that its scan was opened on. -/
def Reader.Shows (reader : Reader TableWalker) (view : View) (engine : MemoryEngine) : Prop :=
  reader.isReleased = false → ∃ sequence outlook, sequence ≤ engine.sequence ∧
    engine.table.live sequence = view.pairs ∧ reader.Sees sequence outlook ∧
    outlook.window = view.window ∧ outlook.pairs = view.pairs

namespace Reader

variable {reader next : Reader TableWalker} {view : View} {engine after : MemoryEngine}

theorem new_shows (window : Window) (fillCache : Bool) (engine : MemoryEngine) :
    (Reader.new window fillCache engine).1.Shows ⟨window, engine.live⟩
      (Reader.new window fillCache engine).2 :=
  fun _ => ⟨_, _, UInt64.le_refl _, rfl, new_sees window fillCache engine, rfl, rfl⟩

private theorem Shows.extends (shows : reader.Shows view engine) (extended : engine.Extends after) :
    reader.Shows view after := by
  intro held
  obtain ⟨sequence, outlook, earlier, live, sees, same⟩ := shows held
  exact ⟨sequence, outlook, UInt64.le_trans earlier extended.reaches,
    (extended.pairs sequence earlier).trans live, sees, same⟩

/-- What a section makes of a reader leaves it the pairs, or releases it. -/
theorem Shows.step (shows : reader.Shows view engine) (step : reader.Step engine next after) :
    next.Shows view after := by
  intro held
  cases step with
  | seek target =>
    rw [seek_isReleased] at held
    obtain ⟨sequence, outlook, earlier, live, sees, window, pairs⟩ := shows held
    obtain ⟨next, sought, sight⟩ := seek_sees sees (live.trans pairs.symm) target
    rw [sought]
    exact ⟨sequence, _, earlier, live, sight, window, pairs⟩
  | page highWaterMark =>
    have held : reader.isReleased = false := (page_isReleased highWaterMark reader engine).symm.trans held
    obtain ⟨sequence, outlook, earlier, live, sees, window, pairs⟩ := shows held
    obtain ⟨next, read, sight⟩ := page_sees sees (live.trans pairs.symm) highWaterMark
    rw [read]
    exact ⟨sequence, _, earlier, live, sight.remark next.landed none, window, pairs⟩
  | release =>
    rw [release_isReleased] at held
    cases held

theorem Shows.seek {target : Bytes} {parked : Bool} (shows : reader.Shows view engine)
    (sought : reader.seek target engine = (.ok parked, next, after)) : parked = view.parks target := by
  obtain ⟨⟨walker, opened⟩, -⟩ := opened_of_seek sought
  have held : reader.isReleased = false := by
    have same := seek_isReleased target reader engine
    rw [sought] at same
    rw [← same, isReleased, opened]
  obtain ⟨sequence, outlook, earlier, live, sees, window, pairs⟩ := shows held
  obtain ⟨_, turned, -⟩ := seek_sees sees (live.trans pairs.symm) target
  rw [sought] at turned
  cases turned
  rw [View.parks, ← window, ← pairs]
  rfl

end Reader

namespace Service

/-- Every scan on record is listed with what it was opened on. -/
def Recalls (views : List (ScanId × View)) (service : Service MemoryEngine TableWalker) : Prop :=
  ∀ id scan, service.scan? id = some scan →
    ∃ view, views.lookup id = some view ∧ scan.reader.Shows view service.engine

variable {views : List (ScanId × View)} {service after : Service MemoryEngine TableWalker}
  {id : ScanId}

theorem Recalls.extends (recalls : service.Recalls views) {engine : MemoryEngine}
    (extended : service.engine.Extends engine) : { service with engine }.Recalls views := by
  intro id scan found
  obtain ⟨view, listed, shows⟩ := recalls id scan found
  exact ⟨view, listed, shows.extends extended⟩

theorem Recalls.move (recalls : service.Recalls views) {scan : Scan TableWalker}
    (found : service.scan? id = some scan) {engine : MemoryEngine}
    (extended : service.engine.Extends engine) {change : Scan TableWalker → Scan TableWalker}
    (own : ∀ view, scan.reader.Shows view service.engine →
      (change scan).reader.Shows view engine) :
    ({ service with engine }.update id change).Recalls views := by
  have before : { service with engine }.scan? id = some scan := found
  intro other record known
  rw [scan?_update] at known
  split at known
  · rename_i same
    subst same
    obtain ⟨view, listed, shows⟩ := recalls other scan found
    rw [before, Option.map_some, Option.some.injEq] at known
    exact ⟨view, listed, known ▸ own view shows⟩
  · exact recalls.extends extended other record known

theorem recalls_kept (views : List (ScanId × View)) :
    Kept fun service : Service MemoryEngine TableWalker => service.Recalls views :=
  .of_change fun _ before _ change recalls => by
    have extended := change.agrees.extends
    cases change with
    | count | withdraw => exact recalls
    | pass found => exact recalls.move found extended fun _ shows => shows
    | move found step => exact recalls.move found extended fun _ shows => shows.step step

theorem Recalls.create {options : ScanOptions} {window : Window} (recalls : service.Recalls views)
    (opened : service.create options = (.ok id, after)) (accepted : Window.ofOptions options = .ok window)
    (listed : views.lookup id = some ⟨window, service.engine.live⟩) : after.Recalls views := by
  obtain ⟨_, same, -, scans, -, engine⟩ := create_ok opened
  cases accepted.symm.trans same
  intro other scan found
  unfold scan? at found
  rw [scans, List.lookup_append] at found
  cases known : service.scans.lookup other with
  | some old =>
    rw [known, Option.some_or, Option.some.injEq] at found
    obtain ⟨view, there, shows⟩ := recalls other old known
    rw [← found, engine]
    exact ⟨view, there, shows.extends service.engine.acquire_agrees.extends⟩
  | none =>
    rw [known, Option.none_or, List.lookup_cons] at found
    split at found <;> cases found
    rename_i own
    rw [eq_of_beq own, engine]
    exact ⟨_, listed, Reader.new_shows window options.fillCache service.engine⟩

/-- A seek that succeeds is counted as parked if what its scan was opened on says so. -/
theorem Recalls.seek {target : Bytes} (recalls : service.Recalls views)
    (sought : service.seek target id = (.ok (), after)) :
    ∃ view, views.lookup id = some view ∧
      after.tally.parked = service.tally.parked + UInt64.ofNat (view.parks target).toNat := by
  unfold Service.seek at sought
  split at sought
  · cases sought
  · rename_i scan found
    obtain ⟨view, listed, shows⟩ := recalls id scan found
    split at sought
    · cases sought
    · rcases read : scan.reader.seek target service.engine with ⟨_ | parked, next, engine⟩
      · rw [read] at sought
        cases sought
      · rw [read] at sought
        cases sought
        refine ⟨view, listed, ?_⟩
        rw [← shows.seek read]
        cases parked
        · exact (UInt64.add_zero _).symm
        · rfl

end Service
end KeyScan
