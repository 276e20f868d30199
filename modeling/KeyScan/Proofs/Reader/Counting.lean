import KeyScan.Proofs.Reader.Rounds

/-! The limit of a window bounds what its reader delivers over its whole life, whatever the engine does: it
may keep its entries in any order, fail, or not do what it is called for. The counter keeps the books: each
read that finds its iterator on an entry is counted once, also where the entry is refused. -/
namespace KeyScan

/-- What a read comes to: whether it has found the iterator on an entry, and the entry that it brings. -/
structure Glance where
  stood : Bool
  entry : Option Entry

namespace Glance

def produced (seen : List Glance) : List Entry := seen.filterMap entry

def met (seen : List Glance) : Nat := seen.countP stood

@[simp] theorem produced_append (first second : List Glance) :
    produced (first ++ second) = produced first ++ produced second := List.filterMap_append

@[simp] theorem met_append (first second : List Glance) :
    met (first ++ second) = met first + met second := List.countP_append

end Glance

namespace Reader

variable {σ ι : Type} [Engine σ ι]

/-- What a read has come to that gave a result and left a reader and an engine behind. -/
def glance (result : Except Failure (Option Entry)) (next : Reader ι) (after : σ) : Glance :=
  match result with
  | .error _ => ⟨false, none⟩
  | .ok entry => ⟨(next.place after).isSome, entry⟩

def glances (highWaterMark : Nat) : (fuel size : Nat) → Reader ι → σ → List Glance
  | 0, _, _, _ => []
  | fuel + 1, size, reader, engine =>
    match reader.read engine with
    | (.error failure, next, after) => [glance (.error failure) next after]
    | (.ok none, next, after) => [glance (.ok none) next after]
    | (.ok (some entry), next, after) =>
      let size := size + entry.size
      glance (.ok (some entry)) next after ::
        if highWaterMark < size then []
        else glances highWaterMark fuel size { next with landed := true } after

/-- What may be demanded of a reader: an entry, a page that is cut after a number of reads at the latest, or
that it turns to a target. -/
inductive Demand where
  | read
  | page (highWaterMark reads : Nat)
  | seek (target : Bytes)

/-- What came of demands: the reads that they made, and the entries that they gave. -/
structure Record where
  seen : List Glance := []
  given : List Entry := []

def Record.append (first second : Record) : Record :=
  ⟨first.seen ++ second.seen, first.given ++ second.given⟩

/-- Meets a demand. -/
def meet (demand : Demand) (reader : Reader ι) (engine : σ) : Record × Reader ι × σ :=
  match demand with
  | .read =>
    let (result, reader, engine) := reader.read engine
    let seen := glance result reader engine
    (⟨[seen], seen.entry.toList⟩, reader, engine)
  | .page highWaterMark reads =>
    let seen := reader.glances highWaterMark reads 0 engine
    let (result, reader, engine) := reader.gather highWaterMark reads 0 [] engine
    (⟨seen, match result with | .ok page => page.entries | .error _ => []⟩, reader, engine)
  | .seek target =>
    let (_, reader, engine) := reader.seek target engine
    ({}, reader, engine)

/-- Meets demands one after the other, whatever comes of them. -/
def meetAll : List Demand → Reader ι → σ → Record × Reader ι × σ
  | [], reader, engine => ({}, reader, engine)
  | demand :: demands, reader, engine =>
    let (first, reader, engine) := reader.meet demand engine
    let (rest, reader, engine) := meetAll demands reader engine
    (first.append rest, reader, engine)

/-- What reads do to the counter. Without a limit it stays; with one it is moved on by each read that finds
an entry, and where it was when the reads began it leaves room for the entries that they bring. -/
structure Ticks (reader : Reader ι) (seen : List Glance) (next : Reader ι) : Prop where
  window : next.window = reader.window
  idle : reader.window.limit < 0 → next.count = reader.count
  brought : (Glance.produced seen).length ≤ Glance.met seen
  counted : 0 ≤ reader.window.limit → reader.count.toNat + Glance.met seen < 2 ^ 64 →
    next.count.toNat = reader.count.toNat + Glance.met seen
  bounded : 0 ≤ reader.window.limit → reader.count.toNat + Glance.met seen < 2 ^ 64 →
    Glance.produced seen = [] ∨
      (reader.count.toNat : Int) + (Glance.produced seen).length ≤ reader.window.limit

namespace Ticks

variable {reader next last : Reader ι} {first second : List Glance}

/-- What changes neither the window nor the counter makes no read. -/
theorem of_eq (window : next.window = reader.window) (count : next.count = reader.count) :
    Ticks reader [] next where
  window := window
  idle _ := count
  brought := Nat.le_refl _
  counted _ _ := congrArg UInt64.toNat count
  bounded _ _ := .inl rfl

theorem trans (before : Ticks reader first next) (after : Ticks next second last) :
    Ticks reader (first ++ second) last where
  window := after.window.trans before.window
  idle unlimited := (after.idle (before.window ▸ unlimited)).trans (before.idle unlimited)
  brought := by
    have one := before.brought
    have two := after.brought
    simp only [Glance.produced_append, Glance.met_append, List.length_append]
    omega
  counted limited few := by
    rw [Glance.met_append] at few ⊢
    have one := before.counted limited (by omega)
    have two := after.counted (before.window ▸ limited) (by omega)
    omega
  bounded limited few := by
    rw [Glance.met_append] at few
    have brought := before.brought
    have one := before.counted limited (by omega)
    rw [Glance.produced_append, List.length_append]
    rcases after.bounded (before.window ▸ limited) (by omega) with none | within
    · rw [none, List.append_nil, List.length_nil, Nat.add_zero]
      exact before.bounded limited (by omega)
    · -- the later reads count on from all that the earlier ones have met, so from what these have brought
      rw [before.window] at within
      refine .inr ?_
      omega

end Ticks

section Calls

variable (reader : Reader ι) (engine : σ)

private theorem materialize_count : (reader.materialize engine).2.1.count = reader.count := by
  unfold materialize
  split
  · rfl
  · rfl
  · split <;> rfl

/-- A look counts the entry where the iterator stands, and brings it only within the limit. -/
theorem look_ticks {iterator : ι} (handle : reader.handle = .opened iterator) :
    let looked := reader.look iterator engine
    Ticks reader [glance (.ok looked.1) looked.2 engine] looked.2 := by
  unfold look
  cases here : Engine.entry? iterator engine with
  | none =>
    simp only [glance, place, handle, here, Option.isSome_none]
    exact ⟨rfl, fun _ => rfl, Nat.le_refl _, fun _ _ => rfl, fun _ _ => .inl rfl⟩
  | some pair =>
    simp only [glance, place, handle, here, Option.isSome_some]
    have moved := reader.window.test_count pair.1 reader.count
    refine ⟨rfl, fun unlimited => ?_, ?_, fun limited few => ?_, fun limited few => ?_⟩
    · rw [moved, if_neg (Int.not_le.mpr unlimited)]
    · exact List.length_filterMap_le _ _
    · rw [moved, if_pos limited]
      exact MemoryEngine.toNat_succ few
    · cases admitted : (reader.window.test pair.1 reader.count).1 with
      | false => exact .inl rfl
      | true =>
        have within := ((Window.test_of_limited limited).mp admitted).1
        rw [MemoryEngine.toNat_succ few] at within
        exact .inr within

/-- A read counts the entry that it finds, if it finds one. -/
theorem read_ticks :
    let read := reader.read engine
    Ticks reader [glance read.1 read.2.1 read.2.2] read.2.1 := by
  have terms := materialize_terms reader engine
  have count := materialize_count reader engine
  -- a read that fails has not looked
  have unseen {next : Reader ι} (window : next.window = reader.window)
      (count : next.count = reader.count) : Ticks reader [⟨false, none⟩] next :=
    ⟨window, fun _ => count, Nat.le_refl _, fun _ _ => congrArg UInt64.toNat count, fun _ _ => .inl rfl⟩
  have looks (next : Reader ι) {iterator : ι} {after : σ} (window : next.window = reader.window)
      (count : next.count = reader.count) (handle : next.handle = .opened iterator) :
      Ticks reader [glance (.ok (next.look iterator after).1) (next.look iterator after).2 after]
        (next.look iterator after).2 :=
    (Ticks.of_eq window count).trans (look_ticks next after handle)
  unfold read
  split
  · rename_i failed
    rw [failed] at terms count
    exact unseen (congrArg Prod.fst terms) count
  · rename_i fresh iterator between during opened
    have handle := handle_of_materialize opened
    rw [opened] at terms count
    have window : between.window = reader.window := congrArg Prod.fst terms
    simp only
    split
    · exact looks { between with sought := false } window count handle
    · split
      · exact unseen window count
      · exact looks _ window count rfl

private theorem seek_count (target : Bytes) : (reader.seek target engine).2.1.count = reader.count := by
  have count := materialize_count { reader with target := none } engine
  unfold seek
  split
  · rename_i failed
    rwa [failed] at count
  · rename_i opened
    rw [opened] at count
    split
    · exact count
    · simp only
      split <;> exact count

theorem gather_ticks (highWaterMark fuel size : Nat) (entries : List Entry) :
    Ticks reader (reader.glances highWaterMark fuel size engine)
      (reader.gather highWaterMark fuel size entries engine).2.1 := by
  induction fuel generalizing size entries reader engine with
  | zero => exact .of_eq rfl rfl
  | succ fuel ih =>
    have ticks := read_ticks reader engine
    unfold gather glances
    cases read : reader.read engine with
    | mk result rest =>
      obtain ⟨next, after⟩ := rest
      rw [read] at ticks
      cases result with
      | error failure => exact ticks
      | ok entry =>
        cases entry with
        | none =>
          simp only
          split <;> exact ticks
        | some entry =>
          simp only
          split
          · exact ⟨ticks.window, ticks.idle, ticks.brought, ticks.counted, ticks.bounded⟩
          · have marked : Ticks reader [glance (.ok (some entry)) next after]
                { next with landed := true } :=
              ⟨ticks.window, ticks.idle, ticks.brought, ticks.counted, ticks.bounded⟩
            exact marked.trans (ih _ _ _ _)

theorem pull_eq_produced (highWaterMark fuel size : Nat) :
    reader.pull highWaterMark fuel size engine =
      Glance.produced (reader.glances highWaterMark fuel size engine) := by
  induction fuel generalizing size reader engine with
  | zero => rfl
  | succ fuel ih =>
    unfold pull glances
    cases read : reader.read engine with
    | mk result rest =>
      obtain ⟨next, after⟩ := rest
      cases result with
      | error failure => rfl
      | ok entry =>
        cases entry with
        | none => rfl
        | some entry =>
          simp only
          split
          · rfl
          · rw [ih]
            rfl

theorem meet_ticks (demand : Demand) :
    let met := reader.meet demand engine
    Ticks reader met.1.seen met.2.1 ∧ met.1.given.Sublist (Glance.produced met.1.seen) := by
  cases demand with
  | read =>
    refine ⟨read_ticks reader engine, ?_⟩
    simp only [meet, Glance.produced]
    generalize (glance (reader.read engine).1 (reader.read engine).2.1 (reader.read engine).2.2) = seen
    cases brought : seen.entry <;> simp [brought]
  | seek target =>
    have terms := seek_terms target reader engine
    exact ⟨.of_eq (congrArg Prod.fst terms) (seek_count reader engine target), List.Sublist.refl _⟩
  | page highWaterMark reads =>
    refine ⟨gather_ticks reader engine highWaterMark reads 0 [], ?_⟩
    simp only [meet]
    cases gathered : reader.gather highWaterMark reads 0 [] engine with
    | mk result rest =>
      cases result with
      | error failure => exact List.nil_sublist _
      | ok page =>
        have held := (page_of_gather gathered).1
        rw [List.reverse_nil, List.nil_append, pull_eq_produced] at held
        exact held ▸ List.Sublist.refl _

end Calls

/-- Meeting demands counts their reads, and gives nothing that these have not brought. -/
theorem meetAll_ticks (demands : List Demand) (reader : Reader ι) (engine : σ) :
    let met := reader.meetAll demands engine
    Ticks reader met.1.seen met.2.1 ∧ met.1.given.Sublist (Glance.produced met.1.seen) := by
  induction demands generalizing reader engine with
  | nil => exact ⟨.of_eq rfl rfl, List.Sublist.refl _⟩
  | cons demand demands ih =>
    obtain ⟨first, given⟩ := meet_ticks reader engine demand
    obtain ⟨rest, later⟩ := ih (reader.meet demand engine).2.1 (reader.meet demand engine).2.2
    refine ⟨first.trans rest, ?_⟩
    simp only [meetAll, Record.append, Glance.produced_append]
    exact given.append later

private theorem meetAll_append (first second : List Demand) (reader : Reader ι) (engine : σ) :
    let between := reader.meetAll first engine
    let last := between.2.1.meetAll second between.2.2
    reader.meetAll (first ++ second) engine = (between.1.append last.1, last.2) := by
  induction first generalizing reader engine with
  | nil => rfl
  | cons demand demands ih =>
    simp only [List.cons_append, meetAll, ih, Record.append, List.append_assoc]

/-- What becomes of a new reader that demands are made of. -/
def lifetime (window : Window) (fillCache : Bool) (demands : List Demand) (engine : σ) :
    Record × Reader ι × σ :=
  let (reader, engine) := Reader.new window fillCache engine
  reader.meetAll demands engine

/-- The counter does not fall as further demands are met, if it has not come full circle. -/
theorem lifetime_count_mono (window : Window) (fillCache : Bool) (engine : σ) {earlier demands : List Demand}
    (initial : earlier <+: demands)
    (few : 0 ≤ window.limit → Glance.met (lifetime window fillCache demands engine).1.seen < 2 ^ 64) :
    (lifetime window fillCache earlier engine).2.1.count ≤
      (lifetime window fillCache demands engine).2.1.count := by
  obtain ⟨further, rfl⟩ := initial
  unfold lifetime at few ⊢
  simp only [meetAll_append, Record.append, Glance.met_append] at few ⊢
  have sooner := (meetAll_ticks earlier (Reader.new window fillCache engine).1
    (Reader.new window fillCache engine).2).1
  generalize meetAll earlier (Reader.new window fillCache engine).1
    (Reader.new window fillCache engine).2 = between at sooner few ⊢
  have later := (meetAll_ticks further between.2.1 between.2.2).1
  have same : between.2.1.window = window := sooner.window
  by_cases limited : 0 ≤ window.limit
  · have few := few limited
    have start : (Reader.new window fillCache engine : Reader ι × σ).1.count.toNat = 0 := rfl
    have one := sooner.counted limited (by omega)
    have two := later.counted (same ▸ limited) (by omega)
    rw [UInt64.le_iff_toNat_le]
    omega
  · rw [later.idle (same ▸ Int.not_le.mp limited)]
    exact UInt64.le_refl _

/-- Whatever an engine does and whatever is demanded, a limit bounds the entries that the reads of a reader
bring over its life, so also those that it gives; the counter tells how many reads have found the iterator
on an entry, and never falls, as long as these are fewer than a word can count. Without a limit the counter
stays at zero. -/
theorem limit_bounds_lifetime (window : Window) (fillCache : Bool) (demands : List Demand) (engine : σ)
    (few : 0 ≤ window.limit → Glance.met (lifetime window fillCache demands engine).1.seen < 2 ^ 64) :
    let life := lifetime window fillCache demands engine
    let produced := Glance.produced life.1.seen
    life.1.given.Sublist produced ∧
      (0 ≤ window.limit → (produced.length : Int) ≤ window.limit ∧
        life.2.1.count.toNat = Glance.met life.1.seen) ∧
      (window.limit < 0 → life.2.1.count = 0) ∧
      ∀ earlier, earlier <+: demands →
        (lifetime window fillCache earlier engine).2.1.count ≤ life.2.1.count := by
  intro life produced
  obtain ⟨ticks, given⟩ := meetAll_ticks demands (Reader.new window fillCache engine).1
    (Reader.new window fillCache engine).2
  have start : (Reader.new window fillCache engine : Reader ι × σ).1.count.toNat = 0 := rfl
  have room (limited : 0 ≤ window.limit) : 0 + Glance.met life.1.seen < 2 ^ 64 :=
    (Nat.zero_add _).symm ▸ few limited
  refine ⟨given, fun limited => ⟨?_, ?_⟩, ticks.idle, fun earlier initial =>
    lifetime_count_mono window fillCache engine initial few⟩
  · rcases ticks.bounded limited (room limited) with none | within
    · have none : produced = [] := none
      rw [none]
      exact limited
    · rw [start, Int.natCast_zero, Int.zero_add] at within
      exact within
  · exact (ticks.counted limited (room limited)).trans (by rw [start, Nat.zero_add]; rfl)

/-- Entries out of order, one in a bad place, a seek that fails: two entries are brought for a limit of two,
three reads are counted, and the page that has read the second entry is lost. -/
theorem limit_bounds_lifetime_amid_failures :
    let unreadable : Report := ⟨.ioError, some "unreadable"⟩
    let script : Script :=
      { entries := #[([99], [3]), ([97], [1]), ([98], [2])], seekRule := .always 1
        failingCalls := [(2, unreadable), (4, unreadable)] }
    let window : Window := ⟨.forward, none, none, none, none, 2, true, true⟩
    let demands : List Demand := [.read, .page 9 2, .seek [97], .page 9 2, .read]
    let c : Entry := ⟨some [99], some [3]⟩
    let a : Entry := ⟨some [97], some [1]⟩
    let life : Record × Reader ScriptedIterator × ScriptedEngine :=
      lifetime window false demands (ScriptedEngine.start script)
    life.1.given = [c] ∧ Glance.produced life.1.seen = [c, a] ∧ life.2.1.count = 3 ∧
      life.1.given.Sublist (Glance.produced life.1.seen) ∧
      life.2.1.count.toNat = Glance.met life.1.seen := by
  intro unreadable script window demands c a life
  obtain ⟨given, limited, -⟩ :=
    limit_bounds_lifetime window false demands (ScriptedEngine.start script) fun _ => by decide
  exact ⟨by decide, by decide, by decide, given, (limited (by decide)).2⟩

end Reader
end KeyScan
