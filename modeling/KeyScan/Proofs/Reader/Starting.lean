import Mathlib.Data.List.Infix
import KeyScan.Proofs.Reader.Rounds

/-! Where travel starts. The start option is no bound that keys are tested against: that no page holds a key
before it rests on the first positioning of the iterator alone. Going forward, or where an edge says where
travel begins, an iterator that loses its place cannot bring travel before the start. Going backward from a
start option it can: a seek to the start that has lost its place is taken for one that has run off the
end. -/
namespace KeyScan

namespace Direction

variable {direction : Direction} {pairs : List (Bytes × Bytes)}

private theorem ahead_sublist {p q : Bytes → Bool} (imp : ∀ key, p key = true → q key = true) :
    (direction.ahead pairs p).Sublist (direction.ahead pairs q) :=
  List.monotone_filter_right _ fun pair => imp pair.1

/-- From a pair where an absorbing predicate holds, travel meets only pairs where it holds. -/
theorem upcoming_sublist {p : Bytes → Bool} {here : Bytes × Bytes} (ascending : Ascending pairs)
    (absorbs : direction.Absorbs p) (member : here ∈ pairs) (holds : p here.1 = true) :
    (direction.upcoming pairs true (some here)).Sublist (direction.ahead pairs p) := by
  have least : (direction.since pairs here.1).head? = some here := by
    refine head?_ahead_of_least ascending (mem_ahead.mpr ⟨member, ?_⟩) ?_
    · simpa using before_irrefl direction here.1
    · intro other ahead
      simpa using (mem_ahead.mp ahead).2
  have since : direction.since pairs here.1 = here :: direction.beyond pairs here.1 :=
    ahead_eq_cons ascending (absorbs_since direction here.1) least
  change (here :: direction.beyond pairs here.1).Sublist _
  rw [← since]
  refine ahead_sublist ?_
  intro other notBefore
  simp only [Bool.not_eq_true', decide_eq_false_iff_not] at notBefore
  by_cases same : other = here.1
  · exact same ▸ holds
  · exact absorbs here.1 other (before_of_not_before notBefore same) holds

end Direction

/-- The entries of the pairs that a window contains. -/
def Window.offers (window : Window) (pairs : List (Bytes × Bytes)) : List Entry :=
  (pairs.filter fun pair => window.contains pair.1).map (Reader.deliver window)

namespace Window

variable {window : Window} {pairs some : List (Bytes × Bytes)}

private theorem offers_sublist (window : Window) (sublist : some.Sublist pairs) :
    (window.offers some).Sublist (window.offers pairs) :=
  (sublist.filter _).map _

private theorem offers_cons (window : Window) (pair : Bytes × Bytes) (pairs : List (Bytes × Bytes)) :
    window.offers (pair :: pairs) =
      (if window.contains pair.1 then [Reader.deliver window pair] else []) ++ window.offers pairs := by
  unfold offers
  by_cases inside : window.contains pair.1 = true <;> simp [inside]

/-- Where an edge says where travel begins, the window contains no key before the start. -/
theorem offers_since {start : Bytes} (starts : window.start = .some start)
    (edged : window.near.isSome = true) :
    window.offers (window.direction.arrange pairs) =
      window.offers (window.direction.since pairs start) := by
  unfold offers Direction.since Direction.ahead
  rw [List.filter_filter]
  refine congrArg (List.map _) (List.filter_congr fun pair _ => ?_)
  by_cases inside : window.contains pair.1 = true
  · obtain ⟨edge, near⟩ := Option.isSome_iff_exists.mp edged
    have reached := inside
    rw [contains_eq, Bool.and_eq_true, near] at reached
    have notBefore : ¬ window.direction.before pair.1 start := by
      refine not_before_of_reached starts ?_
      unfold Window.reached
      rw [near]
      exact reached.2
    simp [inside, notBefore]
  · simp [inside]

end Window

namespace Reader

variable {σ ι : Type} [Engine σ ι] {sequence : Sequence} {pairs : List (Bytes × Bytes)}
  {p : Bytes → Bool}

/-- What reads may look at that go on from where the iterator stands, or open it where a predicate holds. -/
def prospect (pairs : List (Bytes × Bytes)) (p : Bytes → Bool) (reader : Reader ι) (engine : σ) :
    List (Bytes × Bytes) :=
  match reader.handle with
  | .pending => reader.window.direction.ahead pairs p
  | .opened iterator =>
    reader.window.direction.upcoming pairs reader.sought (Engine.entry? iterator engine)
  | .released => []

/-- Were the reader to open its iterator now, it would stand on a pair where a predicate holds, or
nowhere. -/
def Lands (pairs : List (Bytes × Bytes)) (p : Bytes → Bool) (reader : Reader ι) (engine : σ) : Prop :=
  reader.handle = .pending → ∀ iterator after, reader.launch engine = (.ok iterator, after) →
    ∀ here, Engine.entry? iterator after = some here → here ∈ pairs ∧ p here.1 = true

/-- What calls that read entries do: they bring some that the window contains from what they may look at,
and look at nothing of it again. -/
structure Brings (stock : Stock σ sequence pairs) (p : Bytes → Bool) (brought : List Entry)
    (reader : Reader ι) (engine : σ) (next : Reader ι) (after : σ) : Prop where
  draws : next.Draws stock after
  window : next.window = reader.window
  within : (brought ++ reader.window.offers (next.prospect pairs p after)).Sublist
    (reader.window.offers (reader.prospect pairs p engine))

variable {stock : Stock σ sequence pairs} {reader next last : Reader ι} {engine after final : σ}
  {highWaterMark : Nat} {result : Except Failure Page}

private theorem Draws.brings (draws : reader.Draws stock engine) :
    Brings stock p [] reader engine reader engine := ⟨draws, rfl, List.Sublist.refl _⟩

theorem Brings.trans {brought more : List Entry} (first : Brings stock p brought reader engine next after)
    (second : Brings stock p more next after last final) :
    Brings stock p (brought ++ more) reader engine last final where
  draws := second.draws
  window := second.window.trans first.window
  within := by
    have onward := second.within
    rw [first.window] at onward
    rw [List.append_assoc]
    exact (onward.append_left brought).trans first.within

private theorem Brings.remark {brought : List Entry}
    (brings : Brings stock p brought reader engine next after)
    (landed : Bool) (target : Option Bytes) :
    Brings stock p brought reader engine { next with landed, target } after :=
  ⟨brings.draws.remark landed target, brings.window, brings.within⟩

private theorem Draws.materialize_prospect {fresh : Bool} {iterator : ι} (draws : reader.Draws stock engine)
    (absorbs : reader.window.direction.Absorbs p) (lands : reader.Lands pairs p engine)
    (opened : reader.materialize engine = (.ok (fresh, iterator), next, after)) :
    (reader.window.direction.upcoming pairs (fresh || reader.sought)
      (Engine.entry? iterator after)).Sublist (reader.prospect pairs p engine) := by
  unfold Reader.materialize at opened
  rcases draws.handle with ⟨pending, -⟩ | ⟨iterator, handle, -⟩
  · simp only [pending] at opened
    split at opened
    · cases opened
    · rename_i launched
      cases opened
      simp only [prospect, pending, Bool.true_or]
      cases there : Engine.entry? iterator after with
      | none => exact List.nil_sublist _
      | some here =>
        obtain ⟨member, holds⟩ := lands pending _ _ launched here there
        exact Direction.upcoming_sublist stock.ascending absorbs member holds
  · simp only [handle] at opened
    cases opened
    simp only [prospect, handle, Bool.false_or]
    exact List.Sublist.refl _

/-- Where a read has taken its iterator, it meets no other pairs than before. -/
theorem Arrives.upcoming_sublist {direction : Direction} {inclusive : Bool}
    {ahead : List (Bytes × Bytes)} {began place : ι} {during : σ}
    (arrives : Arrives stock direction inclusive ahead began during place after) :
    (direction.upcoming pairs inclusive (Engine.entry? place after)).Sublist ahead := by
  rcases arrives.there with same | ⟨nowhere, -⟩
  · exact same ▸ List.Sublist.refl _
  · rw [nowhere]
    exact List.nil_sublist _

theorem Draws.look_brings {iterator : ι} (draws : reader.Draws stock engine)
    (handle : reader.handle = .opened iterator) (sought : reader.sought = false) :
    let looked := reader.look iterator engine
    looked.2.Draws stock engine ∧ looked.2.window = reader.window ∧
      (looked.1.toList ++ reader.window.offers (looked.2.prospect pairs p engine)).Sublist
        (reader.window.offers
          (reader.window.direction.upcoming pairs true (Engine.entry? iterator engine))) := by
  refine ⟨draws.after_look iterator, congrArg Prod.fst (look_terms reader iterator engine), ?_⟩
  unfold Reader.look prospect
  cases here : Engine.entry? iterator engine with
  | none => simp [handle, here, Direction.upcoming]
  | some pair =>
    simp only [handle, sought, here, Direction.upcoming, ↓reduceIte, Bool.false_eq_true]
    rw [Window.offers_cons]
    refine List.Sublist.append_right ?_ _
    split
    · rename_i admitted
      rw [if_pos (Window.contains_of_test admitted)]
      exact List.Sublist.refl _
    · exact List.nil_sublist _

/-- The entry that a read brings, if it brings one. -/
def brought : Except Failure (Option Entry) → List Entry
  | .error _ | .ok none => []
  | .ok (some entry) => [entry]

private theorem brought_ok (entry : Option Entry) : brought (.ok entry) = entry.toList := by
  cases entry <;> rfl

/-- A read brings an entry from what it may look at, however the iterator loses its place. -/
theorem Draws.read_brings {result : Except Failure (Option Entry)} (draws : reader.Draws stock engine)
    (absorbs : reader.window.direction.Absorbs p) (lands : reader.Lands pairs p engine)
    (read : reader.read engine = (result, next, after)) :
    Brings stock p (brought result) reader engine next after ∧
      ((∃ entry, result = .ok entry) → next.handle ≠ .pending) := by
  cases draws.reads read with
  | unopened pending drawn =>
    refine ⟨⟨drawn, rfl, ?_⟩, fun ⟨_, impossible⟩ => nomatch impossible⟩
    simp only [brought, prospect, pending, List.nil_append]
    exact List.Sublist.refl _
  | stuck opened arrives =>
    have ahead := draws.materialize_prospect absorbs lands opened
    refine ⟨⟨⟨draws.pin, .inr ⟨_, rfl, arrives.holds⟩⟩, rfl, ?_⟩,
      fun ⟨_, impossible⟩ => nomatch impossible⟩
    exact reader.window.offers_sublist (arrives.upcoming_sublist.trans ahead)
  | @looked _ _ place _ _ opened arrives =>
    have ahead := draws.materialize_prospect absorbs lands opened
    have arrived : (reader.arrivedAt place).Draws stock after :=
      ⟨draws.pin, .inr ⟨place, rfl, arrives.holds⟩⟩
    obtain ⟨drawn, same, within⟩ := arrived.look_brings (p := p) rfl rfl
    rw [brought_ok, look_handle]
    refine ⟨⟨drawn, same, within.trans ?_⟩, fun _ => nofun⟩
    exact reader.window.offers_sublist (arrives.upcoming_sublist.trans ahead)

theorem Draws.gather_brings {fuel size : Nat} {entries : List Entry} (draws : reader.Draws stock engine)
    (absorbs : reader.window.direction.Absorbs p) (lands : reader.Lands pairs p engine)
    (gathered : reader.gather highWaterMark fuel size entries engine = (result, next, after)) :
    Brings stock p (reader.pull highWaterMark fuel size engine) reader engine next after := by
  induction fuel generalizing reader engine size entries with
  | zero =>
    cases gathered
    exact draws.brings
  | succ fuel ih =>
    unfold Reader.gather at gathered
    unfold pull
    cases read : reader.read engine with
    | mk entry rest =>
      obtain ⟨between, during⟩ := rest
      obtain ⟨brings, opened⟩ := draws.read_brings absorbs lands read
      rw [read] at gathered
      cases entry with
      | error failure =>
        cases gathered
        exact brings
      | ok entry =>
        cases entry with
        | none =>
          simp only at gathered
          split at gathered <;> cases gathered <;> exact brings
        | some entry =>
          simp only at gathered ⊢
          have marked := brings.remark true between.target
          split at gathered
          · rename_i larger
            cases gathered
            rw [if_pos larger]
            exact marked
          · rename_i more
            rw [if_neg more]
            have still : between.handle ≠ .pending := opened ⟨_, rfl⟩
            exact marked.trans (ih marked.draws (marked.window ▸ absorbs)
              (fun pending => absurd pending still) gathered)

private theorem rounds_window (marks : List Nat) (reader : Reader ι) (engine : σ) :
    (reader.rounds marks engine).2.1.window = reader.window := by
  induction marks generalizing reader engine with
  | nil => rfl
  | cons highWaterMark marks ih =>
    have terms := gather_terms highWaterMark (Engine.reach engine + 2) 0 [] reader engine
    exact (ih _ _).trans (congrArg Prod.fst terms)

/-- Pages bring such entries as well, whatever comes of them, if the reader lands where the predicate holds
whenever it opens its iterator. -/
theorem Draws.rounds_brings (marks : List Nat) (draws : reader.Draws stock engine)
    (absorbs : reader.window.direction.Absorbs p)
    (lands : ∀ earlier, earlier <+: marks →
      let state := (reader.rounds earlier engine).2
      state.1.Draws stock state.2 → state.1.Lands pairs p state.2) :
    let run := reader.rounds marks engine
    Brings stock p (run.1.flatMap Round.pulled) reader engine run.2.1 run.2.2 := by
  induction marks generalizing reader engine with
  | nil => exact draws.brings
  | cons highWaterMark marks ih =>
    have now : reader.Lands pairs p engine := lands [] List.nil_prefix draws
    have brings := draws.gather_brings absorbs now
      (rfl : reader.page highWaterMark engine = ((reader.page highWaterMark engine).1, _, _))
    refine brings.trans (ih brings.draws (brings.window ▸ absorbs) fun earlier initial => ?_)
    exact lands (highWaterMark :: earlier) (List.cons_prefix_cons.mpr ⟨rfl, initial⟩)

/-- A seek to the start does not fail and still finds nothing, though there is a pair at or after it. -/
def misses (pairs : List (Bytes × Bytes)) (start : Bytes) (iterator : ι) (engine : σ) : Bool :=
  match Engine.move (.seek start) iterator engine with
  | (.error _, _, _) => false
  | (.ok _, iterator, engine) =>
    (Engine.entry? iterator engine).isNone && pairs.any fun pair => decide (start ≤ pair.1)

/-- Were the reader to open its iterator now, its seek to the start would miss. -/
def misled (pairs : List (Bytes × Bytes)) (start : Bytes) (reader : Reader ι) (engine : σ) : Bool :=
  match reader.handle, reader.pin with
  | .pending, some sequence =>
    match Engine.open reader.fillCache sequence engine with
    | (.error _, _) => false
    | (.ok iterator, engine) => misses pairs start iterator engine
  | _, _ => false

/-- The first positioning finds a pair that travel reaches from the start, or none, unless it goes backward
and its seek to the start misses. -/
theorem reached_of_opening {window : Window} {start : Bytes} {iterator landed : ι} {here : Bytes × Bytes}
    (starts : window.start = some start) (holds : stock.Holds iterator engine)
    (led : window.direction = .forward ∨ misses pairs start iterator engine = false)
    (followed : window.opening.follow iterator engine = (.ok (), landed, after))
    (stands : Engine.entry? landed after = some here) :
    here ∈ pairs ∧ window.reached here.1 = true := by
  have never : ∀ key, window.reached key = true → ¬ window.direction.before key start :=
    fun _ => Window.not_before_of_reached starts
  have always : ∀ key, window.direction.before start key → window.reached key = true :=
    fun _ => Window.reached_of_before starts
  simp only [Window.opening, starts, Course.follow] at followed
  split at followed
  · cases followed
  · rename_i between during sought
    obtain ⟨held, -, place⟩ := stock.moved holds sought
    cases found : Engine.entry? between during with
    | some first =>
      have lands : (Move.seek start).landing pairs (Engine.entry? iterator engine) = some first := by
        rcases place with place | ⟨nowhere, -⟩
        · exact place.symm.trans found
        · cases found.symm.trans nowhere
      obtain ⟨member, notBefore, -⟩ := Direction.of_landing_seek stock.ascending lands
      have corrected := Direction.landing_corrected stock.ascending never always lands
      simp only [found, Option.map_some, Window.overshoots_eq starts notBefore] at followed
      cases inside : window.reached first.1 with
      | true =>
        simp only [inside, Bool.not_true, Bool.false_eq_true, ↓reduceIte, Course.follow,
          Prod.mk.injEq, true_and] at followed
        obtain ⟨rfl, rfl⟩ := followed
        cases found.symm.trans stands
        exact ⟨member, inside⟩
      | false =>
        simp only [inside, Bool.not_false, ↓reduceIte, Course.once, Course.follow] at followed
        split at followed
        · cases followed
        · rename_i stepped
          cases followed
          rcases (stock.moved held stepped).2.2 with place | ⟨nowhere, -⟩
          · simp only [inside, Bool.false_eq_true, ↓reduceIte] at corrected
            rw [found, Move.outcome, corrected, stands] at place
            exact Direction.mem_ahead.mp (List.mem_of_head? place.symm)
          · cases stands.symm.trans nowhere
    | none =>
      simp only [found, Option.map_none] at followed
      cases direction : window.direction with
      | forward =>
        simp only [direction, Course.follow, Prod.mk.injEq, true_and] at followed
        obtain ⟨rfl, rfl⟩ := followed
        cases found.symm.trans stands
      | backward =>
        -- nothing lies at or after the start, so that the last pair is not before it
        have short : ∀ pair ∈ pairs, pair.1 < start := by
          have sound := led.resolve_left (by simp [direction])
          simpa [misses, sought, found] using sound
        simp only [direction, Course.once, Course.follow] at followed
        split at followed
        · cases followed
        · rename_i moved
          cases followed
          rcases (stock.moved held moved).2.2 with place | ⟨nowhere, -⟩
          · rw [stands] at place
            have lands : Move.last.landing pairs (Engine.entry? between during) = some here := place.symm
            have member := Move.mem_of_landing lands
            refine ⟨member, always here.1 ?_⟩
            rw [direction]
            exact short here member
          · cases stands.symm.trans nowhere

private theorem Draws.of_launch {landed : ι} (draws : reader.Draws stock engine)
    (pending : reader.handle = .pending) (launched : reader.launch engine = (.ok landed, after)) :
    ∃ iterator between, Engine.open reader.fillCache sequence engine = (.ok iterator, between) ∧
      stock.Holds iterator between ∧ Engine.entry? iterator between = none ∧
      reader.window.opening.follow iterator between = (.ok (), landed, after) := by
  rcases draws.handle with ⟨-, serves⟩ | ⟨_, opened, -⟩
  · simp only [launch, draws.pin] at launched
    split at launched
    · cases launched
    · rename_i began
      obtain ⟨holds, nowhere⟩ := stock.opened serves began
      split at launched
      · rename_i arrived
        cases launched
        exact ⟨_, _, began, holds, nowhere, arrived⟩
      · cases launched
  · cases pending.symm.trans opened

private theorem Draws.lands_reached {start : Bytes} (draws : reader.Draws stock engine)
    (starts : reader.window.start = some start)
    (led : reader.window.direction = .forward ∨ reader.misled pairs start engine = false) :
    reader.Lands pairs reader.window.reached engine := by
  intro pending iterator after launched here stands
  obtain ⟨_, _, began, holds, -, followed⟩ := draws.of_launch pending launched
  simp only [misled, pending, draws.pin, began] at led
  exact reached_of_opening starts holds led followed stands

private theorem Draws.lands_within (draws : reader.Draws stock engine) :
    reader.Lands pairs (fun _ => true) engine := by
  intro pending iterator after launched here stands
  obtain ⟨_, _, -, holds, nowhere, followed⟩ := draws.of_launch pending launched
  refine ⟨stock.follow_mem holds ?_ followed stands, rfl⟩
  intro _ there
  cases nowhere.symm.trans there

private theorem delivered_sublist (marks : List Nat) (reader : Reader ι) (engine : σ) :
    ((reader.rounds marks engine).1.flatMap Round.delivered).Sublist
      ((reader.rounds marks engine).1.flatMap Round.pulled) := by
  induction marks generalizing reader engine with
  | nil => exact List.Sublist.refl _
  | cons highWaterMark marks ih =>
    simp only [rounds, List.flatMap_cons]
    refine List.Sublist.append ?_ (ih _ _)
    cases paged : reader.page highWaterMark engine with
    | mk result rest =>
      cases result with
      | error failure => exact List.nil_sublist _
      | ok page =>
        have held : page.entries = reader.pulled highWaterMark engine := (page_of_gather paged).1
        change page.entries.Sublist _
        rw [held]

/-- However iterators lose their places: what the pages of a scan deliver are pairs that its window
contains, in the order of travel and none twice. None of them is before the start if travel goes forward or
begins at an edge, or else if no page opens the iterator with a seek to the start that misses. -/
theorem rounds_since_start {window : Window} {start : Bytes} (fillCache : Bool) (marks : List Nat)
    {stock : Stock σ (Engine.acquire engine).1 pairs} (serves : stock.Serves (Engine.acquire engine).2)
    (starts : window.start = some start) :
    let created : Reader ι × σ := Reader.new window fillCache engine
    let delivered := (created.1.rounds marks created.2).1.flatMap Round.delivered
    delivered.Sublist (window.offers (window.direction.arrange pairs)) ∧
      (window.direction = .forward ∨ window.near.isSome = true ∨
          (∀ earlier, earlier <+: marks →
            let state := (created.1.rounds earlier created.2).2
            state.1.misled pairs start state.2 = false) →
        delivered.Sublist (window.offers (window.direction.since pairs start)) ∧
          ∀ entry ∈ delivered, ∀ key, entry.key = some key → ¬ window.direction.before key start) := by
  intro created delivered
  have draws : created.1.Draws stock created.2 := new_draws serves
  have from_prospect {p : Bytes → Bool} (absorbs : window.direction.Absorbs p)
      (lands : ∀ earlier, earlier <+: marks →
        let state := (created.1.rounds earlier created.2).2
        state.1.Draws stock state.2 → state.1.Lands pairs p state.2) :
      delivered.Sublist (window.offers (window.direction.ahead pairs p)) := by
    have brings := draws.rounds_brings marks absorbs lands
    have pulled := (List.sublist_append_left _ _).trans brings.within
    exact (delivered_sublist marks created.1 created.2).trans pulled
  have contained : delivered.Sublist (window.offers (window.direction.arrange pairs)) := by
    have within := from_prospect (p := fun _ => true) (fun _ _ _ _ => rfl)
      fun _ _ drawn => drawn.lands_within
    rwa [Direction.ahead, List.filter_true] at within
  refine ⟨contained, fun led => ?_⟩
  have since : delivered.Sublist (window.offers (window.direction.since pairs start)) := by
    -- each key is tested against an edge; against the start option only the opening is
    by_cases edged : window.near.isSome = true
    · exact Window.offers_since starts edged ▸ contained
    · refine (from_prospect window.absorbs_reached fun earlier initial drawn => ?_).trans
        (window.offers_sublist (Direction.ahead_sublist fun key reached => ?_))
      · have same : (created.1.rounds earlier created.2).2.1.window = window :=
          rounds_window earlier created.1 created.2
        have lands := drawn.lands_reached (same ▸ starts) ?_
        · rwa [same] at lands
        · rcases led with forward | impossible | sound
          · exact .inl (same ▸ forward)
          · exact absurd impossible edged
          · exact .inr (sound earlier initial)
      · simpa using Window.not_before_of_reached starts reached
  refine ⟨since, fun entry member key shown => ?_⟩
  obtain ⟨pair, offered, rfl⟩ := List.mem_map.mp (since.subset member)
  have notBefore := (Direction.mem_ahead.mp (List.mem_filter.mp offered).1).2
  simp only [deliver] at shown
  split at shown <;> cases shown
  simpa using notBefore

/-- The first seek to the start fails, so that a second one is made, and a later step fails. -/
theorem rounds_since_start_amid_failures :
    let unreadable : Report := ⟨.ioError, some "unreadable"⟩
    let script : Script :=
      { entries := #[([97], [1]), ([98], [2]), ([99], [3]), ([100], [4])]
        failingCalls := [(0, unreadable), (2, unreadable)] }
    let window : Window := ⟨.backward, some [99], none, none, none, -1, true, true⟩
    let created : Reader ScriptedIterator × ScriptedEngine :=
      Reader.new window false (ScriptedEngine.start script)
    let delivered := (created.1.rounds [0, 0, 0, 9] created.2).1.flatMap Round.delivered
    delivered = [⟨some [99], some [3]⟩, ⟨some [98], some [2]⟩, ⟨some [97], some [1]⟩] ∧
      delivered.Sublist (window.offers (window.direction.since script.entries.toList [99])) ∧
      ∀ entry ∈ delivered, ∀ key, entry.key = some key → ¬ window.direction.before key [99] := by
  intro unreadable script window created delivered
  have ascending : Ascending script.entries.toList := by
    unfold Ascending
    decide
  let stock : Stock ScriptedEngine (Engine.acquire (ScriptedEngine.start script)).1
      script.entries.toList := ScriptedEngine.stock script 0 ascending rfl
  have serves : stock.Serves (Engine.acquire (ScriptedEngine.start script)).2 := rfl
  have sound : ∀ earlier ∈ List.inits [0, 0, 0, 9],
      let state := (created.1.rounds earlier created.2).2
      state.1.misled script.entries.toList [99] state.2 = false := by decide +kernel
  have since := (rounds_since_start (ι := ScriptedIterator) false [0, 0, 0, 9] serves
    (rfl : window.start = some [99])).2
  exact ⟨by decide +kernel, since (.inr (.inr fun earlier initial =>
    sound earlier ((List.mem_inits earlier _).mpr initial)))⟩

/-- A seek to the start that meets a bad place, which is recorded, is taken for one that has run off the end
of the data: a scan backward from `b` delivers `c`, in a page that does not fail. -/
theorem rounds_deliver_before_start :
    let corrupt : Report := ⟨.corruption, some "bad block"⟩
    let script : Script :=
      { entries := #[([97], [118]), ([98], [119]), ([99], [120])], seekRule := .always 3
        good := some 3, failure := some corrupt }
    let options : ScanOptions := { reverse := true, start := some [98] }
    (∃ stock : Stock ScriptedEngine 0 script.entries.toList, stock.Recorded ∧
      stock.Serves (Engine.acquire (ScriptedEngine.start script)).2) ∧
    ∃ window, Window.ofOptions options = .ok window ∧ window.start = some [98] ∧
      let created : Reader ScriptedIterator × ScriptedEngine :=
        Reader.new window false (ScriptedEngine.start script)
      (created.1.page 0 created.2).1 = .ok ⟨[⟨some [99], some [120]⟩], false⟩ ∧
        window.direction.before [99] [98] := by
  intro corrupt script options
  have ascending : Ascending script.entries.toList := by
    unfold Ascending
    decide
  have seeks : ScriptedEngine.FindsOrFails script := .inr ⟨3, rfl, rfl⟩
  refine ⟨⟨ScriptedEngine.keptStock script 0 ascending seeks,
    ScriptedEngine.keptStock_recorded rfl (by decide), rfl⟩, ?_⟩
  exact ⟨⟨.backward, some [98], none, none, none, -1, true, true⟩, rfl, rfl, by decide, by decide⟩

end Reader
end KeyScan
