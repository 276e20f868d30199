import Mathlib.Data.List.Basic
import Mathlib.Data.List.Flatten
import KeyScan.Proofs.Reader.Balking
import KeyScan.Proofs.Reader.Seeking

/-! Scans page by page of an engine whose calls may fail. Whatever fails, what the pages hold comes in order
and at most once, and only what a failed page had read is missing. If none fails and the last one is
done, nothing is missing. -/
namespace KeyScan

namespace Outlook

/-- What is left to deliver stays the same list, less what was read of it: the counter has room for all
pairs ahead, and once a key has left the window no later one is back in it. -/
structure Orderly (outlook : Outlook) : Prop where
  room : outlook.count.toNat + outlook.ahead.length < 2 ^ 64
  ordered : outlook.ahead.Pairwise fun a b =>
    outlook.window.contains b.1 = true → outlook.window.contains a.1 = true

variable {outlook rest : Outlook}

theorem start_orderly {window : Window} {pairs : List (Bytes × Bytes)} (ascending : Ascending pairs)
    (few : pairs.length < 2 ^ 64) : (start window pairs).Orderly where
  room := by
    have bound : (start window pairs).ahead.length ≤ pairs.length := Direction.length_ahead_le _
    rw [show (start window pairs).count.toNat = 0 from rfl]
    omega
  ordered := start_ordered ascending

theorem Orderly.tail {pair : Bytes × Bytes} {after : List (Bytes × Bytes)} (orderly : outlook.Orderly)
    (ahead : outlook.ahead = pair :: after) :
    { outlook with ahead := after, count := (outlook.window.test pair.1 outlook.count).2 }.Orderly where
  room := by
    have room := orderly.room
    have counted := outlook.window.test_count_le pair.1 outlook.count
    rw [ahead, List.length_cons] at room
    simp only
    omega
  ordered := by
    have ordered := orderly.ordered
    rw [ahead] at ordered
    exact ordered.of_cons

/-- Once the window refuses a pair, nothing is left beyond it either. -/
theorem Orderly.remaining_of_refused {pair : Bytes × Bytes} {after : List (Bytes × Bytes)}
    (orderly : outlook.Orderly) (ahead : outlook.ahead = pair :: after)
    (refused : (outlook.window.test pair.1 outlook.count).1 = false) :
    { outlook with ahead := after, count := (outlook.window.test pair.1 outlook.count).2 }.remaining =
      [] := by
  have room : HasRoom outlook.window (pair :: after) outlook.count := .inl (ahead ▸ orderly.room)
  have left := (orderly.tail ahead).room
  rw [remaining, yields_eq (.inl left)]
  rw [test_fst room, Bool.and_eq_false_iff] at refused
  rcases refused with outside | exhausted
  · have beyond : ∀ later ∈ after, outlook.window.contains later.1 = false := by
      have ordered := orderly.ordered
      rw [ahead] at ordered
      intro later member
      refine Bool.eq_false_iff.mpr fun inside => ?_
      exact Bool.false_ne_true (outside.symm.trans (List.rel_of_pairwise_cons ordered member inside))
    have none : after.takeWhile (fun pair => outlook.window.contains pair.1) = [] := by
      cases after with
      | nil => rfl
      | cons next _ => simp [beyond next (by simp)]
    simp [none, allowed]
  · simp only [Bool.or_eq_false_iff, decide_eq_false_iff_not] at exhausted
    have counted : (outlook.window.test pair.1 outlook.count).2 = outlook.count + 1 := by
      rw [Window.test, if_pos (Int.not_lt.mp exhausted.1)]
    have next := room.toNat_succ
    have none : (outlook.window.limit - (outlook.count + 1).toNat).toNat = 0 := by omega
    simp only [allowed, exhausted.1, counted, none, ↓reduceIte, List.take_zero, List.map_nil]

/-- A read takes an entry off what is left, or there is nothing left and nothing comes back. -/
theorem Orderly.read {entry : Option Entry} (orderly : outlook.Orderly)
    (read : outlook.read = (entry, rest)) :
    rest.Orderly ∧ outlook.remaining = entry.toList ++ rest.remaining := by
  cases ahead : outlook.ahead with
  | nil =>
    simp only [Outlook.read, ahead, Prod.mk.injEq] at read
    obtain ⟨rfl, rfl⟩ := read
    exact ⟨orderly, rfl⟩
  | cons pair after =>
    have taken := read
    simp only [Outlook.read, ahead, Prod.mk.injEq] at taken
    obtain ⟨brought, rfl⟩ := taken
    refine ⟨orderly.tail ahead, ?_⟩
    cases entry with
    | some entry => exact (remaining_of_read_some read).1
    | none =>
      have refused : (outlook.window.test pair.1 outlook.count).1 = false := by
        simpa using brought
      rw [remaining_of_read_none read, orderly.remaining_of_refused ahead refused]
      rfl

end Outlook

namespace Reader

variable {σ ι : Type} [Engine σ ι]

def pull (highWaterMark : Nat) : (fuel size : Nat) → Reader ι → σ → List Entry
  | 0, _, _, _ => []
  | fuel + 1, size, reader, engine =>
    match reader.read engine with
    | (.error _, _, _) | (.ok none, _, _) => []
    | (.ok (some entry), reader, engine) =>
      let size := size + entry.size
      entry ::
        if highWaterMark < size then []
        else pull highWaterMark fuel size { reader with landed := true } engine

/-- The entries that the next page reads. -/
def pulled (highWaterMark : Nat) (reader : Reader ι) (engine : σ) : List Entry :=
  reader.pull highWaterMark (Engine.reach engine + 2) 0 engine

/-- A page that was asked for: the entries that it read, and what came of it. -/
structure Round where
  pulled : List Entry
  result : Except Failure Page

def Round.delivered (round : Round) : List Entry :=
  match round.result with
  | .ok page => page.entries
  | .error _ => []

/-- Asks for a page with each of some marks, whatever comes of it. -/
def rounds : List Nat → Reader ι → σ → List Round × Reader ι × σ
  | [], reader, engine => ([], reader, engine)
  | highWaterMark :: marks, reader, engine =>
    let pulled := reader.pulled highWaterMark engine
    let (result, reader, engine) := reader.page highWaterMark engine
    let (later, reader, engine) := rounds marks reader engine
    (⟨pulled, result⟩ :: later, reader, engine)

section Pages

variable {reader next : Reader ι} {engine after : σ} {highWaterMark fuel size : Nat}
  {entries : List Entry}

/-- A page that does not fail holds the entries that it has read. If it is done, the iterator has
recorded no error. -/
theorem page_of_gather {page : Page}
    (gathered : reader.gather highWaterMark fuel size entries engine = (.ok page, next, after)) :
    page.entries = entries.reverse ++ reader.pull highWaterMark fuel size engine ∧
      (page.done = true → next.brokenOff? after = none) := by
  induction fuel generalizing reader engine size entries with
  | zero =>
    cases gathered
    exact ⟨(List.append_nil _).symm, fun done => absurd done Bool.false_ne_true⟩
  | succ fuel ih =>
    unfold gather at gathered
    unfold pull
    cases read : reader.read engine with
    | mk brought rest =>
      rw [read] at gathered
      cases brought with
      | error failure => cases gathered
      | ok entry =>
        cases entry with
        | none =>
          simp only at gathered ⊢
          split at gathered <;> cases gathered
          rename_i sound
          exact ⟨(List.append_nil _).symm, fun _ => sound⟩
        | some entry =>
          simp only at gathered ⊢
          split at gathered
          · rename_i larger
            cases gathered
            rw [if_pos larger, List.reverse_cons]
            exact ⟨rfl, fun done => absurd done Bool.false_ne_true⟩
          · rename_i more
            obtain ⟨held, sound⟩ := ih gathered
            rw [if_neg more, held]
            exact ⟨by simp, sound⟩

private theorem brokenOff?_of_rounds {marks : List Nat} {round : Round} {page : Page}
    (ends : (reader.rounds marks engine).1.getLast? = some round) (delivered : round.result = .ok page)
    (done : page.done = true) :
    let run := reader.rounds marks engine
    run.2.1.brokenOff? run.2.2 = none := by
  induction marks generalizing reader engine with
  | nil => cases ends
  | cons highWaterMark marks ih =>
    cases marks with
    | nil =>
      cases paged : reader.page highWaterMark engine with
      | mk result rest =>
        simp only [rounds, paged, List.getLast?_singleton, Option.some.injEq] at ends ⊢
        subst ends
        have delivered : result = .ok page := delivered
        subst delivered
        exact (page_of_gather paged).2 done
    | cons _ _ => exact ih ends

end Pages

variable {sequence : Sequence} {pairs : List (Bytes × Bytes)}

/-- A reader that draws on a stock and has an orderly outlook on it, unless its iterator has lost its
place. -/
structure Tracks (reader : Reader ι) (stock : Stock σ sequence pairs) (engine : σ) : Prop where
  draws : reader.Draws stock engine
  orderly : reader.Strays stock engine ∨ (reader.outlook pairs engine).Orderly

/-- What a call that reads entries does: it takes them off what is left to deliver, unless the iterator
loses its place, and then it does not find it again. -/
structure Takes (stock : Stock σ sequence pairs) (pulled : List Entry) (reader : Reader ι) (engine : σ)
    (next : Reader ι) (after : σ) : Prop where
  tracks : next.Tracks stock after
  strays : reader.Strays stock engine → next.Strays stock after
  left : next.Strays stock after ∨
    (reader.outlook pairs engine).remaining = pulled ++ (next.outlook pairs after).remaining

variable {stock : Stock σ sequence pairs} {reader next last : Reader ι} {engine after final : σ}
  {highWaterMark : Nat} {result : Except Failure Page}

theorem Tracks.takes (tracks : reader.Tracks stock engine) :
    Takes stock [] reader engine reader engine := ⟨tracks, id, .inr rfl⟩

/-- Calls in turn take what each of them takes. -/
theorem Takes.trans {pulled more : List Entry} (first : Takes stock pulled reader engine next after)
    (second : Takes stock more next after last final) :
    Takes stock (pulled ++ more) reader engine last final := by
  refine ⟨second.tracks, second.strays ∘ first.strays, ?_⟩
  rcases first.left with lost | taken
  · exact .inl (second.strays lost)
  · refine second.left.imp_right fun onward => ?_
    rw [taken, onward, List.append_assoc]

private theorem Takes.spent {pulled : List Entry} (takes : Takes stock pulled reader engine next after)
    (spent : reader.Strays stock engine ∨ (reader.outlook pairs engine).remaining = []) :
    next.Strays stock after ∨ (next.outlook pairs after).remaining = [] := by
  rcases spent with lost | none
  · exact .inl (takes.strays lost)
  · refine takes.left.imp_right fun taken => ?_
    rw [none] at taken
    exact (List.append_eq_nil_iff.mp taken.symm).2

/-- A read takes the entry that it brings. If it brings none, none is left. -/
theorem Tracks.read {result : Except Failure (Option Entry)} (tracks : reader.Tracks stock engine)
    (read : reader.read engine = (result, next, after)) :
    Takes stock
        (match result with
        | .error _ | .ok none => []
        | .ok (some entry) => [entry])
        reader engine next after ∧
      (result = .ok none → next.Strays stock after ∨ (next.outlook pairs after).remaining = []) := by
  obtain ⟨draws, kept, taken⟩ := tracks.draws.read read
  rcases tracks.orderly with lost | orderly
  · exact ⟨⟨⟨draws, .inl (kept lost)⟩, kept, .inl (kept lost)⟩, fun _ => .inl (kept lost)⟩
  rcases taken with lost | taken
  · exact ⟨⟨⟨draws, .inl lost⟩, kept, .inl lost⟩, fun _ => .inl lost⟩
  cases result with
  | error failure =>
    have same : next.outlook pairs after = reader.outlook pairs engine := taken
    rw [← same] at orderly
    exact ⟨⟨⟨draws, .inr orderly⟩, kept, .inr (by rw [same]; rfl)⟩, fun impossible => nomatch impossible⟩
  | ok entry =>
    have taken : (reader.outlook pairs engine).read = (entry, next.outlook pairs after) := taken
    obtain ⟨onward, left⟩ := orderly.read taken
    cases entry with
    | some entry =>
      exact ⟨⟨⟨draws, .inr onward⟩, kept, .inr left⟩, fun impossible => nomatch impossible⟩
    | none =>
      refine ⟨⟨⟨draws, .inr onward⟩, kept, .inr left⟩, fun _ => .inr ?_⟩
      rw [← Outlook.remaining_of_read_none taken, left]
      rfl

theorem Tracks.gather {fuel size : Nat} {entries : List Entry} (tracks : reader.Tracks stock engine)
    (gathered : reader.gather highWaterMark fuel size entries engine = (result, next, after)) :
    Takes stock (reader.pull highWaterMark fuel size engine) reader engine next after ∧
      ∀ page, result = .ok page → page.done = true →
        next.Strays stock after ∨ (next.outlook pairs after).remaining = [] := by
  induction fuel generalizing reader engine size entries with
  | zero =>
    cases gathered
    refine ⟨tracks.takes, ?_⟩
    rintro page ⟨⟩ done
    cases done
  | succ fuel ih =>
    unfold Reader.gather at gathered
    unfold pull
    cases read : reader.read engine with
    | mk brought rest =>
      obtain ⟨between, during⟩ := rest
      obtain ⟨takes, spent⟩ := tracks.read read
      rw [read] at gathered
      cases brought with
      | error failure =>
        cases gathered
        refine ⟨takes, ?_⟩
        rintro page ⟨⟩
      | ok entry =>
        cases entry with
        | none =>
          simp only at gathered
          split at gathered <;> cases gathered
          · refine ⟨takes, ?_⟩
            rintro page ⟨⟩
          · exact ⟨takes, fun _ _ _ => spent rfl⟩
        | some entry =>
          simp only at gathered ⊢
          have marked : Takes stock [entry] reader engine { between with landed := true } during :=
            ⟨⟨takes.tracks.draws.remark true between.target, takes.tracks.orderly⟩, takes.strays,
              takes.left⟩
          split at gathered
          · rename_i larger
            cases gathered
            rw [if_pos larger]
            refine ⟨marked, ?_⟩
            rintro page ⟨⟩ done
            cases done
          · rename_i more
            obtain ⟨onward, ends⟩ := ih marked.tracks gathered
            rw [if_neg more]
            exact ⟨marked.trans onward, ends⟩

/-- A reader takes what its pages read, whatever comes of them. Once a page is done, none is left. -/
theorem Tracks.rounds (marks : List Nat) (tracks : reader.Tracks stock engine) :
    let run := reader.rounds marks engine
    Takes stock (run.1.flatMap Round.pulled) reader engine run.2.1 run.2.2 ∧
      ∀ round ∈ run.1, ∀ page, round.result = .ok page → page.entries = round.pulled ∧
        (page.done = true → run.2.1.Strays stock run.2.2 ∨
          (run.2.1.outlook pairs run.2.2).remaining = []) := by
  induction marks generalizing reader engine with
  | nil => exact ⟨tracks.takes, fun _ member => nomatch member⟩
  | cons highWaterMark marks ih =>
    cases paged : reader.page highWaterMark engine with
    | mk result rest =>
      obtain ⟨next, after⟩ := rest
      obtain ⟨takes, ends⟩ := tracks.gather paged
      obtain ⟨onward, later⟩ := ih takes.tracks
      simp only [Reader.rounds, paged, List.flatMap_cons]
      refine ⟨takes.trans onward, ?_⟩
      intro round member page delivered
      rcases List.mem_cons.mp member with rfl | member
      · have delivered : result = .ok page := delivered
        subst delivered
        exact ⟨(page_of_gather paged).1, fun done => onward.spent (ends page rfl done)⟩
      · exact later round member page delivered

section Scans

variable {options : ScanOptions} {window : Window} (fillCache : Bool) (marks : List Nat) {engine : σ}
  {stock : Stock σ (Engine.acquire engine).1 pairs}

private theorem rounds_of_new (serves : stock.Serves (Engine.acquire engine).2)
    (accepted : Window.ofOptions options = .ok window) (few : pairs.length < 2 ^ 64) :
    let created : Reader ι × σ := Reader.new window fillCache engine
    let run := created.1.rounds marks created.2
    run.2.1.Draws stock run.2.2 ∧
      (run.2.1.Strays stock run.2.2 ∨ options.selection pairs =
        run.1.flatMap Round.pulled ++ (run.2.1.outlook pairs run.2.2).remaining) ∧
      ∀ round ∈ run.1, ∀ page, round.result = .ok page → page.entries = round.pulled ∧
        (page.done = true → run.2.1.Strays stock run.2.2 ∨
          (run.2.1.outlook pairs run.2.2).remaining = []) := by
  intro created run
  have tracks : created.1.Tracks stock created.2 :=
    ⟨new_draws serves, .inr (Outlook.start_orderly stock.ascending few)⟩
  have whole : (created.1.outlook pairs created.2).remaining = options.selection pairs :=
    Outlook.yields_start accepted stock.ascending few
  obtain ⟨takes, pages⟩ := tracks.rounds marks
  exact ⟨takes.tracks.draws, whole ▸ takes.left, pages⟩

/-- However the calls of an engine fail, a scan delivers its selection in order and no entry twice: what
its pages read is an initial part of the selection, a page that does not fail holds what it has read, and
once a page is done the whole selection was read. So only what a failed page had read is missing. -/
theorem rounds_in_order (faithful : stock.Faithful) (serves : stock.Serves (Engine.acquire engine).2)
    (accepted : Window.ofOptions options = .ok window) (few : pairs.length < 2 ^ 64) :
    let created : Reader ι × σ := Reader.new window fillCache engine
    let rounds := (created.1.rounds marks created.2).1
    (rounds.flatMap Round.delivered).Sublist (options.selection pairs) ∧
      rounds.flatMap Round.pulled <+: options.selection pairs ∧
      ∀ round ∈ rounds, ∀ page, round.result = .ok page → page.entries = round.pulled ∧
        (page.done = true → rounds.flatMap Round.pulled = options.selection pairs) := by
  intro created rounds
  obtain ⟨draws, taken, pages⟩ := rounds_of_new (ι := ι) fillCache marks serves accepted few
  have found := draws.not_strays faithful
  have whole := taken.resolve_left found
  have initial : rounds.flatMap Round.pulled <+: options.selection pairs := ⟨_, whole.symm⟩
  refine ⟨?_, initial, ?_⟩
  · refine List.Sublist.trans (List.Sublist.flatMap_right _ ?_) initial.sublist
    intro round member
    unfold Round.delivered
    split
    · rename_i page delivered
      exact (pages round member page delivered).1 ▸ List.Sublist.refl _
    · exact List.nil_sublist _
  · intro round member page delivered
    obtain ⟨same, ends⟩ := pages round member page delivered
    refine ⟨same, fun done => ?_⟩
    rw [(ends done).resolve_left found, List.append_nil] at whole
    exact whole.symm

/-- The first page fails as the iterator is opened, the third one after it has read an entry. -/
theorem rounds_in_order_amid_failures :
    let unreadable : Report := ⟨.ioError, some "unreadable"⟩
    let script : Script :=
      { entries := #[([97], [1]), ([98], [2]), ([99], [3]), ([100], [4])]
        failingCalls := [(0, unreadable), (3, unreadable)] }
    let options : ScanOptions := { keys := false }
    let a : Entry := ⟨none, some [1]⟩
    let b : Entry := ⟨none, some [2]⟩
    let c : Entry := ⟨none, some [3]⟩
    let d : Entry := ⟨none, some [4]⟩
    ∃ window, Window.ofOptions options = .ok window ∧
      let created : Reader ScriptedIterator × ScriptedEngine :=
        Reader.new window false (ScriptedEngine.start script)
      let rounds := (created.1.rounds [0, 0, 5, 5] created.2).1
      rounds.map Round.pulled = [[], [a], [b], [c, d]] ∧
        rounds.flatMap Round.delivered = [a, c, d] ∧
        (rounds.flatMap Round.delivered).Sublist (options.selection script.entries.toList) ∧
        rounds.flatMap Round.pulled <+: options.selection script.entries.toList := by
  intro unreadable script options a b c d
  have ascending : Ascending script.entries.toList := by
    unfold Ascending
    decide
  let stock := ScriptedEngine.stock script 0 ascending rfl
  have accepted : Window.ofOptions options = .ok ⟨.forward, none, none, none, none, -1, false, true⟩ := by
    rfl
  have serves : stock.Serves (Engine.acquire (ScriptedEngine.start script)).2 := rfl
  obtain ⟨delivered, pulled, -⟩ := rounds_in_order (ι := ScriptedIterator) false [0, 0, 5, 5]
    (ScriptedEngine.stock_faithful rfl) serves accepted (by decide)
  exact ⟨_, accepted, by decide, by decide, delivered, pulled⟩

/-- However iterators lose their places, if they record it, a scan that ends with a page that is done has
not lost its place; if no page before has failed either, the pages hold the whole selection. -/
theorem rounds_complete (recorded : stock.Recorded) (serves : stock.Serves (Engine.acquire engine).2)
    (accepted : Window.ofOptions options = .ok window) (few : pairs.length < 2 ^ 64) :
    let created : Reader ι × σ := Reader.new window fillCache engine
    let run := created.1.rounds marks created.2
    (∃ round page, run.1.getLast? = some round ∧ round.result = .ok page ∧ page.done = true) →
      ¬ run.2.1.Strays stock run.2.2 ∧
        ((∀ round ∈ run.1, ∃ page, round.result = .ok page) →
          run.1.flatMap Round.delivered = options.selection pairs) := by
  intro created run ⟨round, page, ends, delivered, done⟩
  obtain ⟨draws, taken, pages⟩ := rounds_of_new (ι := ι) fillCache marks serves accepted few
  have found := draws.not_strays_of_recorded recorded (brokenOff?_of_rounds ends delivered done)
  refine ⟨found, fun succeeded => ?_⟩
  have none := ((pages round (List.mem_of_getLast? ends) page delivered).2 done).resolve_left found
  have whole := taken.resolve_left found
  rw [none, List.append_nil] at whole
  rw [whole]
  refine List.flatMap_congr ?_
  intro round member
  obtain ⟨page, delivered⟩ := succeeded round member
  rw [Round.delivered, delivered]
  exact (pages round member page delivered).1

/-- The last entry cannot be read, but the limit is met before it. -/
theorem rounds_complete_before_bad_place :
    let corrupt : Report := ⟨.corruption, some "bad block"⟩
    let script : Script :=
      { entries := #[([97], [1]), ([98], [2]), ([99], [3]), ([100], [4])]
        good := some 3, failure := some corrupt }
    let options : ScanOptions := { limit := 2 }
    ∃ window, Window.ofOptions options = .ok window ∧
      let created : Reader ScriptedIterator × ScriptedEngine :=
        Reader.new window false (ScriptedEngine.start script)
      let run := created.1.rounds [0, 5] created.2
      (∃ round page, run.1.getLast? = some round ∧ round.result = .ok page ∧ page.done = true) ∧
        run.1.flatMap Round.delivered = options.selection script.entries.toList := by
  intro corrupt script options
  have ascending : Ascending script.entries.toList := by
    unfold Ascending
    decide
  let stock := ScriptedEngine.stock script 0 ascending rfl
  have accepted : Window.ofOptions options = .ok ⟨.forward, none, none, none, none, 2, true, true⟩ := by
    rfl
  have serves : stock.Serves (Engine.acquire (ScriptedEngine.start script)).2 := rfl
  refine ⟨_, accepted, ?_⟩
  intro created run
  have ends : ∃ round page, run.1.getLast? = some round ∧ round.result = .ok page ∧
      page.done = true := ⟨_, _, rfl, rfl, rfl⟩
  have succeeded : ∀ round ∈ run.1, ∃ page, round.result = .ok page := by
    have loaded : ∀ round ∈ run.1, round.result.toBool = true := by decide
    intro round member
    cases result : round.result with
    | ok page => exact ⟨page, rfl⟩
    | error failure => simpa [result, Except.toBool] using loaded round member
  exact ⟨ends, (rounds_complete (ι := ScriptedIterator) false [0, 5]
    (ScriptedEngine.stock_recorded rfl (by decide)) serves accepted (by decide) ends).2 succeeded⟩

end Scans

end Reader
end KeyScan
