import Mathlib.Algebra.Group.Int.Defs
import Mathlib.Algebra.Group.Nat.Defs
import KeyScan.Proofs.Reader.Sight
import KeyScan.Proofs.Window.Selection

namespace KeyScan

namespace Outlook

/-- The entries that reads of a window deliver from the pairs ahead, up to the first refusal. -/
def yields (window : Window) : List (Bytes × Bytes) → UInt64 → List Entry
  | [], _ => []
  | pair :: rest, count =>
    let (admitted, count) := window.test pair.1 count
    if admitted then Reader.deliver window pair :: yields window rest count else []

/-- The entries that are left to deliver. -/
def remaining (outlook : Outlook) : List Entry :=
  yields outlook.window outlook.ahead outlook.count

/-- A read brings nothing only where nothing is left to deliver. -/
theorem remaining_of_read_none {outlook rest : Outlook} (read : outlook.read = (none, rest)) :
    outlook.remaining = [] := by
  unfold Outlook.read at read
  unfold remaining
  cases ahead : outlook.ahead with
  | nil => rfl
  | cons pair after =>
    cases admitted : (outlook.window.test pair.1 outlook.count).1 with
    | true => simp [ahead, admitted] at read
    | false => simp only [yields, admitted, Bool.false_eq_true, ↓reduceIte]

/-- A read brings the first of the entries that are left, and leaves less ahead. -/
theorem remaining_of_read_some {outlook rest : Outlook} {entry : Entry}
    (read : outlook.read = (some entry, rest)) :
    outlook.remaining = entry :: rest.remaining ∧ rest.ahead.length < outlook.ahead.length := by
  unfold Outlook.read at read
  unfold remaining
  cases ahead : outlook.ahead with
  | nil => simp [ahead] at read
  | cons pair after =>
    cases admitted : (outlook.window.test pair.1 outlook.count).1 with
    | false => simp [ahead, admitted] at read
    | true =>
      simp only [ahead, admitted, ↓reduceIte, Prod.mk.injEq, Option.some.injEq] at read
      obtain ⟨rfl, rfl⟩ := read
      simp only [yields, admitted, ↓reduceIte, List.length_cons, Nat.lt_add_one, and_self]

/-- The pairs that a limit leaves after some tests. -/
def allowed (window : Window) (count : Nat) (pairs : List (Bytes × Bytes)) :
    List (Bytes × Bytes) :=
  if window.limit < 0 then pairs else pairs.take (window.limit - count).toNat

/-- The counter of a reader does not wrap before the next refusal: it is not full, and either the
pairs or the limit will run out before it is. -/
def HasRoom (window : Window) (ahead : List (Bytes × Bytes)) (count : UInt64) : Prop :=
  count.toNat + ahead.length < 2 ^ 64 ∨ (window.limit < 2 ^ 63 ∧ count.toNat + 1 < 2 ^ 64)

variable {window : Window} {pair : Bytes × Bytes} {ahead rest : List (Bytes × Bytes)}
  {count : UInt64}

theorem HasRoom.toNat_succ (room : HasRoom window (pair :: rest) count) :
    (count + 1).toNat = count.toNat + 1 := by
  refine MemoryEngine.toNat_succ ?_
  rcases room with short | ⟨_, space⟩
  · rw [List.length_cons] at short
    omega
  · exact space

theorem test_fst (room : HasRoom window (pair :: rest) count) :
    (window.test pair.1 count).1 =
      (window.contains pair.1 &&
        (decide (window.limit < 0) || decide ((count.toNat : Int) < window.limit))) := by
  unfold Window.test
  split
  · rename_i limited
    simp only [room.toNat_succ]
    rw [Bool.and_comm, decide_eq_false (Int.not_lt.mpr limited), Bool.false_or]
    congr 1
  · rename_i unlimited
    rw [decide_eq_true (Int.not_le.mp unlimited), Bool.true_or, Bool.and_true]

/-- What a limit leaves shrinks by one with every test. -/
theorem allowed_cons (room : HasRoom window (pair :: rest) count)
    (more : window.limit < 0 ∨ (count.toNat : Int) < window.limit) (met : List (Bytes × Bytes)) :
    allowed window count.toNat (pair :: met) =
      pair :: allowed window (window.test pair.1 count).2.toNat met := by
  unfold allowed Window.test
  by_cases unlimited : window.limit < 0
  · rw [if_pos unlimited, if_pos unlimited]
  · have left : (window.limit - count.toNat).toNat =
        (window.limit - (count.toNat + 1 : Nat)).toNat + 1 := by omega
    rw [if_neg unlimited, if_neg unlimited, if_pos (Int.not_lt.mp unlimited), left,
      List.take_succ_cons, room.toNat_succ]

theorem HasRoom.test (room : HasRoom window (pair :: rest) count)
    (admitted : (window.test pair.1 count).1 = true) :
    HasRoom window rest (window.test pair.1 count).2 := by
  rw [test_fst room, Bool.and_eq_true, Bool.or_eq_true, decide_eq_true_eq, decide_eq_true_eq]
    at admitted
  have next := room.toNat_succ
  unfold Window.test
  rcases room with short | ⟨small, space⟩
  · rw [List.length_cons] at short
    refine .inl ?_
    split
    · simp only [next]
      omega
    · simp only
      omega
  · refine .inr ⟨small, ?_⟩
    split
    · simp only [next]
      omega
    · exact space

/-- While the counter has room, reads deliver the pairs up to the first one outside the window, as far
as the limit goes. -/
theorem yields_eq (room : HasRoom window ahead count) :
    yields window ahead count =
      (allowed window count.toNat (ahead.takeWhile fun pair => window.contains pair.1)).map
        (Reader.deliver window) := by
  induction ahead generalizing count with
  | nil => simp [yields, allowed]
  | cons pair rest ih =>
    simp only [yields, List.takeWhile_cons]
    cases admitted : (window.test pair.1 count).1 with
    | true =>
      have tested := admitted
      rw [test_fst room, Bool.and_eq_true, Bool.or_eq_true, decide_eq_true_eq, decide_eq_true_eq]
        at tested
      rw [if_pos rfl, if_pos tested.1, allowed_cons room tested.2, List.map_cons,
        ← ih (room.test admitted)]
    | false =>
      rw [if_neg Bool.false_ne_true]
      rw [test_fst room, Bool.and_eq_false_iff] at admitted
      rcases admitted with outside | exhausted
      · simp [allowed, outside]
      · simp only [Bool.or_eq_false_iff, decide_eq_false_iff_not] at exhausted
        have none : (window.limit - count.toNat).toNat = 0 := by omega
        simp [allowed, exhausted.1, none]

/-- What reads deliver from the pairs ahead, said from the options that the window comes from. -/
theorem yields_eq_present {options : ScanOptions} {pairs : List (Bytes × Bytes)}
    {p : Bytes → Bool} (accepted : Window.ofOptions options = .ok window)
    (ascending : Ascending pairs) (room : HasRoom window (window.direction.ahead pairs p) count)
    (past : ∀ key, p key = true → window.near.all (·.isReached window.direction key) = true) :
    yields window (window.direction.ahead pairs p) count =
      options.present count.toNat (pairs.filter fun pair => p pair.1 && window.contains pair.1) := by
  obtain ⟨-, -, direction, -, -, limit, keys, values⟩ := Window.ofOptions_eq_ok accepted
  have met := Window.takeWhile_contains (Direction.ahead_pairwise ascending p)
    fun pair member => past pair.1 (Direction.mem_ahead.mp member).2
  have chosen : (window.direction.ahead pairs p).filter (fun pair => window.contains pair.1) =
      if options.reverse then (pairs.filter fun pair => p pair.1 && window.contains pair.1).reverse
      else pairs.filter fun pair => p pair.1 && window.contains pair.1 := by
    rw [Direction.ahead, ← Direction.arrange_filter, ← Direction.arrange_filter,
      List.filter_filter, direction]
    simp only [Bool.and_comm]
    cases options.reverse <;> rfl
  rw [yields_eq room, met, chosen]
  unfold allowed ScanOptions.present
  rw [limit]
  refine List.map_congr_left ?_
  intro pair _
  simp only [Reader.deliver, keys, values]

/-- What an outlook at the start of a window delivers is what the options of the window select. -/
theorem yields_start {options : ScanOptions} {pairs : List (Bytes × Bytes)}
    (accepted : Window.ofOptions options = .ok window)
    (ascending : Ascending pairs) (few : pairs.length < 2 ^ 64) :
    yields window (start window pairs).ahead 0 = options.selection pairs := by
  have bound : (window.direction.ahead pairs window.reached).length ≤ pairs.length :=
    Direction.length_ahead_le _
  have room : HasRoom window (window.direction.ahead pairs window.reached) 0 := by
    refine .inl ?_
    rw [UInt64.toNat_zero]
    omega
  rw [start, yields_eq_present accepted ascending room fun key => Window.near_of_reached]
  refine congrArg (options.present 0) (List.filter_congr ?_)
  intro pair _
  exact Window.reached_and_contains accepted pair.1

end Outlook

namespace Reader

variable {σ ι : Type} [Engine σ ι]

/-- Reading until nothing comes delivers exactly these entries. -/
inductive Delivers : Reader ι → σ → List Entry → Prop where
  | nothing {reader next : Reader ι} {engine after : σ}
      (read : reader.read engine = (.ok none, next, after)) : Delivers reader engine []
  | more {reader next : Reader ι} {engine after : σ} {entry : Entry} {entries : List Entry}
      (read : reader.read engine = (.ok (some entry), next, after))
      (rest : Delivers next after entries) : Delivers reader engine (entry :: entries)

variable {reader : Reader ι} {engine : σ}

theorem Delivers.unique {first second : List Entry} (delivers : reader.Delivers engine first)
    (also : reader.Delivers engine second) : first = second := by
  induction delivers generalizing second with
  | nothing read =>
    cases also with
    | nothing _ => rfl
    | more other _ => cases read.symm.trans other
  | more read _ ih =>
    cases also with
    | nothing other => cases read.symm.trans other
    | more other rest =>
      cases read.symm.trans other
      rw [ih rest]

/-- Where no call fails, reads deliver what lies ahead. -/
theorem Draws.delivers {sequence : Sequence} {pairs : List (Bytes × Bytes)}
    {stock : Stock σ sequence pairs} {Works : σ → Prop} (draws : reader.Draws stock engine)
    (faithful : stock.Faithful) (steady : Engine.Steady Works) (works : Works engine) :
    reader.Delivers engine (reader.outlook pairs engine).remaining := by
  generalize bound : (reader.outlook pairs engine).ahead.length = size
  induction size using Nat.strongRecOn generalizing reader engine with
  | ind size ih =>
    obtain ⟨entry, next, after, read, working⟩ := draws.read_works steady works
    obtain ⟨drawn, -, strays | taken⟩ := draws.read read
    · exact absurd strays (drawn.not_strays faithful)
    · have taken : (reader.outlook pairs engine).read = (entry, next.outlook pairs after) := taken
      cases entry with
      | none =>
        rw [Outlook.remaining_of_read_none taken]
        exact .nothing read
      | some entry =>
        obtain ⟨left, shorter⟩ := Outlook.remaining_of_read_some taken
        rw [left]
        exact .more read (ih _ (bound ▸ shorter) drawn working rfl)

theorem delivers_yields {reader : Reader TableWalker} {sequence : Sequence} {outlook : Outlook}
    {engine : MemoryEngine} (sees : reader.Sees sequence outlook)
    (live : engine.table.live sequence = outlook.pairs) :
    reader.Delivers engine (Outlook.yields outlook.window outlook.ahead outlook.count) := by
  have delivers := (sees.draws engine).delivers (engine.stock_faithful sequence) engine.steady rfl
  rwa [live, sees.outlook_eq] at delivers

end Reader
end KeyScan
