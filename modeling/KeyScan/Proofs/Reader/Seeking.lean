import KeyScan.Proofs.Reader.Remaining

namespace KeyScan

inductive ReaderCall where
  | read
  | seek (target : Bytes)
  deriving DecidableEq

/-- The entries that are left to deliver after a seek, when some keys have been counted. -/
def ScanOptions.resumption (options : ScanOptions) (window : Window) (count : Nat) (target : Bytes)
    (pairs : List (Bytes × Bytes)) : List Entry :=
  if window.outOfRange target then []
  else
    options.present count (pairs.filter fun pair =>
      (if options.reverse then decide (pair.1 ≤ target) else decide (target ≤ pair.1)) &&
        window.contains pair.1)

theorem Window.test_count_le (window : Window) (key : Bytes) (count : UInt64) :
    (window.test key count).2.toNat ≤ count.toNat + 1 := by
  unfold Window.test
  split
  · rw [UInt64.toNat_add, UInt64.toNat_one]
    exact Nat.mod_le _ _
  · exact Nat.le_succ _

namespace Outlook

private theorem read_count_le (outlook : Outlook) :
    outlook.read.2.count.toNat ≤ outlook.count.toNat + 1 := by
  unfold Outlook.read
  split
  · exact Nat.le_succ _
  · exact outlook.window.test_count_le _ _

theorem read_fixed (outlook : Outlook) :
    outlook.read.2.window = outlook.window ∧ outlook.read.2.pairs = outlook.pairs := by
  unfold Outlook.read
  split <;> exact ⟨rfl, rfl⟩

/-- Once a key has left the window, none of those ahead is back in it. -/
def Ordered (window : Window) (ahead : List (Bytes × Bytes)) : Prop :=
  ahead.Pairwise fun a b => window.contains b.1 = true → window.contains a.1 = true

theorem start_ordered {window : Window} {pairs : List (Bytes × Bytes)} (ascending : Ascending pairs) :
    Ordered window (start window pairs).ahead :=
  Window.contains_pairwise (Direction.ahead_pairwise ascending _)
    fun _ member => Window.near_of_reached (Direction.mem_ahead.mp member).2

theorem seek_ordered (outlook : Outlook) (ascending : Ascending outlook.pairs) (target : Bytes) :
    Ordered outlook.window (outlook.seek target).2.ahead := by
  simp only [seek]
  split
  · exact List.Pairwise.nil
  · rename_i inside
    rw [Bool.not_eq_true] at inside
    refine Window.contains_pairwise (Direction.ahead_pairwise ascending _) fun _ member => ?_
    exact Window.near_of_outOfRange inside (by simpa using (Direction.mem_ahead.mp member).2)

end Outlook

namespace Reader

def afterCalls {σ ι : Type} [Engine σ ι] : List ReaderCall → Reader ι → σ → Reader ι × σ
  | [], reader, engine => (reader, engine)
  | .read :: calls, reader, engine =>
    let (_, reader, engine) := reader.read engine
    afterCalls calls reader engine
  | .seek target :: calls, reader, engine =>
    let (_, reader, engine) := reader.seek target engine
    afterCalls calls reader engine

variable {reader : Reader TableWalker} {sequence : Sequence} {outlook : Outlook}
  {engine : MemoryEngine}

theorem new_live (window : Window) (fillCache : Bool) (engine : MemoryEngine) :
    (Reader.new window fillCache engine).2.table.live engine.sequence =
      (Outlook.start window engine.live).pairs := rfl

/-- Calls leave a reader with another outlook on the same pairs, and count no more keys than there
were calls. -/
theorem afterCalls_sees (calls : List ReaderCall) (sees : reader.Sees sequence outlook)
    (live : engine.table.live sequence = outlook.pairs) :
    ∃ next later, reader.afterCalls calls engine = (next, engine) ∧ next.Sees sequence later ∧
      later.window = outlook.window ∧ later.pairs = outlook.pairs ∧
      later.count.toNat ≤ outlook.count.toNat + calls.length := by
  induction calls generalizing reader outlook with
  | nil => exact ⟨reader, outlook, rfl, sees, rfl, rfl, Nat.le_refl _⟩
  | cons call calls ih =>
    cases call with
    | read =>
      obtain ⟨following, read, sight⟩ := read_sees sees live
      obtain ⟨window, pairs⟩ := outlook.read_fixed
      have counted := outlook.read_count_le
      obtain ⟨next, later, run, seen, sameWindow, samePairs, count⟩ := ih sight (live.trans pairs.symm)
      refine ⟨next, later, ?_, seen, sameWindow.trans window, samePairs.trans pairs, ?_⟩
      · simp only [afterCalls, read, run]
      · rw [List.length_cons]
        omega
    | seek target =>
      obtain ⟨following, sought, sight⟩ := seek_sees sees live target
      obtain ⟨next, later, run, seen, window, pairs, count⟩ := ih sight live
      refine ⟨next, later, ?_, seen, window, pairs, Nat.le_succ_of_le count⟩
      simp only [afterCalls, sought, run]

/-- What is left to deliver right after a seek. -/
theorem yields_seek {options : ScanOptions} (accepted : Window.ofOptions options = .ok outlook.window)
    (ascending : Ascending outlook.pairs) (small : options.limit < 2 ^ 63)
    (space : outlook.count.toNat + 1 < 2 ^ 64) (target : Bytes) :
    Outlook.yields outlook.window (outlook.seek target).2.ahead outlook.count =
      options.resumption outlook.window outlook.count.toNat target outlook.pairs := by
  obtain ⟨-, -, direction, -, -, limit, -, -⟩ := Window.ofOptions_eq_ok accepted
  simp only [Outlook.seek, ScanOptions.resumption]
  split
  · rfl
  · rename_i inside
    rw [Bool.not_eq_true] at inside
    rw [Direction.since, Outlook.yields_eq_present accepted ascending (.inr ⟨limit ▸ small, space⟩)
      fun key since => Window.near_of_outOfRange inside (by simpa using since)]
    refine congrArg (options.present outlook.count.toNat) (List.filter_congr ?_)
    intro pair _
    rw [direction]
    cases options.reverse <;> simp [Direction.ofReverse, Direction.before, ← List.not_lt]

/-- Seeking and then reading until nothing comes delivers what is left beyond the target. -/
theorem seek_delivers_of_sees {options : ScanOptions} (sees : reader.Sees sequence outlook)
    (live : engine.table.live sequence = outlook.pairs)
    (accepted : Window.ofOptions options = .ok outlook.window) (small : options.limit < 2 ^ 63)
    (space : outlook.count.toNat + 1 < 2 ^ 64) (target : Bytes) :
    ∃ parked next after, reader.seek target engine = (.ok parked, next, after) ∧
      next.Delivers after
        (options.resumption outlook.window outlook.count.toNat target outlook.pairs) := by
  obtain ⟨next, sought, sight⟩ := seek_sees sees live target
  refine ⟨_, next, engine, sought, ?_⟩
  rw [← yields_seek accepted sees.ascending small space target]
  exact delivers_yields sight live

/-- After any calls, a seek to any target succeeds, and reading until nothing comes delivers nothing
if the target lies outside the window, and otherwise exactly the pairs of the window at or beyond the
target, in the order of travel and as far as the limit goes. The counter of tested keys is a 64-bit
word, so fewer calls are assumed than it can count. -/
theorem seek_delivers (writes : List MemoryEngine.Write) (options : ScanOptions) {window : Window}
    (fillCache : Bool) (calls : List ReaderCall) (target : Bytes)
    (bounded : writes.length < 2 ^ 64) (accepted : Window.ofOptions options = .ok window)
    (small : options.limit < 2 ^ 63) (few : calls.length + 1 < 2 ^ 64) :
    let (fresh, opened) := Reader.new window fillCache (MemoryEngine.ofWrites writes)
    let (reader, engine) := fresh.afterCalls calls opened
    ∃ parked next after, reader.seek target engine = (.ok parked, next, after) ∧
      next.Delivers after
        (options.resumption window reader.count.toNat target (MemoryEngine.contents writes)) := by
  have holds := MemoryEngine.holds_ofWrites bounded
  obtain ⟨reader, later, run, sees, same, pairs, count⟩ :=
    afterCalls_sees calls (new_sees window fillCache (MemoryEngine.ofWrites writes))
      (new_live window fillCache _)
  simp only [run]
  have space : later.count.toNat + 1 < 2 ^ 64 :=
    Nat.lt_of_le_of_lt (Nat.succ_le_succ (Nat.le_trans count (Nat.le_of_eq (Nat.zero_add _)))) few
  have left := seek_delivers_of_sees sees (pairs ▸ new_live window fillCache _) (same ▸ accepted)
    small space target
  rwa [same, pairs, ← sees.count, holds.shown] at left

/-- A reader that has delivered one of at most two entries goes back to a target before it. -/
theorem seek_delivers_after_read :
    let writes : List MemoryEngine.Write :=
      [⟨[98], some [1]⟩, ⟨[100], some [2]⟩, ⟨[99], some [3]⟩, ⟨[100], none⟩]
    let options : ScanOptions := { gte := some [97], limit := 2 }
    ∃ window, Window.ofOptions options = .ok window ∧
      let opened := Reader.new window false (MemoryEngine.ofWrites writes)
      let state := opened.1.afterCalls [.read] opened.2
      ∃ parked next after, state.1.seek [98] state.2 = (.ok parked, next, after) ∧
        next.Delivers after [⟨some [98], some [1]⟩] := by
  intro writes options
  have accepted : Window.ofOptions options =
      .ok ⟨.forward, none, none, none, some ⟨[97], true⟩, 2, true, true⟩ := by rfl
  exact ⟨_, accepted, seek_delivers writes options false [.read] [98] (by decide) accepted
    (by decide) (by decide)⟩

end Reader
end KeyScan
