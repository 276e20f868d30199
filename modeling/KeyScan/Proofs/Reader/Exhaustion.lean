import KeyScan.Proofs.Reader.Cutting

/-! Exhaustion lasts. A reader of the engine in memory keeps no note that its window is exhausted; it steps
on and tests the next key each time. But what refuses one key refuses every later one, so that nothing comes
any more until the reader is turned to a target. -/
namespace KeyScan

namespace Outlook

/-- The counter does not wrap while the pairs ahead are tested, if it counts them. -/
def Countable (window : Window) (ahead : List (Bytes × Bytes)) (count : UInt64) : Prop :=
  0 ≤ window.limit → count.toNat + ahead.length < 2 ^ 64

/-- Nothing ahead will be delivered: every key there has left the window, or the limit is met. -/
def Spent (window : Window) (ahead : List (Bytes × Bytes)) (count : UInt64) : Prop :=
  (∀ pair ∈ ahead, window.contains pair.1 = false) ∨
    (0 ≤ window.limit ∧ window.limit ≤ count.toNat ∧ Countable window ahead count)

variable {window : Window} {pair : Bytes × Bytes} {ahead rest : List (Bytes × Bytes)} {count : UInt64}
  {highWaterMark size : Nat} {entries : List Entry}

theorem Countable.test (countable : Countable window (pair :: rest) count) :
    Countable window rest (window.test pair.1 count).2 := by
  intro limited
  have room := countable limited
  have counted := window.test_count_le pair.1 count
  rw [List.length_cons] at room
  omega

/-- Under a limit a test moves the counter on by one. -/
theorem Countable.toNat_test (countable : Countable window (pair :: rest) count)
    (limited : 0 ≤ window.limit) : (window.test pair.1 count).2.toNat = count.toNat + 1 := by
  have room := countable limited
  rw [List.length_cons] at room
  rw [Window.test_count, if_pos limited]
  exact MemoryEngine.toNat_succ (by omega)

/-- What refuses a key refuses all that are ahead of it. -/
theorem spent_of_refused (ordered : Ordered window (pair :: rest))
    (countable : Countable window (pair :: rest) count)
    (refused : (window.test pair.1 count).1 = false) :
    Spent window rest (window.test pair.1 count).2 := by
  by_cases inside : window.contains pair.1 = true
  · by_cases limited : 0 ≤ window.limit
    · have counted := countable.toNat_test limited
      refine .inr ⟨limited, ?_, countable.test⟩
      by_contra within
      refine Bool.eq_false_iff.mp refused ((Window.test_of_limited limited).mpr ⟨?_, inside⟩)
      rw [Window.test_count, if_pos limited] at counted within
      omega
    · rw [Window.test, if_neg limited] at refused
      exact absurd inside (Bool.eq_false_iff.mp refused)
  · refine .inl fun later member => Bool.eq_false_iff.mpr fun within => ?_
    exact inside (List.rel_of_pairwise_cons ordered member within)

theorem Spent.test (spent : Spent window (pair :: rest) count) :
    (window.test pair.1 count).1 = false ∧ Spent window rest (window.test pair.1 count).2 := by
  rcases spent with outside | ⟨limited, met, countable⟩
  · refine ⟨Bool.eq_false_iff.mpr fun admitted => ?_, .inl fun later member =>
      outside later (List.mem_cons_of_mem pair member)⟩
    exact Bool.eq_false_iff.mp (outside pair List.mem_cons_self) (Window.contains_of_test admitted)
  · have counted := countable.toNat_test limited
    refine ⟨Bool.eq_false_iff.mpr fun admitted => ?_, .inr ⟨limited, by omega, countable.test⟩⟩
    have within := ((Window.test_of_limited limited).mp admitted).1
    rw [Window.test_count, if_pos limited] at counted
    omega

private theorem read_ordered {outlook : Outlook} (ordered : Ordered outlook.window outlook.ahead) :
    Ordered outlook.read.2.window outlook.read.2.ahead := by
  unfold read
  split
  · exact ordered
  · rename_i ahead
    rw [ahead] at ordered
    exact ordered.of_cons

theorem spent_of_read {outlook : Outlook} (ordered : Ordered outlook.window outlook.ahead)
    (countable : Countable outlook.window outlook.ahead outlook.count) (none : outlook.read.1 = none) :
    Spent outlook.read.2.window outlook.read.2.ahead outlook.read.2.count := by
  unfold read at none ⊢
  split
  · rename_i nothing
    rw [nothing]
    exact .inl fun _ member => nomatch member
  · rename_i ahead
    rw [ahead] at ordered countable none
    refine spent_of_refused ordered countable ?_
    simpa using none

theorem Spent.read {outlook : Outlook} (spent : Spent outlook.window outlook.ahead outlook.count) :
    outlook.read.1 = none ∧
      Spent outlook.read.2.window outlook.read.2.ahead outlook.read.2.count := by
  unfold Outlook.read
  split
  · exact ⟨rfl, spent⟩
  · rename_i ahead
    rw [ahead] at spent
    obtain ⟨refused, onward⟩ := spent.test
    exact ⟨by simp [refused], onward⟩

private theorem fill_ordered (ordered : Ordered window ahead) :
    Ordered window (fill window highWaterMark size entries ahead count).2.1 := by
  induction ahead generalizing size entries count with
  | nil => exact ordered
  | cons pair rest ih =>
    simp only [fill]
    split
    · split
      · exact ordered.of_cons
      · exact ih ordered.of_cons
    · exact ordered.of_cons

theorem spent_of_fill (ordered : Ordered window ahead) (countable : Countable window ahead count)
    (done : (fill window highWaterMark size entries ahead count).1.done = true) :
    let filled := fill window highWaterMark size entries ahead count
    Spent window filled.2.1 filled.2.2 := by
  induction ahead generalizing size entries count with
  | nil => exact .inl fun _ member => nomatch member
  | cons pair rest ih =>
    simp only [fill] at done ⊢
    split at done
    · rename_i admitted
      rw [if_pos admitted]
      split at done
      · cases done
      · rename_i more
        rw [if_neg more]
        exact ih ordered.of_cons countable.test done
    · rename_i refused
      rw [if_neg refused]
      exact spent_of_refused ordered countable (Bool.eq_false_iff.mpr refused)

theorem Spent.fill (spent : Spent window ahead count) :
    let filled := fill window highWaterMark size entries ahead count
    filled.1 = ⟨entries.reverse, true⟩ ∧ Spent window filled.2.1 filled.2.2 := by
  cases ahead with
  | nil => exact ⟨rfl, spent⟩
  | cons pair rest =>
    obtain ⟨refused, onward⟩ := spent.test
    simp only [Outlook.fill, refused, Bool.false_eq_true, ↓reduceIte]
    exact ⟨trivial, onward⟩

end Outlook

namespace Reader

open Outlook

def Use.isSeek (use : Use) : Bool := use matches .seek _

/-- A use that shows the window to be exhausted: a read that brings nothing or a page that is done. -/
def Use.Exhausts (use : Use) (reader : Reader TableWalker) (engine : MemoryEngine) : Prop :=
  match use with
  | .read => (reader.read engine).1 = .ok none
  | .page highWaterMark => ∃ entries, (reader.page highWaterMark engine).1 = .ok ⟨entries, true⟩
  | .seek _ | .write _ => False

variable {reader : Reader TableWalker} {sequence : Sequence} {outlook : Outlook}
  {engine : MemoryEngine}

private theorem Use.leaves_ordered (now : Use) (ascending : Ascending outlook.pairs)
    (ordered : Ordered outlook.window outlook.ahead) :
    Ordered (now.leaves outlook).window (now.leaves outlook).ahead := by
  cases now with
  | read => exact read_ordered ordered
  | page highWaterMark => exact fill_ordered ordered
  | seek target => exact seek_ordered outlook ascending target
  | write write => exact ordered

private theorem Use.leaves_spent {now : Use} (onward : now.isSeek = false)
    (spent : Spent outlook.window outlook.ahead outlook.count) :
    Spent (now.leaves outlook).window (now.leaves outlook).ahead (now.leaves outlook).count := by
  cases now with
  | read => exact spent.read.2
  | page highWaterMark => exact spent.fill.2
  | seek target => cases onward
  | write write => exact spent

private theorem outlookAfter_ordered (uses : List Use) (ascending : Ascending outlook.pairs)
    (ordered : Ordered outlook.window outlook.ahead) :
    Ordered (outlookAfter uses outlook).window (outlookAfter uses outlook).ahead := by
  induction uses generalizing outlook with
  | nil => exact ordered
  | cons now later ih =>
    exact ih ((now.leaves_fixed outlook).2 ▸ ascending) (now.leaves_ordered ascending ordered)

private theorem outlookAfter_spent {uses : List Use} (onward : ∀ now ∈ uses, now.isSeek = false)
    (spent : Spent outlook.window outlook.ahead outlook.count) :
    let left := outlookAfter uses outlook
    Spent left.window left.ahead left.count := by
  induction uses generalizing outlook with
  | nil => exact spent
  | cons now later ih =>
    obtain ⟨settled, rest⟩ := List.forall_mem_cons.mp onward
    exact ih rest (Use.leaves_spent settled spent)

/-- Once the window is shown to be exhausted, nothing is left to deliver. -/
theorem Sees.spent_of_exhausts {last : Use} (sees : reader.Sees sequence outlook)
    (live : engine.table.live sequence = outlook.pairs)
    (ordered : Ordered outlook.window outlook.ahead)
    (countable : Countable outlook.window outlook.ahead outlook.count)
    (exhausts : last.Exhausts reader engine) :
    Spent (last.leaves outlook).window (last.leaves outlook).ahead (last.leaves outlook).count := by
  cases last with
  | read =>
    obtain ⟨next, read, -⟩ := read_sees sees live
    have nothing : (reader.read engine).1 = .ok none := exhausts
    rw [read] at nothing
    exact spent_of_read ordered countable (Except.ok.inj nothing)
  | page highWaterMark =>
    obtain ⟨next, read, -⟩ := page_sees sees live highWaterMark
    obtain ⟨entries, delivered⟩ := exhausts
    rw [read] at delivered
    exact spent_of_fill ordered countable (congrArg Page.done (Except.ok.inj delivered))
  | seek target => cases exhausts
  | write write => cases exhausts

/-- Where nothing is left to deliver, reads bring nothing and pages are empty and done. -/
theorem Sees.brings_nothing (sees : reader.Sees sequence outlook)
    (live : engine.table.live sequence = outlook.pairs)
    (spent : Spent outlook.window outlook.ahead outlook.count) :
    (reader.read engine).1 = .ok none ∧
      ∀ highWaterMark, (reader.page highWaterMark engine).1 = .ok ⟨[], true⟩ := by
  constructor
  · obtain ⟨next, read, -⟩ := read_sees sees live
    rw [read, spent.read.1]
  · intro highWaterMark
    obtain ⟨next, read, -⟩ := page_sees sees live highWaterMark
    rw [read, Outlook.page, spent.fill.1]
    rfl

/-- However a reader of the engine in memory has been used and turned about: once a read brings nothing or
a page is done, every read brings nothing and every page is empty and done until the reader is turned to a
target, whatever is read and written meanwhile, if the counter of a limited window has room to count every
pair once more. -/
theorem exhaustion_lasts (engine : MemoryEngine) (window : Window) (fillCache : Bool)
    (uses later : List Use) (last : Use)
    (space : engine.sequence.toNat + ((uses ++ last :: later).filterMap Use.write?).length < 2 ^ 64) :
    let created := Reader.new window fillCache engine
    let state := created.1.afterUses uses created.2
    let final := created.1.afterUses (uses ++ last :: later) created.2
    (0 ≤ window.limit → state.1.count.toNat + engine.live.length + 1 < 2 ^ 64) →
      last.Exhausts state.1 state.2 → (∀ now ∈ later, now.isSeek = false) →
        (final.1.read final.2).1 = .ok none ∧
          ∀ highWaterMark, (final.1.page highWaterMark final.2).1 = .ok ⟨[], true⟩ := by
  intro created state final room exhausts onward
  let fresh := start window engine.live
  let left := outlookAfter uses fresh
  have ascending : Ascending fresh.pairs := VersionTable.live_ascending _ _
  have sight := new_sees window fillCache engine
  have live := new_live window fillCache engine
  obtain ⟨seen, still⟩ := afterUses_outlook (uses ++ last :: later) sight live (UInt64.le_refl _) space
  rw [List.filterMap_append, List.length_append] at space
  obtain ⟨sees, shown⟩ := afterUses_outlook uses sight live (UInt64.le_refl _)
    (Nat.lt_of_le_of_lt (Nat.add_le_add_left (Nat.le_add_right _ _) _) space)
  have sameWindow : left.window = window := (outlookAfter_fixed uses fresh).1
  have samePairs : left.pairs = engine.live := (outlookAfter_fixed uses fresh).2
  have countable : Countable left.window left.ahead left.count := by
    intro limited
    have bound : left.ahead.length ≤ left.pairs.length + 1 := sees.length_le
    have counted : state.1.count.toNat = left.count.toNat := congrArg UInt64.toNat sees.count
    rw [sameWindow] at limited
    rw [samePairs] at bound
    have room := room limited
    omega
  have ordered : Ordered left.window left.ahead :=
    outlookAfter_ordered uses ascending (start_ordered ascending)
  have spent := sees.spent_of_exhausts shown ordered countable exhausts
  refine seen.brings_nothing still ?_
  rw [outlookAfter, List.foldl_append, List.foldl_cons]
  exact outlookAfter_spent onward spent

/-- The reader has been turned back and its limit is met on a key that another one follows. -/
theorem exhaustion_lasts_amid_writes :
    let engine := MemoryEngine.ofWrites
      [⟨[1], some [10]⟩, ⟨[2], some [20]⟩, ⟨[3], some [30]⟩, ⟨[4], some [40]⟩]
    let window : Window := ⟨.backward, some [3], none, none, some ⟨[1], false⟩, 2, true, true⟩
    let uses : List Use := [.read, .seek [3], .read]
    let later : List Use := [.read, .write ⟨[2], none⟩, .page 4]
    let created := Reader.new window false engine
    let state := created.1.afterUses uses created.2
    let final := created.1.afterUses (uses ++ .page 9 :: later) created.2
    (state.1.page 9 state.2).1 = .ok ⟨[], true⟩ ∧ final.1.count = 4 ∧
      (final.1.read final.2).1 = .ok none ∧
      ∀ highWaterMark, (final.1.page highWaterMark final.2).1 = .ok ⟨[], true⟩ := by
  intro engine window uses later created state final
  have done : (state.1.page 9 state.2).1 = .ok ⟨[], true⟩ := by decide
  exact ⟨done, by decide, exhaustion_lasts engine window false uses later (.page 9) (by decide)
    (fun _ => by decide) ⟨[], done⟩ (by decide)⟩

end Reader
end KeyScan
