import Mathlib.Algebra.GroupWithZero.Nat
import Mathlib.Order.Bounds.Defs
import KeyScan.Proofs.Reader.Seeking

/-! How a mark cuts what is left to deliver into pages. A page takes the fewest entries that are larger
than the mark and leaves the others, or all of them if they are not; so the pages up to the first that is
done hold the same entries whatever the mark. -/
namespace KeyScan

/-- The bytes that entries count for together. -/
def Entry.total (entries : List Entry) : Nat := (entries.map Entry.size).sum

namespace Entry

@[simp] theorem total_nil : total [] = 0 := rfl

@[simp] theorem total_append (first second : List Entry) :
    total (first ++ second) = total first + total second := by
  simp [total]

@[simp] theorem total_cons (entry : Entry) (entries : List Entry) :
    total (entry :: entries) = entry.size + total entries := by
  simp [total]

@[simp] theorem total_reverse (entries : List Entry) : total entries.reverse = total entries := by
  simp [total, List.sum_reverse]

private theorem total_le_of_prefix {first second : List Entry} (initial : first <+: second) :
    total first ≤ total second := by
  obtain ⟨rest, rfl⟩ := initial
  simp

end Entry

theorem Page.size_eq (page : Page) : page.size = Entry.total page.entries := by
  unfold Page.size
  induction page.entries with
  | nil => rfl
  | cons entry rest ih => rw [List.foldr_cons, ih, Entry.total_cons]

/-- How a mark cuts entries: into a page that is not done, of the fewest of them that are larger than the
mark, and the others; or into a page that is done, of all of them. -/
inductive Page.Cuts (highWaterMark : Nat) (entries : List Entry) : Page → List Entry → Prop where
  | full {count : Nat}
      (least : IsLeast {count | highWaterMark < Entry.total (entries.take count)} count) :
      Cuts highWaterMark entries ⟨entries.take count, false⟩ (entries.drop count)
  | last (within : Entry.total entries ≤ highWaterMark) :
      Cuts highWaterMark entries ⟨entries, true⟩ []

namespace Page.Cuts

variable {highWaterMark : Nat} {entries rest : List Entry} {page : Page}

theorem append_eq (cuts : Cuts highWaterMark entries page rest) : page.entries ++ rest = entries := by
  cases cuts with
  | full least => exact List.take_append_drop _ _
  | last within => exact List.append_nil _

theorem entries_ne_nil (cuts : Cuts highWaterMark entries page rest) (more : page.done = false) :
    page.entries ≠ [] := by
  cases cuts with
  | @full count least =>
    intro nothing
    have larger : highWaterMark < Entry.total (entries.take count) := least.1
    rw [show entries.take count = [] from nothing] at larger
    exact Nat.not_lt_zero _ larger
  | last within => cases more

theorem size_le (cuts : Cuts highWaterMark entries page rest) (done : page.done = true) :
    page.size ≤ highWaterMark := by
  cases cuts with
  | full least => cases done
  | last within => rwa [Page.size_eq]

/-- Entries are cut after the first one that makes them larger than the mark. -/
theorem of_larger {entry : Entry} (within : Entry.total entries ≤ highWaterMark)
    (larger : highWaterMark < Entry.total entries + entry.size) (rest : List Entry) :
    Cuts highWaterMark (entries ++ entry :: rest) ⟨entries ++ [entry], false⟩ rest := by
  have taken : (entries ++ entry :: rest).take (entries.length + 1) = entries ++ [entry] :=
    List.take_length_add_append 1
  have left : (entries ++ entry :: rest).drop (entries.length + 1) = rest :=
    List.drop_length_add_append 1
  have least : IsLeast
      {count | highWaterMark < Entry.total ((entries ++ entry :: rest).take count)}
      (entries.length + 1) := by
    constructor
    · change highWaterMark < _
      rw [taken, Entry.total_append]
      exact larger
    · intro fewer (exceeds : highWaterMark < _)
      by_contra short
      have some : (entries ++ entry :: rest).take fewer <+: entries := by
        rw [List.take_append_of_le_length (by omega)]
        exact List.take_prefix _ _
      have bound := Entry.total_le_of_prefix some
      omega
  have cuts := full least
  rwa [taken, left] at cuts

end Page.Cuts

/-- Filling a page cuts what it holds already and what is left to deliver. -/
theorem Outlook.fill_cuts {window : Window} {highWaterMark : Nat} {entries : List Entry}
    (within : Entry.total entries ≤ highWaterMark) (ahead : List (Bytes × Bytes)) (count : UInt64) :
    let filled := fill window highWaterMark (Entry.total entries) entries ahead count
    Page.Cuts highWaterMark (entries.reverse ++ yields window ahead count) filled.1
      (if filled.1.done then [] else yields window filled.2.1 filled.2.2) := by
  induction ahead generalizing entries count with
  | nil =>
    simp only [fill, yields, ↓reduceIte, List.append_nil]
    exact .last (by simpa using within)
  | cons pair rest ih =>
    simp only [fill, yields]
    by_cases admitted : (window.test pair.1 count).1 = true
    · simp only [admitted, ↓reduceIte]
      split
      · rename_i larger
        rw [List.reverse_cons]
        exact Page.Cuts.of_larger (by simpa using within) (by simpa using larger) _
      · rename_i more
        have next := @ih (Reader.deliver window pair :: entries)
          (by rw [Entry.total_cons]; omega) (window.test pair.1 count).2
        rw [Entry.total_cons, Nat.add_comm] at next
        simpa using next
    · simp only [admitted, Bool.false_eq_true, ↓reduceIte]
      rw [List.append_nil]
      exact .last (by simpa using within)

theorem Outlook.page_cuts (outlook : Outlook) (highWaterMark : Nat) :
    let page := (outlook.page highWaterMark).1
    let rest := (outlook.page highWaterMark).2
    Page.Cuts highWaterMark (yields outlook.window outlook.ahead outlook.count) page
      (if page.done then [] else yields rest.window rest.ahead rest.count) :=
  @fill_cuts _ _ [] (Nat.zero_le _) outlook.ahead outlook.count

private theorem Outlook.length_fill_lt {window : Window} {highWaterMark size : Nat} {entries : List Entry}
    {ahead : List (Bytes × Bytes)} {count : UInt64}
    (more : (fill window highWaterMark size entries ahead count).1.done = false) :
    (fill window highWaterMark size entries ahead count).2.1.length < ahead.length := by
  induction ahead generalizing size entries count with
  | nil => cases more
  | cons pair rest ih =>
    simp only [fill] at more ⊢
    by_cases admitted : (window.test pair.1 count).1 = true
    · simp only [admitted, ↓reduceIte] at more ⊢
      split
      · exact Nat.lt_succ_self _
      · rename_i unfilled
        rw [if_neg unfilled] at more
        exact Nat.lt_succ_of_lt (ih more)
    · simp [admitted] at more

/-- A page that is not done leaves less ahead, and what it leaves to deliver follows it. -/
theorem Outlook.page_yields (outlook : Outlook) (highWaterMark : Nat) :
    let page := (outlook.page highWaterMark).1
    let rest := (outlook.page highWaterMark).2
    page.entries ++ (if page.done then [] else yields rest.window rest.ahead rest.count) =
        yields outlook.window outlook.ahead outlook.count ∧
      (page.done = false → rest.ahead.length < outlook.ahead.length) :=
  ⟨(outlook.page_cuts highWaterMark).append_eq, length_fill_lt⟩

namespace Reader

section Pages

variable {σ ι : Type} [Engine σ ι]

/-- Reading pages until one is done gives exactly these. -/
inductive Lists (highWaterMark : Nat) : Reader ι → σ → List Page → Prop where
  | last {reader next : Reader ι} {engine after : σ} {page : Page}
      (read : reader.page highWaterMark engine = (.ok page, next, after)) (done : page.done = true) :
      Lists highWaterMark reader engine [page]
  | more {reader next : Reader ι} {engine after : σ} {page : Page} {pages : List Page}
      (read : reader.page highWaterMark engine = (.ok page, next, after)) (more : page.done = false)
      (rest : Lists highWaterMark next after pages) :
      Lists highWaterMark reader engine (page :: pages)

end Pages

/-- What may happen to a reader of the engine in memory: calls on it, and writes to the engine. -/
inductive Use where
  | read
  | page (highWaterMark : Nat)
  | seek (target : Bytes)
  | write (write : MemoryEngine.Write)

def Use.write? : Use → Option MemoryEngine.Write
  | .write entered => some entered
  | .read | .page _ | .seek _ => none

def use (use : Use) (reader : Reader TableWalker) (engine : MemoryEngine) :
    Reader TableWalker × MemoryEngine :=
  match use with
  | .read => (reader.read engine).2
  | .page highWaterMark => (reader.page highWaterMark engine).2
  | .seek target => (reader.seek target engine).2
  | .write write => (reader, engine.apply write)

/-- A reader and its engine after all that has happened. -/
def afterUses : List Use → Reader TableWalker → MemoryEngine → Reader TableWalker × MemoryEngine
  | [], reader, engine => (reader, engine)
  | now :: later, reader, engine =>
    let (reader, engine) := reader.use now engine
    afterUses later reader engine

/-- What it leaves of what a reader has before it. -/
def Use.leaves (use : Use) (outlook : Outlook) : Outlook :=
  match use with
  | .read => outlook.read.2
  | .page highWaterMark => (outlook.page highWaterMark).2
  | .seek target => (outlook.seek target).2
  | .write _ => outlook

/-- What all that has happened leaves of it. -/
def outlookAfter (uses : List Use) (outlook : Outlook) : Outlook :=
  uses.foldl (fun left use => use.leaves left) outlook

theorem Use.leaves_fixed (use : Use) (outlook : Outlook) :
    (use.leaves outlook).window = outlook.window ∧ (use.leaves outlook).pairs = outlook.pairs := by
  cases use with
  | read => exact outlook.read_fixed
  | page highWaterMark => exact ⟨rfl, rfl⟩
  | seek target => exact ⟨rfl, rfl⟩
  | write write => exact ⟨rfl, rfl⟩

theorem outlookAfter_fixed (uses : List Use) (outlook : Outlook) :
    (outlookAfter uses outlook).window = outlook.window ∧
      (outlookAfter uses outlook).pairs = outlook.pairs := by
  induction uses generalizing outlook with
  | nil => exact ⟨rfl, rfl⟩
  | cons now later ih =>
    obtain ⟨window, pairs⟩ := now.leaves_fixed outlook
    obtain ⟨sameWindow, samePairs⟩ := ih (now.leaves outlook)
    exact ⟨sameWindow.trans window, samePairs.trans pairs⟩

variable {reader : Reader TableWalker} {sequence : Sequence} {outlook : Outlook}
  {engine : MemoryEngine}

/-- Whatever happens leaves a reader with what it leaves of the outlook, on the same pairs. -/
theorem use_sees (now : Use) (sees : reader.Sees sequence outlook)
    (live : engine.table.live sequence = outlook.pairs) (earlier : sequence ≤ engine.sequence)
    (space : engine.sequence.toNat + now.write?.toList.length < 2 ^ 64) :
    let (next, after) := reader.use now engine
    next.Sees sequence (now.leaves outlook) ∧ after.table.live sequence = outlook.pairs ∧
      sequence ≤ after.sequence ∧
      after.sequence.toNat = engine.sequence.toNat + now.write?.toList.length := by
  cases now with
  | read =>
    obtain ⟨next, read, sight⟩ := read_sees sees live
    simp only [use, read]
    exact ⟨sight, live, earlier, rfl⟩
  | page highWaterMark =>
    obtain ⟨next, read, sight⟩ := page_sees sees live highWaterMark
    simp only [use, read]
    exact ⟨sight, live, earlier, rfl⟩
  | seek target =>
    obtain ⟨next, sought, sight⟩ := seek_sees sees live target
    simp only [use, sought]
    exact ⟨sight, live, earlier, rfl⟩
  | write write =>
    have room : engine.sequence.toNat + 1 < 2 ^ 64 := space
    refine ⟨sees, (MemoryEngine.live_apply_of_le room earlier).trans live, ?_, ?_⟩
    · exact UInt64.le_trans earlier (MemoryEngine.extends_apply write room).reaches
    · rw [MemoryEngine.apply_sequence, MemoryEngine.toNat_succ room]
      rfl

theorem afterUses_outlook (uses : List Use) (sees : reader.Sees sequence outlook)
    (live : engine.table.live sequence = outlook.pairs) (earlier : sequence ≤ engine.sequence)
    (space : engine.sequence.toNat + (uses.filterMap Use.write?).length < 2 ^ 64) :
    let (next, after) := reader.afterUses uses engine
    next.Sees sequence (outlookAfter uses outlook) ∧
      after.table.live sequence = (outlookAfter uses outlook).pairs := by
  induction uses generalizing reader engine outlook with
  | nil => exact ⟨sees, live⟩
  | cons now rest ih =>
    have split : ((now :: rest).filterMap Use.write?).length =
        now.write?.toList.length + (rest.filterMap Use.write?).length := by
      rw [List.filterMap_cons]
      cases now.write? with
      | none => simp
      | some write => simp [Nat.add_comm]
    rw [split, ← Nat.add_assoc] at space
    obtain ⟨sight, shown, still, counted⟩ := use_sees now sees live earlier (by omega)
    exact ih sight (shown.trans (now.leaves_fixed outlook).2.symm) still (counted ▸ space)

private theorem afterUses_sees (uses : List Use) (sees : reader.Sees sequence outlook)
    (live : engine.table.live sequence = outlook.pairs) (earlier : sequence ≤ engine.sequence)
    (space : engine.sequence.toNat + (uses.filterMap Use.write?).length < 2 ^ 64) :
    let (next, after) := reader.afterUses uses engine
    ∃ later, next.Sees sequence later ∧ after.table.live sequence = later.pairs :=
  ⟨_, afterUses_outlook uses sees live earlier space⟩

/-- Reading pages until one is done lists what is left to deliver. -/
theorem lists_of_sees (highWaterMark : Nat) (sees : reader.Sees sequence outlook)
    (live : engine.table.live sequence = outlook.pairs) :
    ∃ pages, reader.Lists highWaterMark engine pages ∧
      pages.flatMap Page.entries = Outlook.yields outlook.window outlook.ahead outlook.count := by
  generalize bound : outlook.ahead.length = size
  induction size using Nat.strongRecOn generalizing reader outlook with
  | ind size ih =>
    obtain ⟨next, read, sight⟩ := page_sees sees live highWaterMark
    obtain ⟨same, shorter⟩ := outlook.page_yields highWaterMark
    cases done : (outlook.page highWaterMark).1.done with
    | true =>
      rw [done, if_pos rfl, List.append_nil] at same
      exact ⟨[(outlook.page highWaterMark).1], .last read done, by simpa using same⟩
    | false =>
      obtain ⟨pages, lists, entries⟩ := ih _ (bound ▸ shorter done) sight live rfl
      rw [done, if_neg Bool.false_ne_true] at same
      exact ⟨_, .more read done lists, by rw [List.flatMap_cons, entries, same]⟩

/-- Whatever a reader of the engine in memory has been used for, and whatever was written meanwhile, a
page cuts the entries that reading until nothing comes would deliver, and the others are delivered after
it. It is read to its end, whatever fuel there is beyond what it is given. Pages up to the first one that
is done hold these entries, whatever the mark. -/
theorem page_cuts_delivery (engine : MemoryEngine) (window : Window) (fillCache : Bool)
    (uses : List Use)
    (space : engine.sequence.toNat + (uses.filterMap Use.write?).length < 2 ^ 64) :
    let created := Reader.new window fillCache engine
    let state := created.1.afterUses uses created.2
    ∃ entries, state.1.Delivers state.2 entries ∧ ∀ highWaterMark,
      (∃ page rest next after, state.1.page highWaterMark state.2 = (.ok page, next, after) ∧
        page.Cuts highWaterMark entries rest ∧ (page.done = false → next.Delivers after rest) ∧
        (page.done = false → page.entries ≠ []) ∧ (page.done = true → page.size ≤ highWaterMark)) ∧
      (∀ fuel, Engine.reach state.2 + 2 ≤ fuel →
        state.1.gather highWaterMark fuel 0 [] state.2 = state.1.page highWaterMark state.2) ∧
      ∃ pages, state.1.Lists highWaterMark state.2 pages ∧ pages.flatMap Page.entries = entries := by
  intro created state
  obtain ⟨outlook, sees, live⟩ := afterUses_sees uses (new_sees window fillCache engine)
    (new_live window fillCache engine) (UInt64.le_refl _) space
  refine ⟨_, delivers_yields sees live, fun highWaterMark => ⟨?_, ?_, ?_⟩⟩
  · obtain ⟨next, read, sight⟩ := page_sees sees live highWaterMark
    have cuts := outlook.page_cuts highWaterMark
    refine ⟨_, _, next, _, read, cuts, ?_, cuts.entries_ne_nil, cuts.size_le⟩
    intro more
    rw [more, if_neg Bool.false_ne_true]
    exact delivers_yields sight live
  · intro fuel enough
    exact (sees.draws _).page_eq highWaterMark enough
  · exact lists_of_sees highWaterMark sees live

/-- One entry was read and the reader turned back; then a pair that lies ahead was written anew and one
before it was deleted. -/
theorem page_cuts_delivery_amid_writes :
    let engine := MemoryEngine.ofWrites
      [⟨[1], some [10]⟩, ⟨[2], some [20, 20]⟩, ⟨[3], some []⟩, ⟨[4], some [40]⟩]
    let window : Window := ⟨.forward, none, none, none, none, -1, false, true⟩
    let uses : List Use := [.read, .seek [2], .write ⟨[3], some [30]⟩, .page 0, .seek [2],
      .write ⟨[1], none⟩]
    let created := Reader.new window false engine
    let state := created.1.afterUses uses created.2
    engine.sequence.toNat + (uses.filterMap Use.write?).length < 2 ^ 64 ∧
      (state.1.page 1 state.2).1 = .ok ⟨[⟨none, some [20, 20]⟩], false⟩ ∧
      (state.1.page 2 state.2).1 =
        .ok ⟨[⟨none, some [20, 20]⟩, ⟨none, some []⟩, ⟨none, some [40]⟩], false⟩ ∧
      ∃ entries, state.1.Delivers state.2 entries ∧ ∀ highWaterMark,
        (∃ page rest next after, state.1.page highWaterMark state.2 = (.ok page, next, after) ∧
          page.Cuts highWaterMark entries rest ∧ (page.done = false → next.Delivers after rest) ∧
          (page.done = false → page.entries ≠ []) ∧
          (page.done = true → page.size ≤ highWaterMark)) ∧
        (∀ fuel, Engine.reach state.2 + 2 ≤ fuel →
          state.1.gather highWaterMark fuel 0 [] state.2 = state.1.page highWaterMark state.2) ∧
        ∃ pages, state.1.Lists highWaterMark state.2 pages ∧
          pages.flatMap Page.entries = entries := by
  intro engine window uses
  exact ⟨by decide, by decide, by decide, page_cuts_delivery engine window false uses (by decide)⟩

end Reader
end KeyScan
