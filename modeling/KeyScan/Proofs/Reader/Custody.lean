import KeyScan.Engine.Journal
import KeyScan.Engine.Script
import KeyScan.Proofs.Reader.Frame

/-! What a reader has in custody: a snapshot from the time it is made, and at most one iterator. Whatever the
engine does, both are given back at the first release, the iterator first, and nothing is asked of the engine
after that. A reader that is dropped is released. -/
namespace KeyScan

namespace Call

def opens : Call → Bool
  | .open _ _ granted => granted
  | _ => false

def closes : Call → Bool
  | .close => true
  | _ => false

/-- Whether a call is about iterators, and of those at a snapshot. -/
def serves (sequence : Sequence) : Call → Bool
  | .open _ other _ => other = sequence
  | .move _ | .close => true
  | .acquire _ | .release _ => false

/-- A call that may be made for a reader with a snapshot, and whether an iterator is open before and
after it. -/
inductive Passes (sequence : Sequence) : Bool → Call → Bool → Prop where
  | refused {fillCache : Bool} : Passes sequence false (.open fillCache sequence false) false
  | opened {fillCache : Bool} : Passes sequence false (.open fillCache sequence true) true
  | moved {move : Move} : Passes sequence true (.move move) true
  | closed : Passes sequence true .close false

end Call

/-- The calls that are made for a reader while it holds a snapshot, the latest first, and whether they leave
an iterator open. -/
inductive Custody (sequence : Sequence) : Bool → List Call → Prop where
  | acquired : Custody sequence false [.acquire sequence]
  | passed {was now : Bool} {call : Call} {calls : List Call} (before : Custody sequence was calls)
    (passes : call.Passes sequence was now) : Custody sequence now (call :: calls)

namespace Custody

variable {sequence : Sequence} {iterating : Bool} {calls part : List Call}

/-- The snapshot is taken first, and until it is given back all calls are about iterators at it. -/
theorem serves (custody : Custody sequence iterating calls) :
    ∃ during, calls = during ++ [.acquire sequence] ∧
      ∀ call ∈ during, call.serves sequence = true := by
  induction custody with
  | acquired => exact ⟨[], rfl, fun _ member => nomatch member⟩
  | @passed was now call calls _ passes ih =>
    obtain ⟨during, rfl, own⟩ := ih
    refine ⟨call :: during, rfl, List.forall_mem_cons.mpr ⟨?_, own⟩⟩
    cases passes <;> simp [Call.serves]

theorem balance (custody : Custody sequence iterating calls) :
    calls.countP Call.opens = calls.countP Call.closes + iterating.toNat := by
  induction custody with
  | acquired => rfl
  | passed _ passes ih =>
    rw [List.countP_cons, List.countP_cons, ih]
    cases passes <;> simp [Call.opens, Call.closes]

private theorem earlier (custody : Custody sequence iterating calls) (ending : part <:+ calls) :
    part = [] ∨ ∃ iterating, Custody sequence iterating part := by
  induction custody with
  | acquired =>
    rcases List.suffix_cons_iff.mp ending with rfl | none
    · exact .inr ⟨false, .acquired⟩
    · exact .inl (List.suffix_nil.mp none)
  | passed before passes ih =>
    rcases List.suffix_cons_iff.mp ending with rfl | past
    · exact .inr ⟨_, before.passed passes⟩
    · exact ih past

/-- At no time is more than one iterator open. -/
theorem single (custody : Custody sequence iterating calls) (ending : part <:+ calls) :
    part.countP Call.closes ≤ part.countP Call.opens ∧
      part.countP Call.opens ≤ part.countP Call.closes + 1 := by
  rcases custody.earlier ending with rfl | ⟨now, custody⟩
  · exact ⟨Nat.le_refl _, Nat.zero_le _⟩
  · have balance := custody.balance
    have bound := now.toNat_le
    omega

end Custody

/-- What is done with a reader: an entry is read, or a page, which is cut when so many further reads have
brought entries, or the reader is turned to a target or released. -/
inductive Handling where
  | read
  | page (highWaterMark further : Nat)
  | seek (target : Bytes)
  | release
  deriving DecidableEq

/-- What comes of it: nothing worth mention, a failure, or, of a release, whether the snapshot was held. -/
inductive Upshot where
  | done
  | failed (failure : Failure)
  | released (held : Bool)
  deriving DecidableEq

def Upshot.of {α : Type} : Except Failure α → Upshot
  | .ok _ => .done
  | .error failure => .failed failure

/-- What comes of it if the reader was released before. -/
def Handling.denied : Handling → Upshot
  | .read | .page _ _ | .seek _ => .failed .ended
  | .release => .released false

namespace Reader

section Handlings

variable {σ ι : Type} [Engine σ ι]

def treat (handling : Handling) (reader : Reader ι) (engine : σ) : Upshot × Reader ι × σ :=
  match handling with
  | .read =>
    let (result, rest) := reader.read engine
    (.of result, rest)
  | .page highWaterMark further =>
    let (result, rest) := reader.gather highWaterMark (further + 1) 0 [] engine
    (.of result, rest)
  | .seek target =>
    let (result, rest) := reader.seek target engine
    (.of result, rest)
  | .release =>
    let (held, rest) := reader.release engine
    (.released held, rest)

def treatAll : List Handling → Reader ι → σ → List Upshot × Reader ι × σ
  | [], reader, engine => ([], reader, engine)
  | handling :: later, reader, engine =>
    let (upshot, reader, engine) := reader.treat handling engine
    let (rest, reader, engine) := treatAll later reader engine
    (upshot :: rest, reader, engine)

end Handlings

section Observed

variable {σ ι : Type} [Engine σ ι] {sequence : Sequence} {iterating : Bool}

/-- A reader holds a snapshot, and the calls made for it are those that it has in custody. -/
structure Keeps (reader : Reader ι) (sequence : Sequence) (journal : Journaled σ) : Prop where
  pin : reader.pin = some sequence
  held : reader.isReleased = false
  custody : Custody sequence reader.isMaterialized journal.calls

variable {reader next : Reader ι} {journal after : Journaled σ}

omit [Engine σ ι] in
private theorem Keeps.of_eq (keeps : reader.Keeps sequence journal) (pin : next.pin = reader.pin)
    (handle : next.handle = reader.handle) : next.Keeps sequence journal := by
  refine ⟨pin.trans keeps.pin, ?_, ?_⟩
  · rw [isReleased, handle]
    exact keeps.held
  · rw [isMaterialized, handle]
    exact keeps.custody

omit [Engine σ ι] in
private theorem keeps_of_opened {iterator : ι} (pin : reader.pin = some sequence)
    (opened : reader.handle = .opened iterator) (custody : Custody sequence true journal.calls) :
    reader.Keeps sequence journal :=
  ⟨pin, by rw [isReleased, opened], by rwa [isMaterialized, opened]⟩

omit [Engine σ ι] in
private theorem Keeps.custody_of_opened {iterator : ι} (keeps : reader.Keeps sequence journal)
    (opened : reader.handle = .opened iterator) : Custody sequence true journal.calls := by
  have custody := keeps.custody
  rwa [isMaterialized, opened] at custody

theorem new_keeps (window : Window) (fillCache : Bool) (engine : σ) :
    let made := Reader.new (ι := ι) window fillCache (Journaled.start engine)
    ∃ sequence, made.2.calls = [.acquire sequence] ∧ made.1.Keeps sequence made.2 :=
  ⟨(Engine.acquire engine).1, rfl, rfl, rfl, .acquired⟩

theorem follow_custody {α : Type} (course : Course α) (iterator : ι)
    (custody : Custody sequence true journal.calls) :
    Custody sequence true (course.follow iterator journal).2.2.calls := by
  induction course generalizing iterator journal with
  | arrive result => exact custody
  | go move onward ih =>
    have moved : Custody sequence true (Engine.move move iterator journal).2.2.calls := custody.passed .moved
    unfold Course.follow
    split
    · rename_i failed
      rwa [failed] at moved
    · rename_i landed
      rw [landed] at moved
      exact ih _ _ moved

/-- An iterator that cannot be taken to the start is closed again. -/
theorem launch_custody (pin : reader.pin = some sequence)
    (custody : Custody sequence false journal.calls) :
    Custody sequence (reader.launch journal).1.toBool (reader.launch journal).2.calls := by
  unfold launch
  simp only [pin]
  have asked : (Engine.open (ι := ι) reader.fillCache sequence journal).2.calls =
      .open reader.fillCache sequence (Engine.open (ι := ι) reader.fillCache sequence journal).1.toBool ::
        journal.calls := rfl
  split
  · rename_i refused
    rw [refused] at asked
    rw [asked]
    exact custody.passed .refused
  · rename_i iterator _ granted
    rw [granted] at asked
    have led := follow_custody reader.window.opening iterator (asked ▸ custody.passed .opened)
    split
    · rename_i arrived
      rwa [arrived] at led
    · rename_i failed
      rw [failed] at led
      exact led.passed .closed

theorem Keeps.materialize (keeps : reader.Keeps sequence journal) :
    (reader.materialize journal).2.1.Keeps sequence (reader.materialize journal).2.2 := by
  unfold Reader.materialize
  split
  · exact keeps
  · exact keeps
  · rename_i pending
    have unopened : reader.isMaterialized = false := by rw [isMaterialized, pending]
    have launched := launch_custody keeps.pin (unopened ▸ keeps.custody)
    split
    · rename_i failed
      rw [failed] at launched
      exact ⟨keeps.pin, keeps.held, unopened ▸ launched⟩
    · rename_i opened
      rw [opened] at launched
      exact keeps_of_opened keeps.pin rfl launched

theorem Keeps.look (keeps : reader.Keeps sequence journal) (iterator : ι) :
    (reader.look iterator journal).2.Keeps sequence journal :=
  keeps.of_eq (congrArg (·.2.2) (look_terms reader iterator journal)) (look_handle reader iterator journal)

theorem Keeps.read (keeps : reader.Keeps sequence journal) :
    (reader.read journal).2.1.Keeps sequence (reader.read journal).2.2 := by
  have kept := keeps.materialize
  unfold Reader.read
  split
  · rename_i failed
    rwa [failed] at kept
  · rename_i iterator between during opened
    have handle := handle_of_materialize opened
    rw [opened] at kept
    have moved : Custody sequence true
        (Engine.move between.window.direction.step iterator during).2.2.calls :=
      (kept.custody_of_opened handle).passed .moved
    split
    · have looked : Keeps { between with sought := false } sequence during := kept.of_eq rfl rfl
      exact looked.look iterator
    · split
      · rename_i failed
        rw [failed] at moved
        exact keeps_of_opened kept.pin rfl moved
      · rename_i landed
        rw [landed] at moved
        refine Keeps.look ?_ _
        exact keeps_of_opened kept.pin rfl moved

theorem Keeps.seek (keeps : reader.Keeps sequence journal) (target : Bytes) :
    (reader.seek target journal).2.1.Keeps sequence (reader.seek target journal).2.2 := by
  have aimed : Keeps { reader with target := none } sequence journal := keeps.of_eq rfl rfl
  have kept := aimed.materialize
  unfold Reader.seek
  split
  · rename_i failed
    rwa [failed] at kept
  · rename_i iterator between during opened
    have handle := handle_of_materialize opened
    rw [opened] at kept
    have moved : Custody sequence true (Engine.move (.seek target) iterator during).2.2.calls :=
      (kept.custody_of_opened handle).passed .moved
    split
    · rename_i failed
      rw [failed] at moved
      exact keeps_of_opened kept.pin rfl moved
    · rename_i landed
      rw [landed] at moved
      simp only
      split
      all_goals
        rename_i followed
        have settled := congrArg (fun result => result.2.2) followed
        exact keeps_of_opened kept.pin rfl (settled ▸ follow_custody _ _ moved)

theorem Keeps.gather (keeps : reader.Keeps sequence journal) (highWaterMark fuel size : Nat)
    (entries : List Entry) :
    (reader.gather highWaterMark fuel size entries journal).2.1.Keeps sequence
      (reader.gather highWaterMark fuel size entries journal).2.2 := by
  induction fuel generalizing size entries reader journal with
  | zero => exact keeps
  | succ fuel ih =>
    have kept := keeps.read
    unfold Reader.gather
    split
    · rename_i failed
      rwa [failed] at kept
    · rename_i none
      rw [none] at kept
      split <;> exact kept
    · rename_i some
      rw [some] at kept
      simp only
      split
      · exact kept.of_eq rfl rfl
      · refine ih ?_ _ _
        exact kept.of_eq rfl rfl

/-- Whatever is done with a reader but to release it, it keeps what it has. -/
theorem Keeps.treat (keeps : reader.Keeps sequence journal) {handling : Handling}
    (use : handling ≠ .release) :
    (reader.treat handling journal).2.1.Keeps sequence (reader.treat handling journal).2.2 := by
  cases handling with
  | read => exact keeps.read
  | page highWaterMark further => exact keeps.gather highWaterMark (further + 1) 0 []
  | seek target => exact keeps.seek target
  | release => exact absurd rfl use

theorem Keeps.treatAll {handlings : List Handling} (keeps : reader.Keeps sequence journal)
    (uses : .release ∉ handlings) :
    (reader.treatAll handlings journal).2.1.Keeps sequence (reader.treatAll handlings journal).2.2 := by
  induction handlings generalizing reader journal with
  | nil => exact keeps
  | cons handling later ih =>
    rw [List.mem_cons, not_or] at uses
    exact ih (keeps.treat (Ne.symm uses.1)) uses.2

/-- A release closes the iterator, if one is open, and gives the snapshot back. -/
theorem Keeps.release (keeps : reader.Keeps sequence journal) :
    let final := reader.release journal
    final.1 = true ∧ final.2.1 = { reader with handle := .released, target := none, pin := none } ∧
      ∃ calls, final.2.2.calls = .release sequence :: calls ∧ Custody sequence false calls ∧
        journal.calls <:+ calls := by
  have custody := keeps.custody
  unfold Reader.release
  simp only [keeps.pin]
  refine ⟨trivial, trivial, ?_⟩
  cases handle : reader.handle with
  | opened iterator =>
    rw [isMaterialized, handle] at custody
    exact ⟨_, rfl, custody.passed .closed, List.suffix_cons _ _⟩
  | pending | released =>
    rw [isMaterialized, handle] at custody
    exact ⟨_, rfl, custody, List.suffix_refl _⟩

end Observed

section Released

variable {σ ι : Type} [Engine σ ι] {reader : Reader ι}

/-- A reader that has been released. -/
structure Spare (reader : Reader ι) : Prop where
  handle : reader.handle = .released
  pin : reader.pin = none
  target : reader.target = none

theorem Spare.treat (spare : reader.Spare) (handling : Handling) (engine : σ) :
    reader.treat handling engine = (handling.denied, reader, engine) := by
  obtain ⟨window, fillCache, pin, handle, count, sought, landed, target⟩ := reader
  obtain ⟨rfl, rfl, rfl⟩ := spare
  cases handling <;> rfl

theorem Spare.treatAll (spare : reader.Spare) (handlings : List Handling) (engine : σ) :
    reader.treatAll handlings engine = (handlings.map Handling.denied, reader, engine) := by
  induction handlings with
  | nil => rfl
  | cons handling later ih => simp only [Reader.treatAll, spare.treat, ih, List.map_cons]

end Released

/-- Let a reader be made and used in whatever way, then released or dropped, and then used or released again.
Whatever the engine does, the making takes a snapshot and asks for nothing else; up to the release all calls
are about iterators at that snapshot, of which at most one is open at any time; the release leaves none open
and gives the snapshot back; and afterwards everything is denied, nothing more is asked of the engine and the
reader has no error to report. -/
theorem release_ends_custody {σ ι : Type} [Engine σ ι] (engine : σ) (window : Window) (fillCache : Bool)
    {before : List Handling} (uses : .release ∉ before) (after : List Handling) :
    let made := Reader.new window fillCache (Journaled.start engine)
    let held := made.1.treatAll before made.2
    let final := held.2.1.release held.2.2
    ∃ sequence during,
      made.2.calls = [.acquire sequence] ∧
      held.2.2.calls <:+ during ++ [.acquire sequence] ∧
      (∀ call ∈ during, call.serves sequence = true) ∧
      (∀ part, part <:+ during →
        part.countP Call.closes ≤ part.countP Call.opens ∧
          part.countP Call.opens ≤ part.countP Call.closes + 1) ∧
      during.countP Call.opens = during.countP Call.closes ∧
      final.1 = true ∧ final.2.2.calls = .release sequence :: during ++ [.acquire sequence] ∧
      final.2.1.treatAll after final.2.2 = (after.map Handling.denied, final.2) ∧
      final.2.1.status final.2.2 = .ok () := by
  intro made held final
  obtain ⟨sequence, first, keeps⟩ := new_keeps (ι := ι) window fillCache engine
  obtain ⟨held', given, calls, last, custody, past⟩ := (keeps.treatAll uses).release
  obtain ⟨during, rfl, own⟩ := custody.serves
  have spare : final.2.1.Spare := by
    rw [given]
    exact ⟨rfl, rfl, rfl⟩
  refine ⟨sequence, during, first, past, own, fun part ending => ?_, ?_, held', last,
    spare.treatAll after final.2.2, ?_⟩
  · obtain ⟨later, same⟩ := ending
    have ending : part ++ [.acquire sequence] <:+ during ++ [.acquire sequence] :=
      ⟨later, by rw [← same, List.append_assoc]⟩
    have single := custody.single ending
    simpa [Call.opens, Call.closes] using single
  · simpa [Call.opens, Call.closes] using custody.balance
  · rw [status, spare.handle]

/-- The first positioning fails and its iterator is closed, a later step fails too, and the reader is
released before the page is done. -/
theorem release_ends_custody_amid_failures :
    let unreadable : Report := ⟨.ioError, some "unreadable"⟩
    let script : Script :=
      { entries := #[([97], [1]), ([98], [2]), ([99], [3])], seekRule := .always 1
        failingCalls := [(0, unreadable), (3, unreadable)] }
    let window : Window := ⟨.forward, none, none, none, none, -1, true, true⟩
    let before : List Handling := [.read, .seek [98], .page 9 2]
    let after : List Handling := [.seek [97], .release, .page 9 2, .read]
    let made := Reader.new window false (Journaled.start (ScriptedEngine.start script))
    let held := made.1.treatAll before made.2
    let final := held.2.1.release held.2.2
    .release ∉ before ∧
      held.1 = [.failed (.engine unreadable), .done, .failed (.engine unreadable)] ∧
      final.2.2.calls.reverse =
        [.acquire 0, .open false 0 true, .move .first, .close, .open false 0 true, .move .first,
          .move (.seek [98]), .move .next, .close, .release 0] ∧
      final.1 = true ∧
      final.2.1.treatAll after final.2.2 =
        ([.failed .ended, .released false, .failed .ended, .failed .ended], final.2) ∧
      final.2.1.status final.2.2 = .ok () := by
  intro unreadable script window before after made held final
  have uses : Handling.release ∉ before := by decide
  obtain ⟨-, -, -, -, -, -, -, given, -, denied, status⟩ :=
    release_ends_custody (ScriptedEngine.start script) window false uses after
  exact ⟨uses, by decide, by decide, given, denied, status⟩

end Reader
end KeyScan
