import KeyScan.Proofs.Reader.Cutting
import KeyScan.Proofs.Service.Standing

namespace KeyScan

namespace Service

variable {service : Service MemoryEngine TableWalker} {id : ScanId} {mark : Nat}

/-- Advancing an open scan until a page is done delivers what its outlook yields. -/
theorem performAll_pages {outlook : Outlook} (stands : service.Stands id (.open mark outlook))
    (route : Route) (mode : Mode) :
    ∃ front last,
      (service.performAll ((front ++ [last]).map fun _ => .scan route id (.advance mode))).1 =
        (front ++ [last]).map .page ∧
      (∀ page ∈ front, page.done = false) ∧ last.done = true ∧
      (front ++ [last]).flatMap Page.entries =
        Outlook.yields outlook.window outlook.ahead outlook.count := by
  generalize bound : outlook.ahead.length = size
  induction size using Nat.strongRecOn generalizing service outlook with
  | ind size ih =>
    obtain ⟨after, performed, next⟩ := perform_stands stands route (.advance mode)
    obtain ⟨same, shorter⟩ := outlook.page_yields mark
    simp only [Standing.answer] at performed next
    cases done : (outlook.page mark).1.done with
    | true =>
      rw [done, if_pos rfl, List.append_nil] at same
      refine ⟨[], (outlook.page mark).1, ?_, fun _ member => absurd member List.not_mem_nil, done, ?_⟩
      · simp [performAll, performed]
      · simpa using same
    | false =>
      obtain ⟨front, last, pages, more, ends, entries⟩ :=
        ih _ (bound ▸ shorter done) next rfl
      rw [done, if_neg Bool.false_ne_true] at same
      refine ⟨(outlook.page mark).1 :: front, last, ?_, ?_, ends, ?_⟩
      · simp only [List.cons_append, List.map_cons, performAll, performed, pages]
      · intro page member
        rcases List.mem_cons.mp member with rfl | later
        · exact done
        · exact more page later
      · rw [List.cons_append, List.flatMap_cons, entries, same]

/-- A scan of an engine made by writes, advanced until a page is done, delivers exactly the live
entries within its stated bounds, in its direction, no more than its limit, each with the sides asked
for, and no page but the last is done. -/
theorem pages_selection (writes : List MemoryEngine.Write) (options : ScanOptions) {window : Window}
    (workers : Nat) (route : Route) (mode : Mode) (bounded : writes.length < 2 ^ 64)
    (accepted : Window.ofOptions options = .ok window) :
    let service : Service MemoryEngine TableWalker := { workers, engine := .ofWrites writes }
    ∃ id front last,
      (service.performAll (.create options ::
          (front ++ [last]).map fun _ => .scan route id (.advance mode))).1 =
        .created id :: (front ++ [last]).map .page ∧
      (∀ page ∈ front, page.done = false) ∧ last.done = true ∧
      (front ++ [last]).flatMap Page.entries = options.selection (MemoryEngine.contents writes) := by
  intro service
  have holds := MemoryEngine.holds_ofWrites bounded
  have fresh : service.Numbered 0 := ⟨Nat.le_refl _, fun _ member => absurd member List.not_mem_nil⟩
  obtain ⟨id, after, opened⟩ := create_accepted service accepted
  obtain ⟨_, same, stands⟩ := create_stands fresh (by decide) opened
  cases same.symm.trans accepted
  obtain ⟨front, last, pages, more, done, entries⟩ := performAll_pages stands route mode
  refine ⟨id, front, last, ?_, more, done, ?_⟩
  · simp only [performAll, perform_create opened, pages]
  · have few : service.engine.live.length < 2 ^ 64 := by
      have length := MemoryEngine.length_contents_le writes
      rw [holds.shown]
      omega
    have ascending : Ascending service.engine.live := VersionTable.live_ascending _ _
    have listed := Outlook.yields_start accepted ascending few
    rw [entries, ← holds.shown]
    exact listed

/-- A backward scan over the empty key, a deleted one and an empty bound. -/
theorem pages_selection_backward :
    let writes : List MemoryEngine.Write :=
      [⟨[], some [1]⟩, ⟨[5], some [2]⟩, ⟨[6], some [3]⟩, ⟨[7], some [4]⟩, ⟨[6], none⟩]
    let options : ScanOptions :=
      { reverse := true, lte := some [7], gte := some [], start := some [5], values := false,
        limit := 3, highWaterMark := 0 }
    let service : Service MemoryEngine TableWalker := { workers := 1, engine := .ofWrites writes }
    writes.length < 2 ^ 64 ∧ (∃ window, Window.ofOptions options = .ok window) ∧
      ∃ id front last,
        (service.performAll (.create options ::
            (front ++ [last]).map fun _ => .scan .roster id (.advance .waiting))).1 =
          .created id :: (front ++ [last]).map .page ∧
        (∀ page ∈ front, page.done = false) ∧ last.done = true ∧
        (front ++ [last]).flatMap Page.entries =
          [⟨some [7], none⟩, ⟨some [5], none⟩, ⟨some [], none⟩] := by
  intro writes options service
  have accepted : Window.ofOptions options =
      .ok ⟨.backward, some [5], none, some ⟨[7], true⟩, none, 3, true, false⟩ := by rfl
  exact ⟨by decide, ⟨_, accepted⟩,
    pages_selection writes options 1 .roster .waiting (by decide) accepted⟩

end Service
end KeyScan
