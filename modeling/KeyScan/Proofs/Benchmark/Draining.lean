import KeyScan.Benchmark.Workload
import KeyScan.Proofs.Reader.Cutting
import KeyScan.Proofs.Traffic.Pooling

namespace KeyScan.Benchmark
open Traffic

variable {bench : Bench} {writes : List MemoryEngine.Write} {created mark fuel : Nat} {id : ScanId}
  {outlook : Outlook} {scans others : List (ScanId × Outlook)} {options : ScanOptions}

/-! The calls of a benchmark succeed. -/

theorem openScan_ok {window : Window} (attends : bench.Attends writes created mark scans)
    (room : created + 1 < 2 ^ 32) (accepted : Window.ofOptions options = .ok window)
    (marked : options.highWaterMark = mark) :
    ∃ id after, bench.openScan options = .ok (id, after) ∧
      after.Attends writes (created + 1) mark
        ((id, .start window (MemoryEngine.contents writes)) :: scans) := by
  obtain ⟨id, after, performed, next⟩ := attends.create room accepted marked
  exact ⟨id, after, by rw [Service.openScan, performed], next⟩

theorem nextPage_ok (attends : bench.Attends writes created mark ((id, outlook) :: scans)) (mode : Mode) :
    ∃ after, bench.nextPage mode id = .ok ((outlook.page mark).1, after) ∧
      after.Attends writes created mark ((id, (outlook.page mark).2) :: scans) := by
  have answered : (Standing.open mark outlook).answer (.advance mode) =
      (.page (outlook.page mark).1, .open mark (outlook.page mark).2) := rfl
  obtain ⟨after, performed, next⟩ := attends.act answered
  exact ⟨after, by rw [Service.nextPage, performed], next⟩

theorem seekTo_ok (attends : bench.Attends writes created mark ((id, outlook) :: scans)) (target : Bytes) :
    ∃ after, bench.seekTo target id = .ok after ∧
      after.Attends writes created mark ((id, (outlook.seek target).2) :: scans) := by
  have answered : (Standing.open mark outlook).answer (.seek target) =
      (.ready, .open mark (outlook.seek target).2) := rfl
  obtain ⟨after, performed, next⟩ := attends.act answered
  exact ⟨after, by rw [Service.seekTo, performed], next⟩

theorem endScan_ok (attends : bench.Attends writes created mark ((id, outlook) :: scans)) :
    ∃ after, bench.endScan id = .ok after ∧ after.Attends writes created mark scans := by
  obtain ⟨after, performed, next⟩ := attends.endNow
  exact ⟨after, by rw [Service.endScan, performed], next⟩

theorem endScans_ok {ids : List ScanId} (attends : bench.Attends writes created mark scans)
    (listed : ids.Perm (scans.map Prod.fst)) :
    ∃ after, bench.endScans ids = .ok after ∧ after.Attends writes created mark [] := by
  induction ids generalizing bench scans with
  | nil =>
    rw [List.map_eq_nil_iff.mp listed.symm.eq_nil] at attends
    exact ⟨bench, rfl, attends⟩
  | cons id rest ih =>
    obtain ⟨scan, member, rfl⟩ := List.mem_map.mp (listed.mem_iff.mp List.mem_cons_self)
    obtain ⟨front, back, rfl⟩ := List.append_of_mem member
    obtain ⟨middle, ended, next⟩ := endScan_ok (attends.perm List.perm_middle)
    have left : rest.Perm ((front ++ back).map Prod.fst) :=
      (listed.trans (List.perm_middle.map Prod.fst)).cons_inv
    obtain ⟨after, ends, done⟩ := ih next left
    refine ⟨after, ?_, done⟩
    rw [Service.endScans, ended]
    exact ends

private theorem contents_lt_enoughPages (attends : bench.Attends writes created mark scans) :
    (MemoryEngine.contents writes).length < bench.enoughPages := by
  have bound := VersionTable.live_length_le bench.engine.table bench.engine.sequence
  have shown : bench.engine.table.live bench.engine.sequence = MemoryEngine.contents writes :=
    attends.sound.holds.shown
  rw [shown] at bound
  exact Nat.lt_succ_of_le bound

/-- A new scan has to deliver what its options select, and there is fuel for it. -/
theorem start_selects {window : Window} (attends : bench.Attends writes created mark scans)
    (accepted : Window.ofOptions options = .ok window) :
    (Outlook.start window (MemoryEngine.contents writes)).remaining =
        options.selection (MemoryEngine.contents writes) ∧
      (Outlook.start window (MemoryEngine.contents writes)).ahead.length < bench.enoughPages := by
  have shown := attends.sound.holds.shown
  have ascending : Ascending bench.engine.live := VersionTable.live_ascending _ _
  rw [shown] at ascending
  have few : (MemoryEngine.contents writes).length < 2 ^ 64 :=
    Nat.lt_of_le_of_lt (MemoryEngine.length_contents_le writes) attends.few
  refine ⟨Outlook.yields_start accepted ascending few, ?_⟩
  exact Nat.lt_of_le_of_lt (Direction.length_ahead_le _) (contents_lt_enoughPages attends)

/-- A scan that is advanced until a page is done delivers what was left to deliver. -/
theorem readPages_ok (endless : Except Breakdown (List Page × Bench))
    (attends : bench.Attends writes created mark ((id, outlook) :: scans))
    (enough : outlook.ahead.length < fuel) :
    ∃ pages rest after,
      readPages (fun bench : Bench => unrefused (bench.nextPage .waiting id)) endless fuel bench =
        .ok (pages, after) ∧
      pages.flatMap Page.entries = outlook.remaining ∧ pages.countP Page.done = 1 ∧
      after.Attends writes created mark ((id, rest) :: scans) := by
  induction fuel generalizing bench outlook with
  | zero => exact absurd enough (Nat.not_lt_zero _)
  | succ fuel ih =>
    obtain ⟨middle, read, next⟩ := nextPage_ok attends .waiting
    obtain ⟨same, shorter⟩ := outlook.page_yields mark
    have first : unrefused (bench.nextPage .waiting id) = .ok ((outlook.page mark).1, middle) := by
      rw [read]
      rfl
    cases done : (outlook.page mark).1.done with
    | true =>
      rw [done, if_pos rfl, List.append_nil] at same
      refine ⟨[(outlook.page mark).1], (outlook.page mark).2, middle, ?_, ?_, ?_, next⟩
      · exact (bind_ok _ first).trans (if_pos done)
      · rw [List.flatMap_singleton, same]
        rfl
      · rw [List.countP_singleton, if_pos done]
    | false =>
      rw [done, if_neg Bool.false_ne_true] at same
      obtain ⟨pages, rest, after, drained, entries, last, left⟩ :=
        ih next (Nat.lt_of_lt_of_le (shorter done) (Nat.le_of_lt_succ enough))
      have more : ¬ (outlook.page mark).1.done = true := by simp [done]
      refine ⟨(outlook.page mark).1 :: pages, rest, after, ?_, ?_, ?_, left⟩
      · refine (bind_ok _ first).trans ((if_neg more).trans ?_)
        exact bind_ok _ drained
      · rw [List.flatMap_cons, entries]
        exact same
      · rw [List.countP_cons_of_neg more, last]

/-- A scan of the whole contents or a part of them is opened, read through and ended. -/
theorem readThrough_ok {window : Window} (attends : bench.Attends writes created mark [])
    (room : created + 1 < 2 ^ 32) (accepted : Window.ofOptions options = .ok window)
    (marked : options.highWaterMark = mark) :
    ∃ pages after, (readThrough options bench : Except Breakdown _) = .ok (pages, after) ∧
      pages.flatMap Page.entries = options.selection (MemoryEngine.contents writes) ∧
      pages.countP Page.done = 1 ∧ after.Attends writes (created + 1) mark [] := by
  obtain ⟨id, opened, opens, attended⟩ := openScan_ok attends room accepted marked
  obtain ⟨selected, enough⟩ := start_selects attended accepted
  obtain ⟨pages, rest, drained, drains, entries, last, left⟩ :=
    readPages_ok (.error .endless) attended enough
  obtain ⟨after, ends, done⟩ := endScan_ok left
  refine ⟨pages, after, ?_, entries.trans selected, last, done⟩
  refine (bind_ok _ (congrArg unrefused opens)).trans ?_
  refine (bind_ok _ drains).trans ?_
  exact bind_ok _ (congrArg unrefused ends)

/-! Rounds over several scans. -/

/-- The scans that are read in the next round. -/
def active (mark : Nat) (scans : List (ScanId × Outlook)) : List (ScanId × Outlook) :=
  (scans.filter fun scan => !(upcoming mark scan).done).map (turned mark)

def finished (mark : Nat) (scans : List (ScanId × Outlook)) : List (ScanId × Outlook) :=
  (scans.filter fun scan => (upcoming mark scan).done).map (turned mark)

private theorem turned_perm (mark : Nat) (scans : List (ScanId × Outlook)) :
    (scans.map (turned mark)).Perm (active mark scans ++ finished mark scans) := by
  have parted := (List.filter_append_perm (fun scan => (upcoming mark scan).done) scans).map (turned mark)
  rw [List.map_append] at parted
  exact parted.symm.trans List.perm_append_comm

private theorem active_cons (mark : Nat) (scan : ScanId × Outlook) (rest : List (ScanId × Outlook)) :
    active mark (scan :: rest) =
      if (upcoming mark scan).done then active mark rest else turned mark scan :: active mark rest := by
  unfold active
  cases done : (upcoming mark scan).done with
  | true => simp [done]
  | false => simp [done]

private theorem names_kept (mark : Nat) (scans others : List (ScanId × Outlook)) :
    ((active mark scans ++ (finished mark scans ++ others)).map Prod.fst).Perm
      ((scans ++ others).map Prod.fst) := by
  have moved := ((turned_perm mark scans).symm.append_right others).map Prod.fst
  have same : (scans.map (turned mark) ++ others).map Prod.fst = (scans ++ others).map Prod.fst := by
    rw [List.map_append, List.map_map, List.map_append]
    rfl
  rwa [List.append_assoc, same] at moved

/-- What a round has not read is left to the active scans. -/
theorem remaining_perm (mark : Nat) (scans : List (ScanId × Outlook)) :
    (scans.flatMap fun scan => scan.2.remaining).Perm
      ((scans.map (upcoming mark)).flatMap Page.entries ++
        (active mark scans).flatMap fun scan => scan.2.remaining) := by
  induction scans with
  | nil => exact .refl _
  | cons scan rest ih =>
    have same : (upcoming mark scan).entries ++
        (if (upcoming mark scan).done then [] else (turned mark scan).2.remaining) = scan.2.remaining :=
      (scan.2.page_yields mark).1
    rw [active_cons, List.flatMap_cons, List.map_cons, List.flatMap_cons, ← same]
    cases done : (upcoming mark scan).done with
    | true =>
      rw [if_pos rfl, if_pos rfl, List.append_nil, List.append_assoc]
      exact ih.append_left _
    | false =>
      rw [if_neg Bool.false_ne_true, if_neg Bool.false_ne_true, List.flatMap_cons, List.append_assoc,
        List.append_assoc]
      refine .append_left _ ((ih.append_left _).trans ?_)
      rw [← List.append_assoc, ← List.append_assoc]
      exact List.perm_append_comm.append_right _

private theorem going_on (mark : Nat) (scans : List (ScanId × Outlook)) :
    (scans.map fun scan => (scan.1, upcoming mark scan)).filterMap
        (fun (id, page) => if page.done then none else some id) = (active mark scans).map Prod.fst := by
  induction scans with
  | nil => rfl
  | cons scan rest ih =>
    rw [List.map_cons, List.filterMap_cons, active_cons, ih]
    cases done : (upcoming mark scan).done with
    | true => simp [done]
    | false => simp [done, turned]

private theorem active_shorter {mark bound : Nat} {scans : List (ScanId × Outlook)}
    (enough : ∀ scan ∈ scans, scan.2.ahead.length < bound + 1) :
    ∀ scan ∈ active mark scans, scan.2.ahead.length < bound := by
  intro scan member
  obtain ⟨before, kept, rfl⟩ := List.mem_map.mp member
  obtain ⟨old, more⟩ := List.mem_filter.mp kept
  have shorter := (before.2.page_yields mark).2 (by simpa [upcoming] using more)
  exact Nat.lt_of_lt_of_le shorter (Nat.le_of_lt_succ (enough before old))

/-- Each scan of a round is done with its page or goes on. -/
theorem countP_done (mark : Nat) (scans : List (ScanId × Outlook)) :
    (scans.map (upcoming mark)).countP Page.done + (active mark scans).length = scans.length := by
  have parted := (List.filter_append_perm (fun scan => (upcoming mark scan).done) scans).length_eq
  rw [List.length_append] at parted
  rw [active, List.length_map, List.countP_map, List.countP_eq_length_filter]
  exact parted

/-- Rounds over scans that have fuel deliver what was left to deliver, however the workers are scheduled. -/
theorem readRounds_ok (traffic : Traffic MemoryEngine TableWalker) (schedule : Schedule)
    (attends : traffic.service.Attends writes created mark (scans ++ others))
    (quiet : traffic.isQuiet = true) (enough : ∀ scan ∈ scans, scan.2.ahead.length < fuel) :
    ∃ rounds left after,
      (readRounds schedule fuel (scans.map Prod.fst) traffic : Except Breakdown _) =
        .ok (rounds, after) ∧
      (rounds.flatten.flatMap Page.entries).Perm (scans.flatMap fun scan => scan.2.remaining) ∧
      rounds.flatten.countP Page.done = scans.length ∧ after.isQuiet = true ∧
      after.service.Attends writes created mark left ∧
      (left.map Prod.fst).Perm ((scans ++ others).map Prod.fst) := by
  induction fuel generalizing traffic scans others with
  | zero =>
    cases scans with
    | nil => exact ⟨[], others, traffic, rfl, .refl _, rfl, quiet, attends, .refl _⟩
    | cons scan rest => exact absurd (enough scan List.mem_cons_self) (Nat.not_lt_zero _)
  | succ fuel ih =>
    cases scans with
    | nil => exact ⟨[], others, traffic, rfl, .refl _, rfl, quiet, attends, .refl _⟩
    | cons scan rest =>
      obtain ⟨middle, reads, idle, next⟩ := readRound_ok schedule attends quiet
      have split := next.perm ((turned_perm mark (scan :: rest)).append_right others)
      rw [List.append_assoc] at split
      obtain ⟨rounds, left, after, more, entries, done, settled, attended, names⟩ :=
        ih middle split idle (active_shorter enough)
      refine ⟨(scan :: rest).map (upcoming mark) :: rounds, left, after, ?_, ?_, ?_, settled, attended, ?_⟩
      · rw [← going_on] at more
        refine (bind_ok _ (congrArg unrefused reads)).trans ?_
        refine (bind_ok _ more).trans ?_
        simp only [List.map_map]
        rfl
      · rw [List.flatten_cons, List.flatMap_append]
        exact (entries.append_left _).trans (remaining_perm mark (scan :: rest)).symm
      · rw [List.flatten_cons, List.countP_append, done]
        exact countP_done mark (scan :: rest)
      · exact names.trans (names_kept mark (scan :: rest) others)

theorem openScans_ok {list : List ScanOptions} (attends : bench.Attends writes created mark others)
    (room : created + list.length < 2 ^ 32)
    (accepted : ∀ options ∈ list, ∃ window, Window.ofOptions options = .ok window)
    (marked : ∀ options ∈ list, options.highWaterMark = mark) :
    ∃ scans after, bench.openScans list = .ok (scans.map Prod.fst, after) ∧
      after.Attends writes (created + list.length) mark (scans ++ others) ∧
      scans.length = list.length ∧
      (scans.flatMap fun scan => scan.2.remaining) =
        list.flatMap (·.selection (MemoryEngine.contents writes)) ∧
      ∀ scan ∈ scans, scan.2.ahead.length < (MemoryEngine.contents writes).length + 1 := by
  induction list generalizing bench created others with
  | nil => exact ⟨[], bench, rfl, attends, rfl, rfl, List.forall_mem_nil _⟩
  | cons options rest ih =>
    rw [List.length_cons] at room
    obtain ⟨⟨window, described⟩, laterAccepted⟩ := List.forall_mem_cons.mp accepted
    obtain ⟨first, laterMarked⟩ := List.forall_mem_cons.mp marked
    obtain ⟨id, middle, opened, next⟩ := openScan_ok attends (by omega) described first
    obtain ⟨scans, after, opens, attended, count, selections, short⟩ :=
      ih next (by omega) laterAccepted laterMarked
    refine ⟨(id, .start window (MemoryEngine.contents writes)) :: scans, after, ?_, ?_,
      congrArg Nat.succ count, ?_, ?_⟩
    · rw [Service.openScans, opened]
      change (middle.openScans rest).bind _ = _
      rw [opens]
      rfl
    · rw [List.length_cons, Nat.add_comm rest.length, ← Nat.add_assoc]
      exact attended.perm List.perm_middle
    · rw [List.flatMap_cons, List.flatMap_cons, selections, (start_selects next described).1]
    · exact List.forall_mem_cons.mpr ⟨Nat.lt_succ_of_le (Direction.length_ahead_le _), short⟩

/-- Several scans are opened, read round after round and ended: together they deliver what the options of
each select. -/
theorem readParts_ok {list : List ScanOptions} (schedule : Schedule)
    (attends : bench.Attends writes created mark []) (room : created + list.length < 2 ^ 32)
    (accepted : ∀ options ∈ list, ∃ window, Window.ofOptions options = .ok window)
    (marked : ∀ options ∈ list, options.highWaterMark = mark) :
    ∃ ids opened rounds read after, bench.openScans list = .ok (ids, opened) ∧
      (readRounds schedule opened.enoughPages ids { service := opened } : Except Breakdown _) =
        .ok (rounds, read) ∧
      (read.complete read.rank).2.service.endScans ids = .ok after ∧
      (rounds.flatten.flatMap Page.entries).Perm
        (list.flatMap (·.selection (MemoryEngine.contents writes))) ∧
      rounds.flatten.countP Page.done = list.length ∧
      after.Attends writes (created + list.length) mark [] := by
  obtain ⟨scans, opened, opens, attended, count, selections, short⟩ :=
    openScans_ok attends room accepted marked
  have enough : ∀ scan ∈ scans, scan.2.ahead.length < opened.enoughPages := fun scan member =>
    Nat.lt_of_lt_of_le (short scan member) (contents_lt_enoughPages attended)
  obtain ⟨rounds, left, read, reads, entries, done, settled, kept, names⟩ :=
    readRounds_ok { service := opened } schedule attended rfl enough
  rw [List.append_nil] at names
  obtain ⟨after, ends, rests⟩ := endScans_ok kept names.symm
  refine ⟨scans.map Prod.fst, opened, rounds, read, after, opens, reads, ?_, selections ▸ entries,
    done.trans count, rests⟩
  rwa [complete_quiet settled]

end KeyScan.Benchmark
