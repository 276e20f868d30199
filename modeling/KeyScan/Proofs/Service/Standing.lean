import KeyScan.Proofs.Reader.Sight
import KeyScan.Proofs.Service.Condition
import KeyScan.Proofs.Traffic.Completion

namespace KeyScan

/-- A scan between calls: open, with a high water mark and pairs before it, or over. -/
inductive Standing where
  | open (highWaterMark : Nat) (outlook : Outlook)
  | finished

/-- The reply to a call on a scan, and where it leaves the scan. -/
def Standing.answer (action : Action) (standing : Standing) : Reply × Standing :=
  match standing, action with
  | .open mark outlook, .seek target => (.ready, .open mark (outlook.seek target).2)
  | .open mark outlook, .advance _ =>
    (.page (outlook.page mark).1, .open mark (outlook.page mark).2)
  | .open _ _, .endNow | .open _ _, .endLater => (.ended true, .finished)
  | .finished, .seek _ | .finished, .advance _ => (.failed .ended, .finished)
  | .finished, .endNow | .finished, .endLater => (.ended false, .finished)

namespace Service

/-- A live scan at a phase, whose reader has an outlook before it. -/
structure Serves (service : Service MemoryEngine TableWalker) (id : ScanId) (phase : Phase)
    (mark : Nat) (outlook : Outlook) : Prop where
  live : service.roster.isLive id = true
  shown : ∃ scan sequence, service.scan? id = some scan ∧ scan.admission = ⟨phase, []⟩ ∧
    scan.highWaterMark = mark ∧ sequence ≤ service.engine.sequence ∧
    scan.reader.Sees sequence outlook ∧ service.engine.table.live sequence = outlook.pairs

/-- Where a scan that was once created stands. -/
def Stands (service : Service MemoryEngine TableWalker) (id : ScanId) (standing : Standing) : Prop :=
  service.roster.wasIssued id = true ∧
    match standing with
    | .open mark outlook => service.Serves id .idle mark outlook
    | .finished => service.phase? id = some .ended

variable {service : Service MemoryEngine TableWalker} {id : ScanId} {mark : Nat}
  {outlook : Outlook} {phase : Phase}

/-- What a scan has before it does not depend on anything that leaves its record and the pairs of its
snapshot alone. -/
theorem Serves.kept {after : Service MemoryEngine TableWalker}
    (serves : service.Serves id phase mark outlook) (scan : after.scan? id = service.scan? id)
    (live : after.roster.isLive id = service.roster.isLive id)
    (extended : service.engine.Extends after.engine) : after.Serves id phase mark outlook := by
  obtain ⟨alive, found, sequence, same, admission, size, past, sees, shown⟩ := serves
  exact ⟨live.trans alive, found, sequence, scan.trans same, admission, size,
    UInt64.le_trans past extended.reaches, sees, (extended.pairs sequence past).trans shown⟩

private theorem Serves.count (serves : service.Serves id phase mark outlook) (occurrence : Occurrence) :
    (service.count occurrence).Serves id phase mark outlook := ⟨serves.live, serves.shown⟩

/-- What a section makes of a scan is served if its reader has an outlook. -/
theorem update_serves {scan : Scan TableWalker} {sequence : Sequence}
    {change : Scan TableWalker → Scan TableWalker} (live : service.roster.isLive id = true)
    (found : service.scan? id = some scan) (admission : (change scan).admission = ⟨phase, []⟩)
    (size : (change scan).highWaterMark = mark) (past : sequence ≤ service.engine.sequence)
    (sees : (change scan).reader.Sees sequence outlook)
    (pairs : service.engine.table.live sequence = outlook.pairs) :
    (service.update id change).Serves id phase mark outlook := by
  refine ⟨live, change scan, sequence, ?_, admission, size, past, sees, pairs⟩
  rw [scan?_update, if_pos rfl, found]
  rfl

theorem seek_serves (serves : service.Serves id .idle mark outlook) (target : Bytes) :
    (service.seek target id).1 = .ok () ∧
      (service.seek target id).2.Serves id .idle mark (outlook.seek target).2 := by
  obtain ⟨live, scan, sequence, found, idle, size, past, sees, pairs⟩ := serves
  obtain ⟨next, sought, sight⟩ := Reader.seek_sees sees pairs target
  have admitted : scan.admission.checkSeek = .ok () := by
    rw [idle]
    rfl
  simp only [seek, found, admitted, sought]
  refine ⟨trivial, .count ?_ _⟩
  exact update_serves live found idle size past sight pairs

theorem beginAdvance_serves (serves : service.Serves id .idle mark outlook) :
    (service.beginAdvance id).1 = .ok () ∧
      (service.beginAdvance id).2.Serves id .advancing mark outlook := by
  obtain ⟨live, scan, sequence, found, idle, size, past, sees, pairs⟩ := serves
  have admitted : scan.admission.begin = .ok ⟨.advancing, []⟩ := by
    rw [idle]
    rfl
  simp only [beginAdvance, found, admitted]
  exact ⟨trivial, update_serves live found rfl size past sees pairs⟩

theorem fetch_serves (serves : service.Serves id phase mark outlook) (mode : Mode) :
    (service.fetch mode id).1 = .ok (outlook.page mark).1 ∧
      (service.fetch mode id).2.Serves id phase mark (outlook.page mark).2 := by
  obtain ⟨live, scan, sequence, found, at_phase, rfl, past, sees, pairs⟩ := serves
  obtain ⟨next, read, sight⟩ := Reader.page_sees sees pairs scan.highWaterMark
  simp only [fetch, found, read]
  refine ⟨trivial, .count ?_ _⟩
  exact update_serves live found at_phase rfl past (sight.remark next.landed none) pairs

theorem leave_serves (serves : service.Serves id .advancing mark outlook) :
    (service.leave id).1 = false ∧ (service.leave id).2.Serves id .idle mark outlook := by
  obtain ⟨live, scan, sequence, found, advancing, size, past, sees, pairs⟩ := serves
  have finish : scan.admission.finish = (false, ⟨.idle, []⟩) := by
    rw [advancing]
    rfl
  simp only [leave, found, finish]
  exact ⟨trivial, update_serves live found rfl size past sees pairs⟩

/-- Once nothing hinders it, an end runs out: all who wait for it are told, and the scan has ended. -/
theorem end_runsOut {scan : Scan TableWalker} {waiting : List Nat} (call : Nat) (ending : Ending)
    (found : service.scan? id = some scan) (granted : scan.admission = ⟨.ending, waiting⟩) :
    ∃ after, Task.RunsOut ⟨call, id, .release ending⟩ service
        ([.released call id] ++ ([.withdrawn call id] ++
          (.concluded call id :: waiting.map (fun call => .answered call (.ended true)) ++
            ending.reply.toList.map (.answered call)))) after ∧
      after.phase? id = some .ended ∧ after.roster.issued = service.roster.issued := by
  let released := service.release id
  let withdrawn := released.withdraw id
  let concluded := (withdrawn.conclude id).2
  have gone : withdrawn.scan? id =
      some { scan with reader := (scan.reader.release service.engine).2.1 } := by
    change released.scan? id = _
    simp only [released, release, found]
    rw [scan?_update, if_pos rfl]
    exact congrArg (Option.map _) found
  have told : (withdrawn.conclude id).1 = waiting := by
    simp only [conclude, gone, Admission.conclude, granted]
  have settled : Task.RunsOut ⟨call, id, .settle ending⟩ concluded
      (ending.reply.toList.map (.answered call)) (concluded.count (.ended ending.deferred)) :=
    .last rfl
  refine ⟨concluded.count (.ended ending.deferred), .more rfl (.more rfl (.more ?_ settled)), ?_, ?_⟩
  · exact congrArg (fun told => ((Event.concluded call id ::
      told.map fun call => Event.answered call (.ended true)), _, _)) told
  · change concluded.phase? id = _
    simp only [concluded, conclude, gone, phase?]
    rw [scan?_update, if_pos rfl, gone]
    rfl
  · exact (((service.release_changes id).touches.trans (withdraw_touches id released)).trans
      (withdrawn.conclude_changes id).touches).issued

theorem wasIssued_of_eq {before after : Service MemoryEngine TableWalker}
    (same : after.roster.issued = before.roster.issued)
    (issued : before.roster.wasIssued id = true) : after.roster.wasIssued id = true := by
  unfold Roster.wasIssued at issued ⊢
  rwa [same]

theorem perform_seek (issued : service.roster.wasIssued id = true)
    (serves : service.Serves id .idle mark outlook) (route : Route) (target : Bytes) :
    ∃ after, service.perform (.scan route id (.seek target)) = (.ready, after) ∧
      after.Stands id (.open mark (outlook.seek target).2) := by
  obtain ⟨sought, next⟩ := seek_serves serves target
  have touched := (service.seek_changes id target).touches
  rcases result : service.seek target id with ⟨outcome, after⟩
  rw [result] at sought next touched
  cases sought
  have started : Traffic.start (.scan route id (.seek target)) { service } =
      ([.called 0 (.scan route id (.seek target)), .answered 0 .ready],
        { service := after, calls := 1 }) := by
    simp [Traffic.start_live { service } serves.live, Traffic.startAction, result, Traffic.answer]
  exact ⟨after, perform_at_once started, wasIssued_of_eq touched.issued issued, next⟩

theorem Serves.run_fetch (serves : service.Serves id .advancing mark outlook) (call : Nat)
    (mode : Mode) :
    Task.run ⟨call, id, .fetch mode⟩ service =
      ([], some ⟨call, id, .leave mode (.page (outlook.page mark).1)⟩, (service.fetch mode id).2) := by
  simp only [Task.run, (fetch_serves serves mode).1, Reply.ofPage]

theorem Serves.run_leave_waiting (serves : service.Serves id .advancing mark outlook) (call : Nat)
    (outcome : Reply) :
    Task.run ⟨call, id, .leave .waiting outcome⟩ service =
      ([.left call id, .answered call outcome], none, (service.leave id).2) := by
  simp only [Task.run, (leave_serves serves).1]

theorem Serves.run_leave_pooled (serves : service.Serves id .advancing mark outlook) (call : Nat)
    (outcome : Reply) :
    Task.run ⟨call, id, .leave .pooled outcome⟩ service =
      ([.left call id], some ⟨call, id, .deliver outcome false⟩, (service.leave id).2) := by
  simp only [Task.run, (leave_serves serves).1]

theorem advance_runsOut (serves : service.Serves id .advancing mark outlook) (call : Nat)
    (mode : Mode) :
    ∃ events after, Task.RunsOut ⟨call, id, .fetch mode⟩ service events after ∧
      Traffic.reply? call events = some (.page (outlook.page mark).1) ∧
      after.Serves id .idle mark (outlook.page mark).2 ∧
      after.roster.issued = service.roster.issued := by
  obtain ⟨-, fetched⟩ := fetch_serves serves mode
  obtain ⟨-, left⟩ := leave_serves fetched
  have issued := ((service.fetch_changes id mode).touches.trans
    ((service.fetch mode id).2.leave_changes id).touches).issued
  have fetch := serves.run_fetch call mode
  cases mode with
  | waiting =>
    exact ⟨_, _, .more fetch (.last (fetched.run_leave_waiting call _)), by simp [Traffic.reply?], left,
      issued⟩
  | pooled =>
    exact ⟨_, _, .more fetch (.more (fetched.run_leave_pooled call _) (.last rfl)),
      by simp [Traffic.reply?], left, issued⟩

theorem perform_advance (issued : service.roster.wasIssued id = true)
    (serves : service.Serves id .idle mark outlook) (route : Route) (mode : Mode) :
    ∃ after, service.perform (.scan route id (.advance mode)) =
        (.page (outlook.page mark).1, after) ∧
      after.Stands id (.open mark (outlook.page mark).2) := by
  obtain ⟨admitted, begun⟩ := beginAdvance_serves serves
  have began := (service.beginAdvance_changes id).touches
  rcases beginning : service.beginAdvance id with ⟨outcome, middle⟩
  rw [beginning] at admitted begun began
  cases admitted
  obtain ⟨events, after, out, replied, left, kept⟩ := advance_runsOut begun 0 mode
  have started : Traffic.start (.scan route id (.advance mode)) { service } =
      ([.called 0 (.scan route id (.advance mode)), .begun 0 id],
        { service := middle, tasks := [⟨0, id, .fetch mode⟩], calls := 1 }) := by
    simp [Traffic.start_live { service } serves.live, Traffic.startAction, beginning, Traffic.addTask]
  refine ⟨after, ?_, wasIssued_of_eq (kept.trans began.issued) issued, left⟩
  rw [perform_task started out]
  simp [Traffic.reply?, replied]

theorem requestEnd_idle {scan : Scan TableWalker} (waiter : Option Nat)
    (found : service.scan? id = some scan) (idle : scan.admission = ⟨.idle, []⟩) :
    ∃ after, service.requestEnd waiter id = (.now, after) ∧
      after.scan? id = some { scan with admission := ⟨.ending, waiter.toList⟩ } ∧
      after.roster.issued = service.roster.issued := by
  refine ⟨service.update id fun scan => { scan with admission := ⟨.ending, waiter.toList⟩ }, ?_, ?_,
    rfl⟩
  · simp [requestEnd, found, idle, Admission.requestEnd]
  · rw [scan?_update, if_pos rfl, found]
    rfl

theorem perform_end (issued : service.roster.wasIssued id = true)
    (serves : service.Serves id .idle mark outlook) (route : Route) {action : Action}
    (waiter : Option Nat) (ending : Ending)
    (granted : ∀ middle, service.requestEnd waiter id = (.now, middle) →
      Traffic.startAction action id 0 { service, calls := 1 } =
        ([.granted 0 id false],
          { service := middle, tasks := [⟨0, id, .release ending⟩], calls := 1 }))
    (told : waiter.toList.map (fun call => Event.answered call (.ended true)) ++
      ending.reply.toList.map (.answered 0) = [.answered 0 (.ended true)]) :
    ∃ after, service.perform (.scan route id action) = (.ended true, after) ∧
      after.Stands id .finished := by
  obtain ⟨live, scan, sequence, found, idle, -⟩ := serves
  obtain ⟨middle, asked, taken, kept⟩ := requestEnd_idle waiter found idle
  obtain ⟨after, out, ended, same⟩ := end_runsOut 0 ending taken rfl
  have started : Traffic.start (.scan route id action) { service } =
      ([.called 0 (.scan route id action), .granted 0 id false],
        { service := middle, tasks := [⟨0, id, .release ending⟩], calls := 1 }) := by
    rw [Traffic.start_live { service } live, granted middle asked]
  refine ⟨after, ?_, wasIssued_of_eq (same.trans kept) issued, ended⟩
  rw [perform_task started out]
  simp only [List.cons_append, told]
  rfl

private theorem requestEnd_over (ended : service.phase? id = some .ended) (waiter : Option Nat) :
    ∃ after, service.requestEnd waiter id = (.alreadyEnded, after) ∧
      after.phase? id = some .ended ∧ after.roster.issued = service.roster.issued := by
  obtain ⟨scan, found, phase⟩ := Option.map_eq_some_iff.mp ended
  have refused : service.requestEnd waiter id = (.alreadyEnded, (service.requestEnd waiter id).2) := by
    simp [requestEnd, found, Admission.requestEnd, phase]
  refine ⟨_, refused, ?_, (service.requestEnd_changes id waiter).touches.issued⟩
  have kept := requestEnd_decided refused
  rw [phase?_eq_condition, kept, ← phase?_eq_condition, ended]

theorem startAction_over (ended : service.phase? id = some .ended) (action : Action)
    (call calls : Nat) :
    ∃ after, Traffic.startAction action id call { service, calls } =
        ([.answered call (Standing.finished.answer action).1], { service := after, calls }) ∧
      after.phase? id = some .ended ∧ after.roster.issued = service.roster.issued := by
  obtain ⟨scan, found, phase⟩ := Option.map_eq_some_iff.mp ended
  cases action with
  | seek target =>
    refine ⟨service, ?_, ended, rfl⟩
    simp [Traffic.startAction, seek, found, Admission.checkSeek, phase, countRefusal, Failure.report,
      Report.make, Traffic.answer, Standing.answer]
  | advance mode =>
    refine ⟨service, ?_, ended, rfl⟩
    simp [Traffic.startAction, beginAdvance, found, Admission.begin, phase, countRefusal,
      Failure.report, Report.make, Traffic.answer, Standing.answer]
  | endNow =>
    obtain ⟨after, refused, still, issued⟩ := requestEnd_over ended none
    exact ⟨after, by simp [Traffic.startAction, refused, Traffic.answer, Standing.answer], still,
      issued⟩
  | endLater =>
    obtain ⟨after, refused, still, issued⟩ := requestEnd_over ended (some call)
    exact ⟨after, by simp [Traffic.startAction, refused, Traffic.answer, Standing.answer], still,
      issued⟩

/-- By every route, those who call on a scan that has ended get the same answer. -/
theorem perform_over (issued : service.roster.wasIssued id = true)
    (ended : service.phase? id = some .ended) (route : Route) (action : Action) :
    ∃ after, service.perform (.scan route id action) = ((Standing.finished.answer action).1, after) ∧
      after.Stands id .finished := by
  obtain ⟨after, turned, still, kept⟩ := startAction_over ended action 0 1
  have whole : ∀ request : Request,
      Traffic.start request { service } = ([.called 0 request,
        .answered 0 (Standing.finished.answer action).1], { service := after, calls := 1 }) →
      service.perform request = ((Standing.finished.answer action).1, after) :=
    fun _ started => perform_at_once started
  by_cases live : service.roster.isLive id = true
  · refine ⟨after, whole _ ?_, wasIssued_of_eq kept issued, still⟩
    rw [Traffic.start_live { service } live, turned]
  · cases route with
    | held =>
      refine ⟨after, whole _ ?_, wasIssued_of_eq kept issued, still⟩
      simp only [Traffic.start, Traffic.startRequest]
      rw [turned]
    | roster =>
      have gone : service.lookUp id = .error .ended := by simp [lookUp, live, issued]
      have started : Traffic.start (.scan .roster id action) { service } =
          ([.called 0 (.scan .roster id action), .answered 0 (Traffic.turnedAway action .ended)],
            { service, calls := 1 }) := by
        simp [Traffic.start, Traffic.startRequest, gone, Traffic.answer]
      refine ⟨service, ?_, issued, ended⟩
      rw [perform_at_once started]
      cases action <;> rfl

/-- A call on a scan is answered as the scan stands, by whatever route it comes. -/
theorem perform_stands {standing : Standing} (stands : service.Stands id standing) (route : Route)
    (action : Action) :
    ∃ after, service.perform (.scan route id action) = ((standing.answer action).1, after) ∧
      after.Stands id (standing.answer action).2 := by
  obtain ⟨issued, state⟩ := stands
  cases standing with
  | finished =>
    obtain ⟨after, performed, stands⟩ := perform_over issued state route action
    refine ⟨after, performed, ?_⟩
    cases action <;> exact stands
  | «open» mark outlook =>
    cases action with
    | seek target => exact perform_seek issued state route target
    | advance mode => exact perform_advance issued state route mode
    | endNow =>
      refine perform_end issued state route none ⟨false, some (.ended true)⟩ ?_ rfl
      intro middle asked
      simp [Traffic.startAction, asked, Traffic.addTask]
    | endLater =>
      refine perform_end issued state route (some 0) ⟨false, none⟩ ?_ rfl
      intro middle asked
      simp [Traffic.startAction, asked, Traffic.addTask]

theorem perform_create {after : Service MemoryEngine TableWalker} {options : ScanOptions}
    (opened : service.create options = (.ok id, after)) :
    service.perform (.create options) = (.created id, after) := by
  have started : Traffic.start (.create options) { service } =
      ([.called 0 (.create options), .answered 0 (.created id)], { service := after, calls := 1 }) := by
    simp [Traffic.start, Traffic.startRequest, opened, Traffic.answer]
  exact perform_at_once started

theorem perform_create_refused {failure : Failure} {options : ScanOptions}
    (refused : Window.ofOptions options = .error failure) :
    service.perform (.create options) = (.failed failure, service) := by
  have kept : service.create options = (.error failure, service) := by
    unfold create
    rw [refused]
  have started : Traffic.start (.create options) { service } =
      ([.called 0 (.create options), .answered 0 (.failed failure)], { service, calls := 1 }) := by
    simp [Traffic.start, Traffic.startRequest, kept, Traffic.answer]
  exact perform_at_once started

/-- A new scan stands at the start of its window over the present contents. -/
theorem create_stands {after : Service MemoryEngine TableWalker} {options : ScanOptions}
    {created : Nat} (numbered : service.Numbered created) (room : created + 1 < 2 ^ 32)
    (opened : service.create options = (.ok id, after)) :
    ∃ window, Window.ofOptions options = .ok window ∧
      after.Stands id (.open options.highWaterMark (.start window service.engine.live)) := by
  obtain ⟨window, accepted, found, live, engine⟩ := create_own numbered room opened
  obtain ⟨_, -, rfl, -, roster, -⟩ := create_ok opened
  refine ⟨window, accepted, ?_, live, _, service.engine.sequence, found, rfl, rfl, ?_, ?_, ?_⟩
  · have next := numbered.toNat_next room
    rw [roster, Roster.wasIssued, Bool.and_eq_true, decide_eq_true_eq, decide_eq_true_eq]
    refine ⟨?_, UInt32.le_refl _⟩
    intro zero
    rw [zero] at next
    exact absurd next (by simp)
  · rw [engine]
    exact UInt64.le_refl _
  · exact Reader.new_sees window options.fillCache service.engine
  · rw [engine]
    rfl

end Service
end KeyScan
