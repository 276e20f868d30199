import KeyScan.Proofs.Service.Counts
import KeyScan.Proofs.Traffic.Admittance

/-! The books of traffic. What the service counts at a section is seldom what is seen at that section:
a page is counted when it is read and seen when it is handed over, an end is seen when it is granted
and counted when all else is done. What is counted and what is seen agree if the outcomes that tasks
have in hand are seen as well, and the ends that they owe are counted. -/
namespace KeyScan

def Request.reads : Request → Bool
  | .scan _ _ action => action.reads
  | .create _ | .close => false

def Request.mode? : Request → Option Mode
  | .scan _ _ (.advance mode) => some mode
  | _ => none

/-- What the reply to a request shows of the counts. -/
def Request.occurrence? (request : Request) : Reply → Option Occurrence
  | .created _ => some .created
  | .ready => some (.sought false)
  | .page page => request.mode?.map fun mode =>
      .advanced mode page.entries.length.toUInt64 page.size.toUInt64
  | .failed failure => if request.reads then failure.occurrence? else none
  | .ended _ | .closed => none

/-- What was asked under a number, if it is that of a call. -/
def requestOf? (events : List Event) (call : Nat) : Option Request :=
  events.findSome? fun
    | .called number request => if number = call then some request else none
    | _ => none

/-- The replies among some events to what was asked under their numbers. -/
def repliesTo (asked : Nat → Option Request) (events : List Event) : List (Request × Reply) :=
  events.filterMap fun
    | .answered call reply => (asked call).map (·, reply)
    | _ => none

def replies (events : List Event) : List (Request × Reply) := repliesTo (requestOf? events) events

def grants (events : List Event) : List (ScanId × Bool) :=
  events.filterMap fun
    | .granted _ id deferred => some (id, deferred)
    | _ => none

/-- What some events show of the counts. -/
def shown (asked : Nat → Option Request) (events : List Event) : List Occurrence :=
  ((repliesTo asked events).filterMap fun item => item.1.occurrence? item.2) ++
    (grants events).map fun grant => .ended grant.2

/-- What a reply under a number shows of the counts. -/
def showing (asked : Nat → Option Request) (call : Nat) (reply : Reply) : Option Occurrence :=
  (asked call).bind fun request => request.occurrence? reply

/-- What the reply that a task carries will show. -/
def Task.inHand? (asked : Nat → Option Request) (task : Task) : Option Occurrence :=
  task.stage.hand?.bind (showing asked task.call)

/-- The end that a task has still to have counted. An advance owes the end of its scan from the time
that it is put off. -/
def Task.owed? {σ ι : Type} (service : Service σ ι) (task : Task) : Option Occurrence :=
  match task.stage with
  | .fetch _ | .leave _ _ =>
    if service.phase? task.id = some .ending then some (.ended true) else none
  | .deliver _ pending => if pending then some (.ended true) else none
  | .release ending | .withdraw ending | .conclude ending | .settle ending =>
    some (.ended ending.deferred)

/-- What is counted while some tasks give way to others is what the events show, but for what the
tasks before and after have in hand and what they owe. -/
def Books {σ ι : Type} (asked : Nat → Option Request) (events : List Event) (before : Service σ ι)
    (tasks : List Task) (after : Service σ ι) (rest : List Task) : Prop :=
  ∃ occurrences, after.tally = before.tally.recordAll occurrences ∧
    (occurrences.map Occurrence.plain ++ rest.filterMap (Task.owed? after) ++
      tasks.filterMap (Task.inHand? asked)).Perm
    (shown asked events ++ tasks.filterMap (Task.owed? before) ++
      rest.filterMap (Task.inHand? asked))

section Lists

variable (asked : Nat → Option Request)

@[simp] theorem shown_nil : shown asked [] = [] := rfl

@[simp] theorem shown_answered (call : Nat) (reply : Reply) (rest : List Event) :
    shown asked (.answered call reply :: rest) =
      (showing asked call reply).toList ++ shown asked rest := by
  cases known : asked call with
  | none => simp [shown, repliesTo, grants, showing, known]
  | some request =>
    cases shows : request.occurrence? reply <;>
      simp [shown, repliesTo, grants, showing, known, shows]

theorem shown_granted (call : Nat) (id : ScanId) (deferred : Bool) :
    shown asked [.granted call id deferred] = [.ended deferred] := rfl

private theorem count_shown_append (occurrence : Occurrence) (first second : List Event) :
    (shown asked (first ++ second)).count occurrence =
      (shown asked first).count occurrence + (shown asked second).count occurrence := by
  simp only [shown, repliesTo, grants, List.filterMap_append, List.map_append, List.count_append]
  omega

/-- Only replies and the grants of ends show anything. -/
@[simp] theorem shown_others (rest : List Event) :
    (∀ call request, shown asked (.called call request :: rest) = shown asked rest) ∧
      (∀ call id, shown asked (.begun call id :: rest) = shown asked rest) ∧
      (∀ call id, shown asked (.left call id :: rest) = shown asked rest) ∧
      (∀ call id, shown asked (.released call id :: rest) = shown asked rest) ∧
      (∀ call id, shown asked (.withdrawn call id :: rest) = shown asked rest) ∧
      ∀ call id, shown asked (.concluded call id :: rest) = shown asked rest :=
  ⟨fun _ _ => rfl, fun _ _ => rfl, fun _ _ => rfl, fun _ _ => rfl, fun _ _ => rfl, fun _ _ => rfl⟩

@[simp] theorem showing_ended (call : Nat) (flag : Bool) : showing asked call (.ended flag) = none := by
  exact Option.bind_eq_none_iff.mpr fun _ _ => rfl

@[simp] theorem shown_told (told : List Nat) :
    shown asked (told.map fun call => .answered call (.ended true)) = [] := by
  induction told with
  | nil => rfl
  | cons call rest ih => simp [ih]

@[simp] theorem shown_option (call : Nat) (reply : Option Reply) :
    shown asked (reply.toList.map (.answered call)) = (reply.bind (showing asked call)).toList := by
  cases reply <;> simp

end Lists

section Owed

variable {σ ι : Type} {before after : Service σ ι} {task : Task} {id : ScanId}

private theorem Task.owed?_of_advance (bound : task.stage.duty? = some .advance) (service : Service σ ι) :
    task.owed? service =
      if service.phase? task.id = some .ending then some (.ended true) else none := by
  obtain ⟨call, id, stage⟩ := task
  cases stage with
  | fetch mode | leave mode outcome => rfl
  | deliver outcome pending => cases pending <;> cases bound
  | _ => cases bound

/-- What a task owes depends on the service only where it advances a scan. -/
theorem Task.owed?_eq (same : task.stage.duty? = some .advance →
      (after.phase? task.id = some .ending ↔ before.phase? task.id = some .ending)) :
    task.owed? after = task.owed? before := by
  by_cases bound : task.stage.duty? = some .advance
  · simp only [owed?_of_advance bound, same bound]
  · obtain ⟨call, id, stage⟩ := task
    cases stage with
    | fetch mode | leave mode outcome => exact absurd rfl bound
    | _ => rfl

private theorem Task.owed?_of_condition (same : after.condition? task.id = before.condition? task.id) :
    task.owed? after = task.owed? before :=
  owed?_eq fun _ => by rw [Service.phase?_eq_condition, Service.phase?_eq_condition, same]

private theorem Task.owed?_of_touches (touched : before.Touches id after)
    (unbound : task.duty? id ≠ some .advance) : task.owed? after = task.owed? before := by
  by_cases own : task.id = id
  · refine owed?_eq fun bound => absurd ?_ unbound
    rw [Task.duty?, if_pos own, bound]
  · exact owed?_of_condition (touched.condition own)

end Owed

namespace Books

variable {σ ι : Type} {asked : Nat → Option Request} {events : List Event}
  {before after : Service σ ι} {tasks rest front back : List Task}

/-- Other tasks do not matter, if they owe what they owed. -/
theorem frame (books : Books asked events before tasks after rest)
    (same : ∀ task ∈ front ++ back, task.owed? after = task.owed? before) :
    Books asked events before (front ++ tasks ++ back) after (front ++ rest ++ back) := by
  obtain ⟨occurrences, tally, balance⟩ := books
  have early : front.filterMap (Task.owed? after) = front.filterMap (Task.owed? before) :=
    List.filterMap_congr fun task member => same task (List.mem_append_left _ member)
  have late : back.filterMap (Task.owed? after) = back.filterMap (Task.owed? before) :=
    List.filterMap_congr fun task member => same task (List.mem_append_right _ member)
  refine ⟨occurrences, tally, List.perm_iff_count.mpr fun occurrence => ?_⟩
  have counted := balance.count_eq occurrence
  simp only [List.filterMap_append, List.count_append, early, late] at counted ⊢
  omega

theorem adds (books : Books asked events before [] after rest)
    (same : ∀ task ∈ tasks, task.owed? after = task.owed? before) :
    Books asked events before tasks after (tasks ++ rest) := by
  have framed : Books asked events before (tasks ++ [] ++ []) after (tasks ++ rest ++ []) :=
    books.frame (by simpa using same)
  simpa using framed

theorem counts {occurrences : List Occurrence}
    (tally : after.tally = before.tally.recordAll occurrences)
    (shows : occurrences.map Occurrence.plain = shown asked events)
    (same : ∀ task ∈ tasks, task.owed? after = task.owed? before) :
    Books asked events before tasks after tasks := by
  refine ⟨occurrences, tally, ?_⟩
  rw [shows, List.filterMap_congr same]

theorem idle (tally : after.tally = before.tally) (shows : shown asked events = [])
    (same : ∀ task ∈ tasks, task.owed? after = task.owed? before) :
    Books asked events before tasks after tasks :=
  have nothing : after.tally = before.tally.recordAll [] := tally
  counts nothing shows.symm same

theorem of_shown {others : List Event} (books : Books asked events before tasks after rest)
    (same : shown asked others = shown asked events) : Books asked others before tasks after rest := by
  unfold Books
  rw [same]
  exact books

theorem trans {more : List Event} {later : Service σ ι} {last : List Task}
    (books : Books asked events before tasks after rest)
    (next : Books asked more after rest later last) :
    Books asked (events ++ more) before tasks later last := by
  obtain ⟨one, tally, first⟩ := books
  obtain ⟨two, total, second⟩ := next
  refine ⟨one ++ two, by rw [total, tally, Tally.recordAll_append], ?_⟩
  refine List.perm_iff_count.mpr fun occurrence => ?_
  have before := first.count_eq occurrence
  have after := second.count_eq occurrence
  simp only [List.map_append, List.count_append, count_shown_append] at before after ⊢
  omega

end Books

@[simp] theorem Failure.plain_occurrence? (failure : Failure) :
    failure.occurrence?.toList.map Occurrence.plain = failure.occurrence?.toList := by
  cases failure <;> rfl

namespace Service

variable {σ ι : Type}

/-- An advance that leaves finds an end waiting exactly if its scan is about to end. -/
theorem leave_pending (service : Service σ ι) (id : ScanId) :
    (service.leave id).1 = decide (service.phase? id = some .ending) := by
  unfold leave phase? Admission.finish
  cases service.scan? id with
  | none => rfl
  | some scan => cases phase : scan.admission.phase <;> simp [phase]

end Service

variable {σ ι : Type} [Engine σ ι] {asked : Nat → Option Request}

/-- A section of a task keeps the books, if an advance finds its scan held and its call known. -/
theorem Task.run_books {task : Task} {service : Service σ ι} (pinned : service.Pinned)
    (fetches : ∀ mode, task.stage = .fetch mode →
      (∃ phase live, service.condition? task.id = some ⟨phase, false, live⟩) ∧
        ∃ route id, asked task.call = some (.scan route id (.advance mode))) :
    Books asked (task.run service).1 service [task] (task.run service).2.2
      (task.run service).2.1.toList := by
  obtain ⟨call, id, stage⟩ := task
  cases stage with
  | fetch mode =>
    -- what is counted here is in hand until it is handed over
    obtain ⟨⟨phase, live, held⟩, route, own, known⟩ := fetches mode rfl
    have tally := Service.fetch_tally mode pinned held
    have kept : (service.fetch mode id).2.phase? id = service.phase? id := by
      rw [Service.phase?_eq_condition, Service.phase?_eq_condition, Service.fetch_condition]
    simp only at known
    unfold Books
    simp only [run, Option.toList_some, filterMap_cons_toList, List.filterMap_nil, owed?, kept]
    cases read : (service.fetch mode id).1 with
    | ok page =>
      rw [read] at tally
      refine ⟨[.advanced mode page.entries.length.toUInt64 page.size.toUInt64], tally, ?_⟩
      simpa [inHand?, Stage.hand?, showing, Reply.ofPage, Request.occurrence?, Request.mode?,
        known, Occurrence.plain] using (List.perm_append_singleton ..).symm
    | error failure =>
      rw [read] at tally
      refine ⟨failure.occurrence?.toList, tally, ?_⟩
      simpa [inHand?, Stage.hand?, showing, Reply.ofPage, Request.occurrence?, Request.reads,
        Action.reads, known] using List.perm_append_comm
  | leave mode outcome =>
    -- an end that waits is owed by the advance before, and by what is left of the task after
    have pending := service.leave_pending id
    simp only [run]
    split
    · refine ⟨[], service.leave_tally id, ?_⟩
      simp [filterMap_cons_toList, owed?, inHand?, Stage.hand?, pending]
    · rename_i waits
      rw [waits, eq_comm, decide_eq_true_eq] at pending
      refine ⟨[], service.leave_tally id, ?_⟩
      simp [filterMap_cons_toList, owed?, inHand?, Stage.hand?, pending]
    · rename_i waits
      rw [waits, eq_comm, decide_eq_false_iff_not] at pending
      refine ⟨[], service.leave_tally id, ?_⟩
      simp [filterMap_cons_toList, owed?, inHand?, Stage.hand?, pending]
  | deliver outcome pending =>
    refine ⟨[], rfl, ?_⟩
    cases pending with
    | false => simp [filterMap_cons_toList, run, owed?, inHand?, Stage.hand?]
    | true =>
      simpa [filterMap_cons_toList, run, owed?, inHand?, Stage.hand?]
        using (List.perm_append_singleton ..).symm
  | release ending =>
    refine ⟨[], service.release_tally id, ?_⟩
    simp [filterMap_cons_toList, run, owed?, inHand?, Stage.hand?]
  | withdraw ending =>
    refine ⟨[], rfl, ?_⟩
    simp [filterMap_cons_toList, run, owed?, inHand?, Stage.hand?]
  | conclude ending =>
    refine ⟨[], service.conclude_tally id, ?_⟩
    simp [filterMap_cons_toList, run, owed?, inHand?, Stage.hand?]
  | settle ending =>
    -- the end is counted and no longer owed
    refine ⟨[.ended ending.deferred], rfl, ?_⟩
    simpa [filterMap_cons_toList, run, owed?, inHand?, Stage.hand?, Occurrence.plain]
      using (List.perm_append_singleton ..).symm

private theorem Errand.called_of_fetch {task : Task} {mode : Mode} {events : List Event} {pause : Pause}
    (errand : Errand task.call events [task] pause) (fetch : task.stage = .fetch mode) :
    ∃ route, .called task.call (.scan route task.id (.advance mode)) ∈ events := by
  obtain ⟨call, id, stage⟩ := task
  cases fetch
  cases errand with
  | fetch route => exact ⟨route, List.mem_cons_self⟩

namespace Service

private theorem create_ending {service after : Service σ ι} {options : ScanOptions} {id : ScanId}
    (opened : service.create options = (.ok id, after)) (other : ScanId) :
    after.phase? other = some .ending ↔ service.phase? other = some .ending := by
  obtain ⟨window, -, rfl, scans, -⟩ := create_ok opened
  unfold phase? scan?
  rw [scans, List.lookup_append]
  cases service.scans.lookup other with
  | some scan => rfl
  | none =>
    simp only [Option.none_or, List.lookup_cons, List.lookup_nil]
    split <;> simp

private theorem beginAdvance_ending (service : Service σ ι) (id other : ScanId) :
    (service.beginAdvance id).2.phase? other = some .ending ↔ service.phase? other = some .ending := by
  have touched := (service.beginAdvance_changes id).touches
  simp only [phase?_eq_condition]
  by_cases own : other = id
  · subst own
    rcases begun : service.beginAdvance other with ⟨_ | _, after⟩
    · rw [beginAdvance_error begun]
    · obtain ⟨released, live, before, after⟩ := beginAdvance_ok begun
      simp [before, after]
  · rw [touched.condition own]

end Service

private theorem Task.run_owed {task other : Task} (service : Service σ ι)
    (alone : task.duty? task.id ≠ none → other.duty? task.id = none) :
    other.owed? (task.run service).2.2 = other.owed? service := by
  by_cases bound : task.stage.duty? = none
  · have kept : (task.run service).2.2.condition? other.id = service.condition? other.id := by
      obtain ⟨call, id, stage⟩ := task
      cases stage with
      | deliver outcome pending | settle ending => rfl
      | _ => cases bound
    exact owed?_of_condition kept
  · refine owed?_of_touches (task.run_touches service) ?_
    simp [alone (by simpa [Task.duty?] using bound)]

namespace Traffic

variable {traffic : Traffic σ ι} {past : List Event} {id : ScanId}

omit [Engine σ ι] in
/-- An end that is put off is shown, and owed by the advance that it waits for. -/
theorem deferred_books {service after : Service σ ι} {tasks : List Task} {milestones : List Milestone}
    (call : Nat) (life : Life (service.condition? id) (duties id tasks) milestones)
    (touched : service.Touches id after) (tally : after.tally = service.tally)
    (decided : Service.Decided .deferred (service.condition? id) (after.condition? id)) :
    Books asked [.granted call id true] service tasks after tasks := by
  obtain ⟨released, live, advancing, ending⟩ := decided
  have owed : .advance ∈ duties id tasks := by
    have phase : (service.condition? id).map Condition.phase = some (if true then .advancing else .idle) := by
      rw [advancing]
      rfl
    exact (life.advance_iff phase).mp rfl
  -- the advance is the only task that is bound to the scan, and now owes its end
  obtain ⟨task, member, bound⟩ := List.mem_filterMap.mp owed
  obtain ⟨front, back, rfl⟩ := List.append_of_mem member
  have split : front ++ task :: back = front ++ [task] ++ back := by simp
  rw [split] at life ⊢
  have others := life.unbound (bound ▸ Option.some_ne_none _)
  refine Books.frame ⟨[], tally, ?_⟩ fun other member =>
    Task.owed?_of_touches touched (by simp [others other member])
  obtain ⟨rfl, duty⟩ : task.id = id ∧ task.stage.duty? = some .advance := by
    by_cases own : task.id = id
    · exact ⟨own, by simpa [Task.duty?, own] using bound⟩
    · simp [Task.duty?, own] at bound
  have before : task.owed? service = none := by
    rw [Task.owed?_of_advance duty, Service.phase?_eq_condition, advancing]
    rfl
  have after : task.owed? after = some (.ended true) := by
    rw [Task.owed?_of_advance duty, Service.phase?_eq_condition, ending]
    rfl
  simp [filterMap_cons_toList, before, after, shown_granted]

omit [Engine σ ι] in
theorem requested_books {service after : Service σ ι} {tasks : List Task}
    {milestones : List Milestone} {verdict : Verdict} (call : Nat) (ending : Ending)
    (immediate : ending.deferred = false) (nothing : ending.reply.bind (showing asked call) = none)
    (life : Life (service.condition? id) (duties id tasks) milestones)
    (touched : service.Touches id after) (tally : after.tally = service.tally)
    (decided : Service.Decided verdict (service.condition? id) (after.condition? id)) :
    match verdict with
    | .now => Books asked [.granted call id false] service tasks after
        (tasks ++ [⟨call, id, .release ending⟩])
    | .deferred => Books asked [.granted call id true] service tasks after tasks
    | .alreadyEnded => Books asked [] service tasks after tasks := by
  cases verdict with
  | deferred => exact deferred_books call life touched tally decided
  | alreadyEnded =>
    refine .idle tally rfl fun task _ => ?_
    by_cases own : task.id = id
    · exact Task.owed?_of_condition (own ▸ decided)
    · exact Task.owed?_of_condition (touched.condition own)
  | now =>
    obtain ⟨released, live, idle, -⟩ := decided
    have unowed : .advance ∉ duties id tasks := by
      have phase : (service.condition? id).map Condition.phase =
          some (if false then .advancing else .idle) := by
        rw [idle]
        rfl
      exact fun owed => nomatch (life.advance_iff phase).mpr owed
    refine Books.adds ⟨[], tally, ?_⟩ fun task member => Task.owed?_of_touches touched fun bound =>
      unowed (List.mem_filterMap.mpr ⟨task, member, bound⟩)
    simp [shown_granted, Task.owed?, Task.inHand?, Stage.hand?, immediate, nothing]

theorem startAction_books {milestones : ScanId → List Milestone} {route : Route} {own : ScanId}
    (action : Action) (call : Nat) (pinned : traffic.service.Pinned)
    (life : Life (traffic.service.condition? id) (duties id traffic.tasks) (milestones id))
    (known : asked call = some (.scan route own action)) :
    Books asked (traffic.startAction action id call).1 traffic.service traffic.tasks
      (traffic.startAction action id call).2.service (traffic.startAction action id call).2.tasks := by
  cases action with
  | seek target =>
    have held : ∀ released live, traffic.service.condition? id = some ⟨.idle, released, live⟩ →
        released = false := fun released live idle => (idle ▸ life).held (.inr rfl)
    obtain ⟨occurrences, tally, plain⟩ := Service.seek_tally target pinned held
    have same (task : Task) : task.owed? (traffic.service.seek target id).2 = task.owed? traffic.service :=
      Task.owed?_of_condition (traffic.service.seek_condition target id task.id)
    simp only [startAction]
    rcases sought : traffic.service.seek target id with ⟨failure | _, service⟩
    all_goals
      rw [sought] at tally plain same
      refine .counts tally ?_ fun task _ => same task
      simp [plain, answer, showing, known, Request.occurrence?, Request.reads, Action.reads]
  | advance mode =>
    have tally := traffic.service.beginAdvance_tally id
    have same (task : Task) : task.owed? (traffic.service.beginAdvance id).2 = task.owed? traffic.service :=
      Task.owed?_eq fun _ => traffic.service.beginAdvance_ending id task.id
    simp only [startAction]
    rcases begun : traffic.service.beginAdvance id with ⟨failure | _, service⟩
    all_goals rw [begun] at tally same
    · refine .counts tally ?_ fun task _ => same task
      simp [answer, showing, known, Request.occurrence?, Request.reads, Action.reads]
    · obtain ⟨released, live, -, advancing⟩ := Service.beginAdvance_ok begun
      refine Books.adds ⟨[], tally, ?_⟩ fun task _ => same task
      simp [addTask, filterMap_cons_toList, Task.owed?, Task.inHand?, Stage.hand?,
        Service.phase?_eq_condition, advancing]
  | endNow =>
    have touched := (traffic.service.requestEnd_changes id none).touches
    have tally := traffic.service.requestEnd_tally none id
    have nothing : (some (Reply.ended true)).bind (showing asked call) = none := by simp
    simp only [startAction]
    rcases requested : traffic.service.requestEnd none id with ⟨verdict, service⟩
    rw [requested] at touched tally
    have books := requested_books call ⟨false, _⟩ rfl nothing life touched
      tally (Service.requestEnd_decided requested)
    cases verdict with
    | now => exact books
    | deferred =>
      refine books.of_shown ?_
      simp [shown, repliesTo, grants, known, Request.occurrence?, Request.reads, Action.reads]
    | alreadyEnded => exact books.of_shown (by simp [answer])
  | endLater =>
    have touched := (traffic.service.requestEnd_changes id (some call)).touches
    have tally := traffic.service.requestEnd_tally (some call) id
    have nothing : (none : Option Reply).bind (showing asked call) = none := rfl
    simp only [startAction]
    rcases requested : traffic.service.requestEnd (some call) id with ⟨verdict, service⟩
    rw [requested] at touched tally
    have books := requested_books call ⟨false, _⟩ rfl nothing life touched
      tally (Service.requestEnd_decided requested)
    cases verdict with
    | now | deferred => exact books
    | alreadyEnded => exact books.of_shown (by simp [answer])

theorem startRequest_books {milestones : ScanId → List Milestone} (request : Request) (call : Nat)
    (pinned : traffic.service.Pinned)
    (life : ∀ id, Life (traffic.service.condition? id) (duties id traffic.tasks) (milestones id))
    (known : asked call = some request) :
    Books asked (traffic.startRequest request call).1 traffic.service traffic.tasks
      (traffic.startRequest request call).2.service (traffic.startRequest request call).2.tasks := by
  cases request with
  | create options =>
    simp only [startRequest]
    split
    · rename_i id service opened
      refine .counts (Service.create_tally opened) ?_ fun task _ =>
        Task.owed?_eq fun _ => Service.create_ending opened task.id
      simp [answer, showing, known, Request.occurrence?, Occurrence.plain]
    · rename_i failure service refused
      rw [Service.create_error refused]
      refine .idle rfl ?_ fun _ _ => rfl
      simp [answer, showing, known, Request.occurrence?, Request.reads]
  | scan route id action =>
    cases route with
    | held => exact startAction_books action call pinned (life id) known
    | roster =>
      simp only [startRequest]
      split
      · exact startAction_books action call pinned (life id) known
      · rename_i failure missed
        refine .idle rfl ?_ fun _ _ => rfl
        have away : failure = .ended ∨ failure = .unknownScan id := by
          unfold Service.lookUp at missed
          grind
        rcases away with rfl | rfl <;> cases action <;>
          simp [answer, turnedAway, showing, known, Request.occurrence?, Request.reads, Action.reads,
            Failure.occurrence?]
  | close =>
    simp only [startRequest]
    split
    · refine .idle rfl ?_ fun _ _ => rfl
      simp [answer, showing, known, Request.occurrence?]
    · exact .idle rfl rfl fun _ _ => rfl

/-- A close keeps the books, for nothing is shown of it or of what it asks for but the ends. -/
theorem pursue_books {milestones : ScanId → List Milestone} (place : Nat)
    (life : ∀ id, Life (traffic.service.condition? id) (duties id traffic.tasks) (milestones id))
    (known : ∀ closing ∈ traffic.closings, asked closing.call = some .close) :
    Books asked (traffic.pursue place).1 traffic.service traffic.tasks
      (traffic.pursue place).2.service (traffic.pursue place).2.tasks := by
  unfold pursue
  split
  · exact .idle rfl rfl fun _ _ => rfl
  · rename_i closing found
    split
    · rename_i id left _
      have touched := (traffic.service.requestOrJoinEnd_changes id traffic.calls).touches
      have tally := traffic.service.requestOrJoinEnd_tally traffic.calls id
      have nothing : (none : Option Reply).bind (showing asked traffic.calls) = none := rfl
      simp only [ask]
      rcases requested : traffic.service.requestOrJoinEnd traffic.calls id with ⟨verdict, joined, service⟩
      rw [requested] at touched tally
      have books := requested_books traffic.calls ⟨false, _⟩ rfl nothing (life id) touched tally
        (Service.requestOrJoinEnd_decided requested)
      cases verdict with
      | now | deferred => exact books
      | alreadyEnded =>
        cases joined with
        | true => exact books
        | false => exact books.of_shown (by simp)
    · refine .idle rfl ?_ fun _ _ => rfl
      simp [showing, known closing (List.mem_of_getElem? found), Request.occurrence?]
    · exact .idle rfl rfl fun _ _ => rfl

theorem Sound.runTask_books (sound : traffic.Sound past) (place : Nat)
    (known : ∀ call request, .called call request ∈ past → asked call = some request) :
    Books asked (traffic.runTask place).1 traffic.service traffic.tasks
      (traffic.runTask place).2.service (traffic.runTask place).2.tasks := by
  cases found : traffic.tasks[place]? with
  | none =>
    simp only [runTask, found]
    exact .idle rfl rfl fun _ _ => rfl
  | some task =>
    obtain ⟨events, service, tasks⟩ := runTask_of_task found
    have split := split_of_getElem? found
    have member := List.mem_of_getElem? found
    have fetches (mode : Mode) (fetch : task.stage = .fetch mode) :
        (∃ phase live, traffic.service.condition? task.id = some ⟨phase, false, live⟩) ∧
          ∃ route id, asked task.call = some (.scan route id (.advance mode)) := by
      have bound : task.stage.duty? = some .advance := by rw [fetch]; rfl
      obtain ⟨phase, held⟩ := sound.held_of_advance member bound
      obtain ⟨pause, kept⟩ := sound.regular.ledger task.call
      have errand := kept.errand
      rw [sound.regular.ledger.remaining_eq member] at errand
      obtain ⟨route, called⟩ := errand.called_of_fetch fetch
      exact ⟨⟨phase, true, held⟩, route, task.id, known _ _ (mem_seen.mp called)⟩
    have life := (sound.regular.orderly task.id).life
    rw [split] at life
    have books := (task.run_books sound.pinned fetches).frame fun other member =>
      task.run_owed traffic.service fun bound => life.unbound bound other member
    rw [events, service, tasks]
    rwa [← split] at books

/-- Every act keeps the books. -/
theorem Sound.act_books {act : Act} (sound : traffic.Sound past)
    (known : ∀ call request, .called call request ∈ past ++ (traffic.act act).1 →
      asked call = some request) :
    Books asked (traffic.act act).1 traffic.service traffic.tasks (traffic.act act).2.service
      (traffic.act act).2.tasks := by
  have before (call : Nat) (request : Request) (called : .called call request ∈ past) :
      asked call = some request := known call request (List.mem_append_left _ called)
  have life (id : ScanId) := (sound.regular.orderly id).life
  cases act with
  | call request =>
    have own : asked traffic.calls = some request :=
      known _ _ (List.mem_append_right _ List.mem_cons_self)
    have pinned : ({ traffic with calls := traffic.calls + 1 } : Traffic σ ι).service.Pinned :=
      sound.pinned
    have books := startRequest_books request traffic.calls pinned life own
    exact books.of_shown ((shown_others asked _).1 _ _)
  | run place => exact sound.runTask_books place before
  | pursue place =>
    refine pursue_books place life fun closing member => before _ _ ?_
    have called : .called closing.call .close ∈ seen closing.call past := by
      rw [sound.regular.ledger.seen_of_closing member]
      exact List.mem_cons_self
    exact mem_seen.mp called

theorem turns_books {now : List Event} (turns : List (Turn σ)) (sound : traffic.Sound now)
    (few : (createdIds (now ++ (traffic.turns turns).1)).length < 2 ^ 32)
    (known : ∀ call request, .called call request ∈ now ++ (traffic.turns turns).1 →
      asked call = some request)
    {before : Service σ ι} (books : Books asked now before [] traffic.service traffic.tasks) :
    Books asked (now ++ (traffic.turns turns).1) before [] (traffic.turns turns).2.service
      (traffic.turns turns).2.tasks := by
  refine (turns_keep (fun past traffic =>
    (∀ call request, .called call request ∈ past → asked call = some request) →
      Books asked past before [] traffic.service traffic.tasks) turns ?_ sound few fun _ => books).2 known
  intro past traffic turn _ sound _ kept known
  have books := kept fun call request called => known call request (List.mem_append_left _ called)
  refine books.trans ?_
  cases turn with
  | outside change => exact .idle rfl rfl fun _ _ => Task.owed?_eq fun _ => Iff.rfl
  | act act => exact sound.act_books known

end Traffic
end KeyScan
