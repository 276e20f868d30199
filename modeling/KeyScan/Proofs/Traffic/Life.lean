import KeyScan.Proofs.Service.Condition

/-! The life of one scan in traffic. At any moment at most one task owes something to the scan: the
advance in progress, or what is left of its end. Which of them, and how far its end has come, is one
of eight stations; every section of every call keeps to them. -/
namespace KeyScan

/-- What a task can owe to its scan. -/
inductive Duty where
  | advance
  | release
  | withdraw
  | conclude
  deriving DecidableEq

/-- The duty that comes with a stage. To deliver an outcome is one if an end waits for it. -/
def Stage.duty? : Stage → Option Duty
  | .fetch _ | .leave _ _ => some .advance
  | .deliver _ pending => if pending then some .release else none
  | .release _ => some .release
  | .withdraw _ => some .withdraw
  | .conclude _ => some .conclude
  | .settle _ => none

/-- The duty of a task to a scan. -/
def Task.duty? (id : ScanId) (task : Task) : Option Duty :=
  if task.id = id then task.stage.duty? else none

/-- The duties of tasks to a scan. -/
def duties (id : ScanId) (tasks : List Task) : List Duty := tasks.filterMap (Task.duty? id)

/-- What can be seen of the end of a scan. -/
inductive Milestone where
  | granted
  | released
  | withdrawn
  | concluded
  deriving DecidableEq

def Event.milestone? (id : ScanId) : Event → Option Milestone
  | .granted _ other _ => if other = id then some .granted else none
  | .released _ other => if other = id then some .released else none
  | .withdrawn _ other => if other = id then some .withdrawn else none
  | .concluded _ other => if other = id then some .concluded else none
  | .called _ _ | .begun _ _ | .left _ _ | .answered _ _ => none

def milestones (id : ScanId) (events : List Event) : List Milestone :=
  events.filterMap (Event.milestone? id)

/-- The stations of a scan: its condition, what is owed to it, and how far its end has come. -/
inductive Life : Option Condition → List Duty → List Milestone → Prop where
  | unknown : Life none [] []
  | idle : Life (some ⟨.idle, false, true⟩) [] []
  | advancing : Life (some ⟨.advancing, false, true⟩) [.advance] []
  | deferred : Life (some ⟨.ending, false, true⟩) [.advance] [.granted]
  | due : Life (some ⟨.ending, false, true⟩) [.release] [.granted]
  | released : Life (some ⟨.ending, true, true⟩) [.withdraw] [.granted, .released]
  | withdrawn : Life (some ⟨.ending, true, false⟩) [.conclude] [.granted, .released, .withdrawn]
  | ended : Life (some ⟨.ended, true, false⟩) [] [.granted, .released, .withdrawn, .concluded]

variable {id : ScanId} {before : Option Condition} {owed front back : List Duty} {duty : Duty}
  {past : List Milestone}

private theorem Life.alone (life : Life before (front ++ [duty] ++ back) past) :
    front = [] ∧ back = [] ∧ Life before [duty] past := by
  have short : (front ++ [duty] ++ back).length ≤ 1 := by
    generalize front ++ [duty] ++ back = owed at life
    cases life <;> simp
  obtain ⟨rfl, rfl⟩ := eq_nil_of_length_le_one short
  exact ⟨rfl, rfl, life⟩

theorem Life.once (life : Life before owed past) :
    owed.count .advance ≤ 1 ∧ owed.count .release + past.count .released ≤ 1 ∧
      past.count .withdrawn ≤ 1 ∧ past.count .concluded ≤ 1 := by
  cases life <;> decide

theorem Life.granted_once (life : Life before owed past) : past.count .granted ≤ 1 := by
  cases life <;> decide

/-- An end that is granted while the scan advances finds the advance still owed, and else
nothing. -/
theorem Life.advance_iff {deferred : Bool} (life : Life before owed past)
    (phase : before.map Condition.phase = some (if deferred then .advancing else .idle)) :
    deferred = true ↔ .advance ∈ owed := by
  cases deferred <;> cases life <;> simp at phase ⊢

theorem Life.ending_of_advance (life : Life before owed past) (granted : .granted ∈ past)
    (advance : .advance ∈ owed) : before = some ⟨.ending, false, true⟩ := by
  cases life <;> simp_all

theorem Life.granted_of_advance {milestone : Milestone} (life : Life before owed past)
    (advance : .advance ∈ owed) (passed : milestone ∈ past) : milestone = .granted := by
  cases life <;> simp_all

theorem Life.granted_of_ending (life : Life before owed past)
    (ending : before.map Condition.phase = some .ending) : .granted ∈ past := by
  cases life <;> simp at ending ⊢

/-- Whoever advances a scan or may do so finds its reader held. -/
theorem Life.held {phase : Phase} {released live : Bool}
    (life : Life (some ⟨phase, released, live⟩) owed past)
    (admitted : 0 < owed.count .advance ∨ phase = .idle) : released = false := by
  cases life <;> first | rfl | exact absurd admitted (by decide)

theorem Life.held_of_advance (life : Life before owed past) (advance : .advance ∈ owed) :
    ∃ phase, before = some ⟨phase, false, true⟩ := by
  cases life <;> simp_all

theorem Life.nothing_of_unknown {milestone : Milestone} (life : Life none owed past) :
    milestone ∉ past := by
  cases life
  exact List.not_mem_nil

theorem Life.live_iff {phase : Phase} {released live : Bool}
    (life : Life (some ⟨phase, released, live⟩) owed past) : live = true ↔ .withdrawn ∉ past := by
  cases life <;> simp

theorem Life.concluded_iff (life : Life before owed past) :
    .concluded ∈ past ↔ before.map Condition.phase = some .ended := by
  cases life <;> simp

theorem Life.granted_of_withdrawn (life : Life before owed past) (withdrawn : .withdrawn ∈ past) :
    before.map Condition.phase = some .ending ∨ before.map Condition.phase = some .ended := by
  cases life <;> simp at withdrawn ⊢

theorem Life.released_of_withdrawn {phase : Phase} {released live : Bool}
    (life : Life (some ⟨phase, released, live⟩) owed past) (withdrawn : .withdrawn ∈ past) :
    released = true ∧ past.count .released = 1 := by
  cases life <;> first | exact ⟨rfl, by decide⟩ | simp at withdrawn

theorem Life.withdrawn_of_concluded (life : Life before owed past) (concluded : .concluded ∈ past) :
    .withdrawn ∈ past := by
  cases life <;> simp at concluded ⊢

theorem Life.withdrawn_iff (life : Life before owed past) :
    .withdrawn ∈ past ↔ before.map Condition.phase = some .ended ∨ .conclude ∈ owed := by
  cases life <;> simp

theorem Life.not_ending (life : Life before [] past) : before.map Condition.phase ≠ some .ending := by
  cases life <;> simp

theorem Life.gone {released live : Bool} (life : Life (some ⟨.ended, released, live⟩) owed past) :
    released = true ∧ live = false := by
  cases life
  exact ⟨rfl, rfl⟩

theorem Life.carriedOut (life : Life before [] past) (granted : .granted ∈ past) :
    before = some ⟨.ended, true, false⟩ := by
  cases life with
  | unknown => cases granted
  | idle => cases granted
  | ended => rfl

@[simp] theorem Task.duty?_own (call : Nat) (id : ScanId) (stage : Stage) :
    Task.duty? id ⟨call, id, stage⟩ = stage.duty? := if_pos rfl

@[simp] theorem duties_append (id : ScanId) (front back : List Task) :
    duties id (front ++ back) = duties id front ++ duties id back :=
  List.filterMap_append

@[simp] theorem duties_cons (id : ScanId) (task : Task) (rest : List Task) :
    duties id (task :: rest) = (task.duty? id).toList ++ duties id rest :=
  filterMap_cons_toList _ task rest

private theorem duties_toList (id : ScanId) (task : Option Task) :
    duties id task.toList = (task.bind (Task.duty? id)).toList := by
  cases task with
  | none => rfl
  | some task => exact (duties_cons id task []).trans (List.append_nil _)

@[simp] theorem duties_nil (id : ScanId) : duties id [] = [] := rfl

@[simp] theorem milestones_append (id : ScanId) (first second : List Event) :
    milestones id (first ++ second) = milestones id first ++ milestones id second :=
  List.filterMap_append

@[simp] theorem milestones_nil (id : ScanId) : milestones id [] = [] := rfl

@[simp] theorem milestones_cons (id : ScanId) (event : Event) (rest : List Event) :
    milestones id (event :: rest) = (event.milestone? id).toList ++ milestones id rest :=
  filterMap_cons_toList _ event rest

/-- Where one task is bound to do something on a scan, no other task is. -/
theorem Life.unbound {front back : List Task} {task : Task}
    (life : Life before (duties id (front ++ [task] ++ back)) past) (bound : task.duty? id ≠ none) :
    ∀ other ∈ front ++ back, other.duty? id = none := by
  obtain ⟨duty, own⟩ := Option.ne_none_iff_exists'.mp bound
  simp only [duties_append, duties_cons, duties_nil, own, Option.toList_some, List.append_nil] at life
  obtain ⟨noneBefore, noneAfter, -⟩ := life.alone
  intro other member
  rcases List.mem_append.mp member with earlier | later
  · exact List.filterMap_eq_nil_iff.mp noneBefore other earlier
  · exact List.filterMap_eq_nil_iff.mp noneAfter other later

/-- At most one task is bound to do something on a scan. -/
theorem Life.bound_unique {tasks : List Task} {one two : Task}
    (life : Life before (duties id tasks) past) (first : one ∈ tasks)
    (second : two ∈ tasks) (bound : one.duty? id ≠ none)
    (too : two.duty? id ≠ none) : two = one := by
  obtain ⟨front, back, rfl⟩ := List.append_of_mem first
  rw [← List.singleton_append, ← List.append_assoc] at life
  have others := life.unbound bound
  rcases List.mem_append.mp second with earlier | here
  · exact absurd (others two (List.mem_append_left _ earlier)) too
  · rcases List.mem_cons.mp here with same | later
    · exact same
    · exact absurd (others two (List.mem_append_right _ later)) too

theorem eq_of_milestone {events : List Event} {milestone : Milestone} {one two : Event}
    (once : (milestones id events).count milestone ≤ 1) (first : one ∈ events) (second : two ∈ events)
    (passed : one.milestone? id = some milestone) (again : two.milestone? id = some milestone) :
    one = two := by
  obtain ⟨front, back, rfl⟩ := List.append_of_mem first
  have alone (rest : List Event) (none : (milestones id rest).count milestone = 0) : two ∉ rest :=
    fun member => List.count_eq_zero.mp none (List.mem_filterMap.mpr ⟨two, member, again⟩)
  rw [milestones_append, milestones_cons, passed, List.count_append, List.count_append,
    Option.toList_some, List.count_singleton_self] at once
  rcases List.mem_append.mp second with earlier | here
  · exact absurd earlier (alone front (by omega))
  · rcases List.mem_cons.mp here with same | later
    · exact same.symm
    · exact absurd later (alone back (by omega))

@[simp] theorem milestones_told (id : ScanId) (told : List Nat) (reply : Reply) :
    milestones id (told.map fun call => .answered call reply) = [] := by
  refine List.filterMap_eq_nil_iff.mpr ?_
  intro event member
  obtain ⟨call, _, rfl⟩ := List.mem_map.mp member
  rfl

/-- What a verdict on a request to end makes of the station of a scan. -/
theorem Life.decided {verdict : Verdict} {after : Option Condition} (life : Life before owed past)
    (decided : Service.Decided verdict before after) :
    Life after (owed ++ if verdict = .now then [.release] else [])
      (past ++ if verdict = .alreadyEnded then [] else [.granted]) := by
  cases verdict with
  | now =>
    obtain ⟨_, _, rfl, rfl⟩ := decided
    cases life
    exact .due
  | deferred =>
    obtain ⟨_, _, rfl, rfl⟩ := decided
    cases life
    exact .deferred
  | alreadyEnded =>
    cases decided
    simpa using life

variable {σ ι : Type}

private theorem Life.requested {service after : Service σ ι} {other : ScanId} {verdict : Verdict}
    (life : Life (service.condition? id) owed past) (touched : service.Touches other after)
    (decided : Service.Decided verdict (service.condition? other) (after.condition? other)) :
    Life (after.condition? id) (owed ++ if other = id ∧ verdict = .now then [.release] else [])
      (past ++ if other = id ∧ verdict ≠ .alreadyEnded then [.granted] else []) := by
  by_cases own : other = id
  · subst own
    have next := life.decided decided
    cases verdict <;> simpa using next
  · rw [touched.condition (Ne.symm own), if_neg (fun both => own both.1),
      if_neg (fun both => own both.1), List.append_nil, List.append_nil]
    exact life

variable [Engine σ ι]

/-- A section of a task on a scan takes the scan to its next station. -/
theorem Task.run_life {task : Task} {service : Service σ ι}
    (life : Life (service.condition? task.id) (front ++ (task.duty? task.id).toList ++ back) past) :
    let (events, rest, after) := task.run service
    Life (after.condition? task.id)
      (front ++ (rest.bind (Task.duty? task.id)).toList ++ back)
      (past ++ milestones task.id events) := by
  obtain ⟨call, id, stage⟩ := task
  simp only [Task.duty?_own] at life
  generalize found : service.condition? id = before at life
  cases stage with
  | fetch mode =>
    simp only [run, Service.fetch_condition, Option.bind_some, Task.duty?_own, milestones_nil,
      List.append_nil, found]
    exact life
  | leave mode outcome =>
    obtain ⟨rfl, rfl, life⟩ := life.alone
    cases life with
    | advancing =>
      obtain ⟨pending, after⟩ := Service.leave_condition found
      cases mode <;> simpa [run, pending, after, Stage.duty?, Event.milestone?] using Life.idle
    | deferred =>
      obtain ⟨pending, after⟩ := Service.leave_condition found
      cases mode <;> simpa [run, pending, after, Stage.duty?, Event.milestone?] using Life.due
  | deliver outcome pending =>
    cases pending with
    | false => simpa [run, found, Event.milestone?, Stage.duty?] using life
    | true => simpa [run, found, Event.milestone?, Stage.duty?] using life
  | release ending =>
    obtain ⟨rfl, rfl, life⟩ := life.alone
    cases life
    simpa [run, Service.release_condition found, Stage.duty?, Event.milestone?] using Life.released
  | withdraw ending =>
    obtain ⟨rfl, rfl, life⟩ := life.alone
    cases life
    simpa [run, Service.withdraw_condition found, Stage.duty?, Event.milestone?] using Life.withdrawn
  | conclude ending =>
    obtain ⟨rfl, rfl, life⟩ := life.alone
    cases life
    simpa [run, Service.conclude_condition found, Stage.duty?, Event.milestone?] using Life.ended
  | settle ending =>
    have silent : milestones id (ending.reply.toList.map (.answered call)) = [] := by
      cases ending.reply <;> rfl
    simpa [run, Service.condition?_count, found, silent, Stage.duty?] using life

theorem Task.run_milestones {task : Task} (apart : task.id ≠ id) (service : Service σ ι) :
    milestones id (task.run service).1 = [] := by
  unfold run
  split
  · rfl
  · simp only
    split <;> rfl
  · rfl
  · simp [Event.milestone?, apart]
  · simp [Event.milestone?, apart]
  · simp [Event.milestone?, apart]
  · rename_i ending _
    cases ending.reply <;> rfl

namespace Traffic

variable {traffic : Traffic σ ι}

/-- The section that runs at a place, and what is left of its task there. -/
theorem runTask_of_task {place : Nat} {task : Task} (found : traffic.tasks[place]? = some task) :
    (traffic.runTask place).1 = (task.run traffic.service).1 ∧
      (traffic.runTask place).2.service = (task.run traffic.service).2.2 ∧
      (traffic.runTask place).2.tasks =
        traffic.tasks.take place ++ (task.run traffic.service).2.1.toList ++
          traffic.tasks.drop (place + 1) := by
  have inside := (List.getElem?_eq_some_iff.mp found).1
  rcases result : task.run traffic.service with ⟨events, rest, after⟩
  simp only [runTask, found, result, hear]
  cases rest with
  | none => simp [List.eraseIdx_eq_take_drop_succ]
  | some next => simp [List.set_eq_take_append_cons_drop, inside]

theorem mem_of_runTask {place : Nat} {task other : Task} (found : traffic.tasks[place]? = some task)
    (member : other ∈ (traffic.runTask place).2.tasks) :
    other ∈ traffic.tasks ∨ (task.run traffic.service).2.1 = some other := by
  rw [(runTask_of_task found).2.2] at member
  rcases List.mem_append.mp member with early | back
  · rcases List.mem_append.mp early with front | rest
    · exact .inl (List.mem_of_mem_take front)
    · exact .inr (Option.mem_toList.mp rest)
  · exact .inl (List.mem_of_mem_drop back)

theorem runTask_life (place : Nat)
    (life : Life (traffic.service.condition? id) (duties id traffic.tasks) past) :
    Life ((traffic.runTask place).2.service.condition? id) (duties id (traffic.runTask place).2.tasks)
      (past ++ milestones id (traffic.runTask place).1) := by
  cases found : traffic.tasks[place]? with
  | none =>
    simp only [runTask, found, milestones_nil, List.append_nil]
    exact life
  | some task =>
    obtain ⟨inside, same⟩ := List.getElem?_eq_some_iff.mp found
    obtain ⟨events, service, tasks⟩ := runTask_of_task found
    have split : traffic.tasks = traffic.tasks.take place ++ task :: traffic.tasks.drop (place + 1) := by
      rw [← same, List.getElem_cons_drop, List.take_append_drop]
    rw [split, duties_append, duties_cons, ← List.append_assoc] at life
    rw [events, service, tasks, duties_append, duties_append, duties_toList]
    by_cases own : task.id = id
    · subst own
      exact task.run_life life
    · have silent := task.run_milestones own traffic.service
      have kept := (task.run_touches traffic.service).condition (Ne.symm own)
      have before : task.duty? id = none := if_neg own
      have rest : (task.run traffic.service).2.1.bind (Task.duty? id) = none := by
        refine Option.bind_eq_none_iff.mpr ?_
        intro next run
        exact if_neg (Task.run_id run ▸ own)
      rw [before] at life
      rw [silent, kept, rest, List.append_nil]
      exact life

omit [Engine σ ι] in
theorem answer_life {service : Service σ ι} (reply : Reply) (call : Nat)
    (life : Life (service.condition? id) (duties id traffic.tasks) past) :
    Life ((traffic.answer reply call service).2.service.condition? id)
      (duties id (traffic.answer reply call service).2.tasks)
      (past ++ milestones id (traffic.answer reply call service).1) := by
  simpa [answer, Event.milestone?] using life

omit [Engine σ ι] in
/-- A request to end one scan takes every scan to its next station: a verdict of now leaves a task,
and any verdict but the refusal is a grant. -/
theorem requested_life {after : Service σ ι} {other : ScanId} {verdict : Verdict} (call : Nat)
    (ending : Ending) (life : Life (traffic.service.condition? id) (duties id traffic.tasks) past)
    (touched : traffic.service.Touches other after)
    (decided : Service.Decided verdict (traffic.service.condition? other) (after.condition? other)) :
    Life (after.condition? id)
      (duties id (traffic.tasks ++ if verdict = .now then [⟨call, other, .release ending⟩] else []))
      (past ++ milestones id
        (if verdict = .alreadyEnded then [] else [.granted call other (verdict = .deferred)])) := by
  have next := life.requested touched decided
  by_cases own : other = id
  · cases verdict <;> simpa [own, Event.milestone?, Stage.duty?, Task.duty?] using next
  · cases verdict <;> simpa [own, Event.milestone?, Stage.duty?, Task.duty?] using next

theorem startAction_life (action : Action) (other : ScanId) (call : Nat)
    (life : Life (traffic.service.condition? id) (duties id traffic.tasks) past) :
    Life ((traffic.startAction action other call).2.service.condition? id)
      (duties id (traffic.startAction action other call).2.tasks)
      (past ++ milestones id (traffic.startAction action other call).1) := by
  cases action with
  | seek target =>
    have kept := traffic.service.seek_condition target other id
    unfold startAction
    simp only
    split
    · rename_i sought
      rw [sought] at kept
      exact answer_life _ _ (kept ▸ life)
    · rename_i sought
      rw [sought] at kept
      exact answer_life _ _ (kept ▸ life)
  | advance mode =>
    have touched := (traffic.service.beginAdvance_changes other).touches
    unfold startAction
    simp only
    split
    · rename_i begun
      rw [begun] at touched
      by_cases own : other = id
      · subst own
        obtain ⟨released, live, idle, advancing⟩ := Service.beginAdvance_ok begun
        rw [idle] at life
        simp only [addTask, advancing, duties_append]
        generalize duties other traffic.tasks = owed at life ⊢
        cases life
        simpa [Event.milestone?, Stage.duty?] using Life.advancing
      · have kept := touched.condition (Ne.symm own)
        have other_duty : Task.duty? id ⟨call, other, .fetch mode⟩ = none := if_neg own
        simpa [addTask, kept, other_duty, Event.milestone?] using life
    · rename_i refused
      rw [refused] at touched
      refine answer_life _ _ ?_
      by_cases own : other = id
      · subst own
        rwa [Service.beginAdvance_error refused]
      · rwa [touched.condition (Ne.symm own)]
  | endNow =>
    have touched := (traffic.service.requestEnd_changes other none).touches
    unfold startAction
    simp only
    split
    all_goals
      rename_i asked
      rw [asked] at touched
      have next := requested_life call ⟨false, some (.ended true)⟩ life touched
        (Service.requestEnd_decided asked)
      simpa [addTask, answer, Event.milestone?] using next
  | endLater =>
    have touched := (traffic.service.requestEnd_changes other (some call)).touches
    unfold startAction
    simp only
    split
    all_goals
      rename_i asked
      rw [asked] at touched
      have next := requested_life call ⟨false, none⟩ life touched (Service.requestEnd_decided asked)
      simpa [addTask, answer, Event.milestone?] using next

theorem pursue_life (place : Nat)
    (life : Life (traffic.service.condition? id) (duties id traffic.tasks) past) :
    Life ((traffic.pursue place).2.service.condition? id) (duties id (traffic.pursue place).2.tasks)
      (past ++ milestones id (traffic.pursue place).1) := by
  unfold pursue
  split
  · simpa using life
  · split
    · rename_i closing _ other left _
      have touched := (traffic.service.requestOrJoinEnd_changes other traffic.calls).touches
      unfold ask
      simp only
      split
      all_goals
        rename_i asked
        rw [asked] at touched
        have next := requested_life traffic.calls ⟨false, none⟩ life touched
          (Service.requestOrJoinEnd_decided asked)
        simpa [addTask, Event.milestone?] using next
    · simpa [Event.milestone?] using life
    · simpa using life

end Traffic
end KeyScan
