import KeyScan.Proofs.Traffic.Closing

namespace KeyScan

/-- Whether an act asks nothing of a scan: it is neither a call on it nor a close. -/
def Act.Apart (id : ScanId) : Act → Prop
  | .call (.scan _ other _) => other ≠ id
  | .call .close => False
  | .call (.create _) | .run _ | .pursue _ => True

def tasksOn (id : ScanId) (tasks : List Task) : List Task := tasks.filter fun task => task.id = id

section Tasks

variable {id : ScanId} {tasks front back : List Task} {task : Task}

@[simp] theorem tasksOn_append (id : ScanId) (first second : List Task) :
    tasksOn id (first ++ second) = tasksOn id first ++ tasksOn id second := List.filter_append ..

private theorem tasksOn_eq_nil (others : ∀ task ∈ tasks, task.id ≠ id) : tasksOn id tasks = [] :=
  List.filter_eq_nil_iff.mpr fun task member => by simpa using others task member

theorem tasksOn_self (task : Task) : tasksOn task.id [task] = [task] := by simp [tasksOn]

private theorem tasksOn_eq_self (own : ∀ task ∈ tasks, task.id = id) : tasksOn id tasks = tasks :=
  List.filter_eq_self.mpr fun task member => decide_eq_true (own task member)

end Tasks

namespace Traffic

variable {σ ι : Type} {traffic after : Traffic σ ι} {past : List Event} {id : ScanId}

/-- A scan and the tasks on it are after something what they were before. -/
structure Aside (id : ScanId) (before after : Traffic σ ι) : Prop where
  scan : after.service.scan? id = before.service.scan? id
  live : after.service.roster.isLive id = before.service.roster.isLive id
  tasks : tasksOn id after.tasks = tasksOn id before.tasks

/-- No close in progress has still to ask a scan. -/
def Unasked (id : ScanId) (traffic : Traffic σ ι) : Prop :=
  ∀ closing ∈ traffic.closings, id ∉ closing.left

theorem Aside.refl (id : ScanId) (traffic : Traffic σ ι) : traffic.Aside id traffic := ⟨rfl, rfl, rfl⟩

/-- What touches another scan, and leaves tasks on that only, is done aside. -/
theorem Aside.of_touches {other : ScanId} {new : List Task} (apart : id ≠ other)
    (touched : traffic.service.Touches other after.service)
    (tasks : after.tasks = traffic.tasks ++ new) (theirs : ∀ task ∈ new, task.id = other) :
    traffic.Aside id after where
  scan := touched.scan id apart
  live := touched.live id apart
  tasks := by
    have none : tasksOn id new = [] :=
      tasksOn_eq_nil fun task member => theirs task member ▸ Ne.symm apart
    rw [tasks, tasksOn_append, none, List.append_nil]

private theorem found_of_phase {phase : Phase} (known : traffic.service.phase? id = some phase) :
    traffic.service.scan? id ≠ none := by
  intro missing
  rw [Service.phase?, missing] at known
  cases known

theorem ask_tasks (closing : Closing) (other : ScanId) (traffic : Traffic σ ι) :
    ∃ new, (traffic.ask closing other).2.2.tasks = traffic.tasks ++ new ∧
      ∀ task ∈ new, task.id = other ∧ traffic.service.scan? other ≠ none := by
  have none : traffic.tasks = traffic.tasks ++ [] := (List.append_nil _).symm
  simp only [ask]
  split
  · rename_i asked
    have known := found_of_phase (Service.requestOrJoinEnd_decided asked).idle
    exact ⟨_, rfl, by simpa using known⟩
  · exact ⟨[], none, by simp⟩
  · exact ⟨[], none, by simp⟩
  · exact ⟨[], none, by simp⟩

theorem pursue_tasks (place : Nat) (traffic : Traffic σ ι) :
    ∃ new, (traffic.pursue place).2.tasks = traffic.tasks ++ new ∧
      ∀ task ∈ new, traffic.service.scan? task.id ≠ none := by
  have idle : traffic.tasks = traffic.tasks ++ [] := (List.append_nil _).symm
  unfold pursue
  split
  · exact ⟨[], idle, by simp⟩
  · rename_i closing _
    split
    · rename_i other left _
      obtain ⟨new, tasks, theirs⟩ := traffic.ask_tasks { closing with left } other
      refine ⟨new, tasks, fun task member => ?_⟩
      obtain ⟨rfl, known⟩ := theirs task member
      exact known
    · exact ⟨[], idle, by simp⟩
    · exact ⟨[], idle, by simp⟩

theorem pursue_left (place : Nat) (traffic : Traffic σ ι) :
    ∀ closing ∈ (traffic.pursue place).2.closings, ∃ old ∈ traffic.closings, closing.left ⊆ old.left := by
  unfold pursue
  split
  · exact fun closing member => ⟨closing, member, fun _ asks => asks⟩
  · rename_i current found
    split
    · rename_i other left asks
      obtain ⟨-, still, -, closings, -⟩ := ask_rest { current with left } other traffic
      intro closing member
      rcases List.mem_or_eq_of_mem_set member with old | rfl
      · exact ⟨closing, closings ▸ old, fun _ asks => asks⟩
      · refine ⟨current, List.mem_of_getElem? found, ?_⟩
        rw [still, asks]
        exact List.subset_cons_self other left
    · exact fun closing member => ⟨closing, List.mem_of_mem_eraseIdx member, fun _ asks => asks⟩
    · exact fun closing member => ⟨closing, member, fun _ asks => asks⟩

variable [Engine σ ι]

theorem pursue_aside (place : Nat) (unasked : traffic.Unasked id) :
    traffic.Aside id (traffic.pursue place).2 := by
  unfold pursue
  split
  · exact .refl id traffic
  · rename_i closing found
    split
    · rename_i other left asks
      obtain ⟨new, tasks, theirs⟩ := traffic.ask_tasks { closing with left } other
      have touched := traffic.ask_touches { closing with left } other
      have own := unasked closing (List.mem_of_getElem? found)
      rw [asks, List.mem_cons, not_or] at own
      exact .of_touches own.1 touched tasks fun task member => (theirs task member).1
    · exact ⟨rfl, rfl, rfl⟩
    · exact .refl id traffic

theorem startAction_tasks (action : Action) (other : ScanId) (call : Nat) (traffic : Traffic σ ι) :
    ∃ new, (traffic.startAction action other call).2.tasks = traffic.tasks ++ new ∧
      ∀ task ∈ new, task.id = other ∧ traffic.service.scan? other ≠ none := by
  have none : traffic.tasks = traffic.tasks ++ [] := (List.append_nil _).symm
  cases action <;> simp only [startAction] <;> split <;> rename_i result
  · exact ⟨[], none, by simp⟩
  · exact ⟨[], none, by simp⟩
  · obtain ⟨_, _, known, -⟩ := Service.beginAdvance_ok result
    obtain ⟨scan, found, -⟩ := Service.scan_of_condition known
    exact ⟨_, rfl, by simp [found]⟩
  · exact ⟨[], none, by simp⟩
  · have known := found_of_phase (Service.requestEnd_decided result).idle
    exact ⟨_, rfl, by simpa using known⟩
  · exact ⟨[], none, by simp⟩
  · exact ⟨[], none, by simp⟩
  · have known := found_of_phase (Service.requestEnd_decided result).idle
    exact ⟨_, rfl, by simpa using known⟩
  · exact ⟨[], none, by simp⟩
  · exact ⟨[], none, by simp⟩

theorem start_aside {request : Request} (sound : traffic.Sound past)
    (room : (createdIds (past ++ (traffic.start request).1)).length < 2 ^ 32)
    (known : id ∈ createdIds past) (apart : Act.Apart id (.call request)) (unasked : traffic.Unasked id) :
    traffic.Aside id (traffic.start request).2 ∧ (traffic.start request).2.Unasked id := by
  have noClose : request ≠ .close := by
    rintro rfl
    exact apart
  obtain ⟨more, closings, none, -⟩ := start_closings request traffic
  rw [none noClose, List.append_nil] at closings
  refine ⟨?_, fun closing member => unasked closing (closings ▸ member)⟩
  cases request with
  | close => exact absurd rfl noClose
  | create options =>
    cases accepted : Window.ofOptions options with
    | error failure =>
      rw [start_refused accepted]
      exact ⟨rfl, rfl, rfl⟩
    | ok window =>
      obtain ⟨new, service, opened⟩ := Service.create_accepted traffic.service accepted
      have started := start_created opened
      have fresh : id ≠ new := by
        rintro rfl
        have once := (sound.start_create room).catalogued.nodup
        rw [started, createdIds_append] at once
        exact List.disjoint_of_nodup_append once known (by simp [Event.created?])
      obtain ⟨scan, live⟩ := Service.create_others opened fresh
      rw [started]
      exact ⟨scan, live, rfl⟩
  | scan route other action =>
    have startAction : traffic.Aside id
        ({ traffic with calls := traffic.calls + 1 }.startAction action other traffic.calls).2 := by
      obtain ⟨new, tasks, theirs⟩ :=
        startAction_tasks action other traffic.calls { traffic with calls := traffic.calls + 1 }
      have touched :=
        startAction_touches action other traffic.calls { traffic with calls := traffic.calls + 1 }
      exact .of_touches (Ne.symm apart) touched tasks fun task member => (theirs task member).1
    simp only [start, startRequest]
    cases route with
    | held => exact startAction
    | roster =>
      simp only
      split
      · exact startAction
      · exact ⟨rfl, rfl, rfl⟩

theorem runTask_left (place : Nat) (traffic : Traffic σ ι) :
    ∀ closing ∈ (traffic.runTask place).2.closings, ∃ old ∈ traffic.closings, closing.left ⊆ old.left := by
  intro closing member
  rw [runTask_closings] at member
  obtain ⟨old, here, rfl⟩ := List.mem_map.mp member
  exact ⟨old, here, fun _ asks => asks⟩

theorem runTask_aside {place : Nat} {task : Task} (found : traffic.tasks[place]? = some task)
    (apart : task.id ≠ id) : traffic.Aside id (traffic.runTask place).2 := by
  obtain ⟨-, service, tasks⟩ := runTask_of_task found
  have touched := task.run_touches traffic.service
  rw [← service] at touched
  refine ⟨touched.scan id (Ne.symm apart), touched.live id (Ne.symm apart), ?_⟩
  have rest : tasksOn id (task.run traffic.service).2.1.toList = [] := by
    refine tasksOn_eq_nil fun next member => ?_
    exact Task.run_id (Option.mem_toList.mp member) ▸ apart
  have own : tasksOn id [task] = [] := tasksOn_eq_nil (by simpa using apart)
  conv_rhs => rw [split_of_getElem? found]
  rw [tasks]
  simp only [tasksOn_append, rest, own]

/-- The only task on a scan is run: what is left of it is all that is left on the scan. -/
theorem runTask_own {place : Nat} {task only : Task} (found : traffic.tasks[place]? = some task)
    (own : task.id = id) (alone : tasksOn id traffic.tasks = [only]) :
    task = only ∧
      tasksOn id (traffic.runTask place).2.tasks = (task.run traffic.service).2.1.toList := by
  subst own
  obtain ⟨-, -, tasks⟩ := runTask_of_task found
  rw [split_of_getElem? found, tasksOn_append, tasksOn_append, tasksOn_self] at alone
  have short := congrArg List.length alone
  obtain ⟨none, nothing⟩ := eq_nil_of_length_le_one (Nat.le_of_eq short)
  rw [none, nothing] at alone
  refine ⟨by simpa using alone, ?_⟩
  rw [tasks, tasksOn_append, tasksOn_append, none, nothing, List.nil_append, List.append_nil]
  exact tasksOn_eq_self fun next member => Task.run_id (Option.mem_toList.mp member)

/-- An act that asks nothing of a scan is done aside, unless it runs a task on the scan. -/
theorem act_aside {act : Act} (sound : traffic.Sound past)
    (room : (createdIds (past ++ (traffic.act act).1)).length < 2 ^ 32)
    (known : id ∈ createdIds past) (apart : act.Apart id) (unasked : traffic.Unasked id) :
    (traffic.act act).2.Unasked id ∧ (traffic.Aside id (traffic.act act).2 ∨
      ∃ place task, act = .run place ∧ traffic.tasks[place]? = some task ∧ task.id = id) := by
  cases act with
  | call request =>
    obtain ⟨aside, still⟩ := start_aside sound room known apart unasked
    exact ⟨still, .inl aside⟩
  | pursue place =>
    refine ⟨fun closing member asks => ?_, .inl (pursue_aside place unasked)⟩
    obtain ⟨old, here, fewer⟩ := pursue_left place traffic closing member
    exact unasked old here (fewer asks)
  | run place =>
    refine ⟨fun closing member asks => ?_, ?_⟩
    · obtain ⟨old, here, fewer⟩ := runTask_left place traffic closing member
      exact unasked old here (fewer asks)
    · cases found : traffic.tasks[place]? with
      | none =>
        simp only [Traffic.act, runTask, found]
        exact .inl (.refl id traffic)
      | some task =>
        by_cases own : task.id = id
        · exact .inr ⟨place, task, rfl, found, own⟩
        · exact .inl (runTask_aside found own)

/-- Only what was created is worked on or has still to be asked. -/
structure Known (past : List Event) (traffic : Traffic σ ι) : Prop where
  tasks : ∀ task ∈ traffic.tasks, task.id ∈ createdIds past
  closings : ∀ closing ∈ traffic.closings, ∀ id ∈ closing.left, id ∈ createdIds past

omit [Engine σ ι] in
theorem Known.unknown (known : traffic.Known past) (new : id ∉ createdIds past) :
    tasksOn id traffic.tasks = [] ∧ traffic.Unasked id := by
  refine ⟨tasksOn_eq_nil fun task member same => new (same ▸ known.tasks task member), ?_⟩
  exact fun closing member asks => new (known.closings closing member id asks)

omit [Engine σ ι] in
private theorem Sound.created_of_found (sound : traffic.Sound past)
    (found : traffic.service.scan? id ≠ none) : id ∈ createdIds past := by
  rwa [Ne, sound.catalogued.scan?_eq_none_iff, not_not] at found

theorem start_tasks (request : Request) (traffic : Traffic σ ι) :
    ∃ new, (traffic.start request).2.tasks = traffic.tasks ++ new ∧
      ∀ task ∈ new, traffic.service.scan? task.id ≠ none := by
  have idle : ∃ new, traffic.tasks = traffic.tasks ++ new ∧
      ∀ task ∈ new, traffic.service.scan? task.id ≠ none := ⟨[], by simp⟩
  have startAction (action : Action) (id : ScanId) (call calls : Nat) :
      ∃ new, ({ traffic with calls }.startAction action id call).2.tasks = traffic.tasks ++ new ∧
        ∀ task ∈ new, traffic.service.scan? task.id ≠ none := by
    obtain ⟨new, tasks, theirs⟩ := startAction_tasks action id call { traffic with calls }
    refine ⟨new, tasks, fun task member => ?_⟩
    obtain ⟨rfl, known⟩ := theirs task member
    exact known
  simp only [start, startRequest]
  split
  · split <;> exact idle
  · exact startAction _ _ _ _
  · split
    · exact startAction _ _ _ _
    · exact idle
  · split <;> exact idle

/-- An act works on what was created, and closes ask nothing else. -/
theorem Sound.act_known {act : Act} (sound : traffic.Sound past) (known : traffic.Known past) :
    (traffic.act act).2.Known (past ++ (traffic.act act).1) := by
  have later {id : ScanId} (created : id ∈ createdIds past) :
      id ∈ createdIds (past ++ (traffic.act act).1) := by
    rw [createdIds_append]
    exact List.mem_append_left _ created
  have grown {new : List Task} (theirs : ∀ task ∈ new, traffic.service.scan? task.id ≠ none) :
      ∀ task ∈ traffic.tasks ++ new, task.id ∈ createdIds (past ++ (traffic.act act).1) := by
    intro task member
    rcases List.mem_append.mp member with old | fresh
    · exact later (known.tasks task old)
    · exact later (sound.created_of_found (theirs task fresh))
  cases act with
  | call request =>
    obtain ⟨new, tasks, theirs⟩ := start_tasks request traffic
    obtain ⟨more, closings, -, live⟩ := start_closings request traffic
    refine ⟨?_, fun closing member id asks => ?_⟩
    · rw [Traffic.act, tasks]
      exact grown theirs
    · rw [Traffic.act, closings] at member
      rcases List.mem_append.mp member with old | fresh
      · exact later (known.closings closing old id asks)
      · rw [live closing fresh] at asks
        exact later (sound.catalogued.rostered id (List.contains_iff_mem.mpr asks))
  | pursue place =>
    obtain ⟨new, tasks, theirs⟩ := traffic.pursue_tasks place
    refine ⟨?_, fun closing member id asks => ?_⟩
    · rw [Traffic.act, tasks]
      exact grown theirs
    · obtain ⟨old, here, fewer⟩ := pursue_left place traffic closing member
      exact later (known.closings old here id (fewer asks))
  | run place =>
    refine ⟨fun task member => ?_, fun closing member id asks => ?_⟩
    · cases found : traffic.tasks[place]? with
      | none =>
        simp only [Traffic.act, runTask, found] at member
        exact later (known.tasks task member)
      | some runs =>
        rcases mem_of_runTask found member with old | rest
        · exact later (known.tasks task old)
        · rw [Task.run_id rest]
          exact later (known.tasks runs (List.mem_of_getElem? found))
    · obtain ⟨old, here, fewer⟩ := runTask_left place traffic closing member
      exact later (known.closings old here id (fewer asks))

theorem turns_known (turns : List (Turn σ)) (sound : traffic.Sound past)
    (few : (createdIds (past ++ (traffic.turns turns).1)).length < 2 ^ 32) (known : traffic.Known past) :
    (traffic.turns turns).2.Known (past ++ (traffic.turns turns).1) := by
  refine (turns_keep (fun past traffic => traffic.Known past) turns ?_ sound few known).2
  intro past traffic turn _ sound room known
  cases turn with
  | outside change =>
    rw [Traffic.turn, List.append_nil]
    exact ⟨known.tasks, known.closings⟩
  | act act => exact sound.act_known known

end Traffic
end KeyScan
