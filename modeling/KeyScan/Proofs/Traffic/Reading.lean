import KeyScan.Proofs.Service.Standing
import KeyScan.Proofs.Traffic.Admittance
import KeyScan.Proofs.Traffic.Scope

namespace KeyScan.Traffic

theorem reply?_append (call : Nat) (first second : List Event) :
    reply? call (first ++ second) = (reply? call first).or (reply? call second) := by
  induction first with
  | nil => rfl
  | cons event rest ih =>
    cases event with
    | answered other reply =>
      simp only [List.cons_append, reply?]
      split
      · rfl
      · exact ih
    | _ => exact ih

theorem reply?_eq_none {call : Nat} {events : List Event}
    (unanswered : ∀ reply, .answered call reply ∉ events) : reply? call events = none := by
  induction events with
  | nil => rfl
  | cons event rest ih =>
    have later := ih fun reply member => unanswered reply (List.mem_cons_of_mem _ member)
    cases event with
    | answered other reply =>
      rw [reply?, if_neg ?_, later]
      rintro rfl
      exact unanswered reply List.mem_cons_self
    | _ => exact later

/-! To wait for a call is to let its task run. -/

section Waiting

variable {σ ι : Type} [Engine σ ι] {traffic : Traffic σ ι} {past : List Event} {call : Nat}

omit [Engine σ ι] in
theorem rank_le {task : Task} (member : task ∈ traffic.tasks) : task.stage.rank ≤ traffic.rank := by
  refine Nat.le_trans ?_ (Nat.le_add_right _ _)
  generalize traffic.tasks = tasks at member
  induction tasks with
  | nil => cases member
  | cons first rest ih =>
    rw [List.foldr_cons]
    rcases List.mem_cons.mp member with rfl | later
    · exact Nat.le_add_right _ _
    · exact Nat.le_trans (ih later) (Nat.le_add_left _ _)

/-- Whoever waits for a call with one task at most leaves nothing to do under its number, and keeps what
every section keeps. -/
theorem await_keeps (kept : List Event → Traffic σ ι → Prop)
    (alone : ∀ {past traffic}, kept past traffic → (remaining call traffic.tasks).length ≤ 1)
    (step : ∀ {past traffic} place, kept past traffic →
      kept (past ++ (traffic.runTask place).1) (traffic.runTask place).2)
    (start : kept past traffic) {fuel : Nat}
    (enough : ∀ task ∈ traffic.tasks, task.call = call → task.stage.rank ≤ fuel) :
    kept (past ++ (traffic.await call fuel).1) (traffic.await call fuel).2 ∧
      ∀ task ∈ (traffic.await call fuel).2.tasks, task.call ≠ call := by
  induction fuel generalizing traffic past with
  | zero =>
    refine ⟨by simpa [await] using start, fun task member own => ?_⟩
    have none := enough task member own
    cases stage : task.stage <;> simp [stage, Stage.rank] at none
  | succ fuel ih =>
    unfold await
    split
    · rename_i none
      refine ⟨by simpa using start, fun task member own => ?_⟩
      exact absurd own (by simpa using List.findIdx?_eq_none_iff.mp none task member)
    · rename_i place found
      obtain ⟨inside, own, -⟩ := List.findIdx?_eq_some_iff_getElem.mp found
      have here : traffic.tasks[place]? = some traffic.tasks[place] := List.getElem?_eq_getElem inside
      generalize traffic.tasks[place] = task at own here
      obtain rfl : task.call = call := of_decide_eq_true own
      have single := alone start
      rw [split_of_getElem? here, remaining_append, remaining_append, remaining_self] at single
      obtain ⟨front, back⟩ := eq_nil_of_length_le_one single
      have absent {tasks : List Task} {other : Task} (its : other.call = task.call)
          (none : remaining task.call tasks = []) : other ∉ tasks := by
        intro member
        have here := its ▸ mem_remaining.mpr member
        rw [none] at here
        cases here
      rw [← List.append_assoc]
      refine ih (step place start) fun other member its => ?_
      rw [(runTask_of_task here).2.2] at member
      rcases List.mem_append.mp member with early | later
      · rcases List.mem_append.mp early with earlier | rest
        · exact absurd earlier (absent its front)
        · have less := Task.run_rank (Option.mem_toList.mp rest)
          have bound := enough task (List.mem_of_getElem? here) rfl
          omega
      · exact absurd later (absent its back)

end Waiting

variable {traffic after : Traffic MemoryEngine TableWalker} {past : List Event} {call : Nat}
  {id : ScanId} {phase : Phase} {mark : Nat} {outlook now : Outlook} {left : List Task}
  {action : Action}

/-- A scan at a phase, with pairs before it and some tasks on it. -/
structure Poised (id : ScanId) (phase : Phase) (mark : Nat) (outlook : Outlook) (left : List Task)
    (traffic : Traffic MemoryEngine TableWalker) : Prop where
  serves : traffic.service.Serves id phase mark outlook
  tasks : tasksOn id traffic.tasks = left

/-- How far a read has come: what the scan is doing, the pairs before it, the tasks on it, and what
the caller has been told. -/
inductive Progress (call : Nat) (id : ScanId) (mark : Nat) (outlook : Outlook) :
    Action → Phase → Outlook → List Task → Option Reply → Prop where
  | sought {target : Bytes} :
      Progress call id mark outlook (.seek target) .idle (outlook.seek target).2 [] (some .ready)
  | fetch {mode : Mode} :
      Progress call id mark outlook (.advance mode) .advancing outlook [⟨call, id, .fetch mode⟩] none
  | leave {mode : Mode} :
      Progress call id mark outlook (.advance mode) .advancing (outlook.page mark).2
        [⟨call, id, .leave mode (.page (outlook.page mark).1)⟩] none
  | deliver :
      Progress call id mark outlook (.advance .pooled) .idle (outlook.page mark).2
        [⟨call, id, .deliver (.page (outlook.page mark).1) false⟩] none
  | read {mode : Mode} :
      Progress call id mark outlook (.advance mode) .idle (outlook.page mark).2 []
        (some (.page (outlook.page mark).1))

/-- A read has come so far, given the events before. -/
def Underway (call : Nat) (id : ScanId) (mark : Nat) (outlook : Outlook) (action : Action)
    (past : List Event) (traffic : Traffic MemoryEngine TableWalker) : Prop :=
  ∃ phase now left told, Progress call id mark outlook action phase now left told ∧
    traffic.Poised id phase mark now left ∧ reply? call past = told

theorem Progress.pending (progress : Progress call id mark outlook action phase now left none) :
    ∃ task, left = [task] ∧ task.call = call ∧ 4 < task.stage.rank := by
  cases progress <;> exact ⟨_, rfl, rfl, by simp [Stage.rank]⟩

theorem Progress.answered {reply : Reply}
    (progress : Progress call id mark outlook action phase now left (some reply)) :
    phase = .idle ∧ left = [] ∧
      (Standing.open mark outlook).answer action = (reply, .open mark now) := by
  cases progress <;> exact ⟨rfl, rfl, rfl⟩

theorem Progress.length_le {told : Option Reply}
    (progress : Progress call id mark outlook action phase now left told) :
    left.length ≤ 1 ∧ ∀ task ∈ left, task.call = call := by
  cases progress <;> simp

/-- What is done aside from a scan leaves it where it is. -/
theorem Poised.aside (poised : traffic.Poised id phase mark outlook left)
    (aside : traffic.Aside id after)
    (extended : traffic.service.engine.Extends after.service.engine) :
    after.Poised id phase mark outlook left :=
  ⟨poised.serves.kept aside.scan aside.live extended, aside.tasks.trans poised.tasks⟩

theorem Underway.aside {events : List Event}
    (underway : traffic.Underway call id mark outlook action past) (aside : traffic.Aside id after)
    (extended : traffic.service.engine.Extends after.service.engine)
    (mute : reply? call events = none) :
    after.Underway call id mark outlook action (past ++ events) := by
  obtain ⟨phase, now, left, told, progress, poised, said⟩ := underway
  refine ⟨phase, now, left, told, progress, poised.aside aside extended, ?_⟩
  rw [reply?_append, mute, Option.or_none, said]

/-- A section of its own task takes a read on, and answers no other call. -/
theorem Underway.run {place : Nat} {task : Task}
    (underway : traffic.Underway call id mark outlook action past)
    (found : traffic.tasks[place]? = some task) (own : task.id = id) :
    (traffic.runTask place).2.Underway call id mark outlook action
        (past ++ (traffic.runTask place).1) ∧
      ∀ other ≠ call, reply? other (traffic.runTask place).1 = none := by
  obtain ⟨phase, now, left, told, progress, ⟨serves, tasks⟩, said⟩ := underway
  obtain ⟨events, service, -⟩ := runTask_of_task found
  have present : task ∈ tasksOn id traffic.tasks :=
    List.mem_filter.mpr ⟨List.mem_of_getElem? found, decide_eq_true own⟩
  cases progress with
  | sought | read =>
    rw [tasks] at present
    cases present
  | @fetch mode =>
    obtain ⟨rfl, rest⟩ := runTask_own found own tasks
    have ran := serves.run_fetch call mode
    rw [ran] at events service rest
    refine ⟨⟨_, _, _, _, .leave, ⟨?_, rest⟩, ?_⟩, fun other _ => by rw [events]; rfl⟩
    · exact service ▸ (Service.fetch_serves serves mode).2
    · rw [events, List.append_nil, said]
  | @leave mode =>
    obtain ⟨rfl, rest⟩ := runTask_own found own tasks
    have idle := (Service.leave_serves serves).2
    cases mode with
    | waiting =>
      rw [serves.run_leave_waiting] at events service rest
      refine ⟨⟨_, _, _, _, .read, ⟨service ▸ idle, rest⟩, ?_⟩, fun other apart => ?_⟩
      · rw [events, reply?_append, said]
        simp [reply?]
      · rw [events]
        simp [reply?, Ne.symm apart]
    | pooled =>
      rw [serves.run_leave_pooled] at events service rest
      refine ⟨⟨_, _, _, _, .deliver, ⟨service ▸ idle, rest⟩, ?_⟩, fun other _ => by rw [events]; rfl⟩
      rw [events, reply?_append, said]
      rfl
  | deliver =>
    obtain ⟨rfl, rest⟩ := runTask_own found own tasks
    refine ⟨⟨_, _, _, _, .read, ⟨service ▸ serves, rest⟩, ?_⟩, fun other apart => ?_⟩
    · rw [events, reply?_append, said]
      simp [Task.run, reply?]
    · rw [events]
      simp [Task.run, reply?, Ne.symm apart]

theorem Poised.begin (poised : traffic.Poised id .idle mark outlook []) (route : Route) (mode : Mode) :
    ∃ service, service = (traffic.service.beginAdvance id).2 ∧
      service.Serves id .advancing mark outlook ∧
      traffic.start (.scan route id (.advance mode)) =
        ([.called traffic.calls (.scan route id (.advance mode)), .begun traffic.calls id],
          { traffic with
            service
            tasks := traffic.tasks ++ [⟨traffic.calls, id, .fetch mode⟩]
            calls := traffic.calls + 1 }) := by
  obtain ⟨begun, serves⟩ := Service.beginAdvance_serves poised.serves
  rcases result : traffic.service.beginAdvance id with ⟨outcome, after⟩
  rw [result] at begun serves
  cases begun
  refine ⟨after, rfl, serves, ?_⟩
  rw [start_live traffic poised.serves.live]
  simp only [startAction, result, addTask]

theorem Poised.read (poised : traffic.Poised id .idle mark outlook [])
    (silent : reply? traffic.calls past = none) (reads : action.reads = true) (route : Route) :
    (traffic.start (.scan route id action)).2.Underway traffic.calls id mark outlook action
      (past ++ (traffic.start (.scan route id action)).1) := by
  cases action with
  | seek target =>
    rw [start_live traffic poised.serves.live]
    obtain ⟨sought, serves⟩ := Service.seek_serves poised.serves target
    simp only [startAction]
    rcases result : traffic.service.seek target id with ⟨outcome, after⟩
    rw [result] at sought serves
    cases sought
    refine ⟨_, _, _, _, .sought, ⟨serves, poised.tasks⟩, ?_⟩
    simp [answer, reply?_append, silent, reply?]
  | advance mode =>
    obtain ⟨service, -, serves, started⟩ := poised.begin route mode
    rw [started]
    refine ⟨_, _, _, _, .fetch, ⟨serves, ?_⟩, ?_⟩
    · rw [tasksOn_append, poised.tasks, List.nil_append]
      exact tasksOn_self ⟨traffic.calls, id, .fetch mode⟩
    · simp [reply?_append, silent, reply?]
  | endNow | endLater => cases reads

end KeyScan.Traffic
