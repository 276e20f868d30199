import KeyScan.Proofs.Traffic.Ending
import KeyScan.Proofs.Traffic.Errand

/-! The moves of traffic. A call or the request of a close sets out on the errand of a new number; a
task runs a section; a close is answered. Whatever an act does is one of these. -/
namespace KeyScan

theorem split_of_getElem? {α : Type} {list : List α} {place : Nat} {item : α}
    (found : list[place]? = some item) :
    list = list.take place ++ [item] ++ list.drop (place + 1) := by
  obtain ⟨inside, same⟩ := List.getElem?_eq_some_iff.mp found
  rw [← same, List.append_assoc, List.singleton_append, List.getElem_cons_drop, List.take_append_drop]

/-- Whether an event may be seen at the start of an errand. -/
def Event.Initial : Event → Prop
  | .called _ _ | .begun _ _ | .granted _ _ _ => True
  | .answered _ reply => reply ≠ .ended true
  | .left _ _ | .released _ _ | .withdrawn _ _ | .concluded _ _ => False

/-- Whether an event gives a number to something: a call, or a request of a close. -/
def Event.opens : Event → Bool
  | .called _ _ | .granted _ _ _ => true
  | _ => false

variable {σ ι : Type} [Engine σ ι]

theorem Task.run_opens (task : Task) (service : Service σ ι) :
    ∀ event ∈ (task.run service).1, event.opens = false := by
  obtain ⟨call, id, stage⟩ := task
  cases stage with
  | fetch mode => simp [run]
  | leave mode outcome =>
    simp only [run]
    split <;> simp [Event.opens]
  | settle ending =>
    simp only [run]
    cases ending.reply <;> simp [Event.opens]
  | _ => simp [run, Event.opens]

namespace Traffic

variable {traffic after : Traffic σ ι} {events : List Event}

/-- A new number sets out on an errand, and nothing else happens. -/
structure SetsOut (events : List Event) (tasks : List Task) (pause : Pause)
    (traffic after : Traffic σ ι) : Prop where
  errand : Errand traffic.calls events tasks pause
  initial : ∀ event ∈ events, event.Initial := by simp [Event.Initial]
  verdict : ∀ call id deferred, .granted call id deferred ∈ events →
    traffic.service.phase? id = some (if deferred then .advancing else .idle) := by simp
  tasks : after.tasks = traffic.tasks ++ tasks := by simp [addTask]
  waiting : ∀ id, after.service.waiting id =
    traffic.service.waiting id ++ if pause = .ending id then [traffic.calls] else []
  closings : after.closings.map Closing.call =
    traffic.closings.map Closing.call ++ if pause = .closing then [traffic.calls] else [] := by
      simp [addTask]
  calls : after.calls = traffic.calls + 1 := by rfl

/-- What a single act can do to traffic. -/
inductive Moves (traffic : Traffic σ ι) : List Event → Traffic σ ι → Prop where
  | idle : Moves traffic [] traffic
  | setsOut {events : List Event} {tasks : List Task} {pause : Pause} {after : Traffic σ ι}
      (new : SetsOut events tasks pause traffic after) : Moves traffic events after
  | runs {front back : List Task} {task : Task} {after : Traffic σ ι}
      (split : traffic.tasks = front ++ [task] ++ back)
      (service : after.service = (task.run traffic.service).2.2)
      (tasks : after.tasks = front ++ (task.run traffic.service).2.1.toList ++ back)
      (closings : after.closings.map Closing.call = traffic.closings.map Closing.call)
      (calls : after.calls = traffic.calls) : Moves traffic (task.run traffic.service).1 after
  | closes {front back : List Closing} {closing : Closing}
      (split : traffic.closings = front ++ [closing] ++ back) :
      Moves traffic [.answered closing.call .closed] { traffic with closings := front ++ back }

omit [Engine σ ι] in
theorem SetsOut.replied {service : Service σ ι} {reply : Reply} (request : Request)
    (waiting : ∀ id, service.waiting id = traffic.service.waiting id)
    (denied : reply ≠ .ended true := by simp) :
    SetsOut [.called traffic.calls request, .answered traffic.calls reply] [] .none traffic
      { traffic with service, calls := traffic.calls + 1 } :=
  { errand := .replied request denied
    initial := by simpa [Event.Initial] using denied
    waiting := by simpa using waiting }

theorem startAction_setsOut (action : Action) (route : Route) (id : ScanId) (traffic : Traffic σ ι) :
    let (events, after) :=
      { traffic with calls := traffic.calls + 1 }.startAction action id traffic.calls
    ∃ tasks pause, SetsOut (.called traffic.calls (.scan route id action) :: events) tasks pause
      traffic after := by
  cases action with
  | seek target =>
    have kept := traffic.service.seek_waiting target id
    simp only [startAction]
    rcases sought : traffic.service.seek target id with ⟨_ | _, service⟩
    all_goals
      rw [sought] at kept
      exact ⟨[], .none, .replied _ kept⟩
  | advance mode =>
    have kept := traffic.service.beginAdvance_waiting id
    simp only [startAction]
    rcases begun : traffic.service.beginAdvance id with ⟨_ | _, service⟩
    all_goals rw [begun] at kept
    · exact ⟨[], .none, .replied _ kept⟩
    · exact ⟨_, .none, { errand := .fetch route id mode, waiting := by simpa [addTask] using kept }⟩
  | endNow =>
    simp only [startAction]
    rcases asked : traffic.service.requestEnd none id with ⟨_ | _ | _, service⟩
    all_goals
      have kept := Service.requestEnd_waiting asked
      have decided := Service.requestEnd_decided asked
    · exact ⟨_, .none,
        { errand := .release (.now route)
          verdict := by simpa using decided.idle
          waiting := by simpa [addTask] using kept }⟩
    · exact ⟨_, .none,
        { errand := .putOff route id
          verdict := by simpa using decided.advancing
          waiting := by simpa using kept }⟩
    · exact ⟨[], .none, .replied _ (by simpa using kept)⟩
  | endLater =>
    simp only [startAction]
    rcases asked : traffic.service.requestEnd (some traffic.calls) id with ⟨_ | _ | _, service⟩
    all_goals
      have kept := Service.requestEnd_waiting asked
      have decided := Service.requestEnd_decided asked
    · exact ⟨_, _,
        { errand := .release (.later route)
          verdict := by simpa using decided.idle
          waiting := by simpa [addTask, eq_comm] using kept }⟩
    · exact ⟨_, _,
        { errand := .waits (.later route)
          verdict := by simpa using decided.advancing
          waiting := by simpa [eq_comm] using kept }⟩
    · exact ⟨[], .none, .replied _ (by simpa using kept)⟩

private theorem turnedAway_ne_ended (action : Action) (failure : Failure) :
    turnedAway action failure ≠ .ended true := by
  unfold turnedAway
  split <;> simp

theorem start_setsOut (request : Request) (traffic : Traffic σ ι) :
    ∃ tasks pause,
      SetsOut (traffic.start request).1 tasks pause traffic (traffic.start request).2 := by
  simp only [start, startRequest]
  split
  · rename_i options
    split <;> rename_i opened
    · exact ⟨[], .none, .replied _ (Service.create_waiting opened)⟩
    · have same := Service.create_error opened
      exact ⟨[], .none, .replied _ (fun _ => same ▸ rfl)⟩
  · exact startAction_setsOut _ .held _ traffic
  · split
    · exact startAction_setsOut _ .roster _ traffic
    · exact ⟨[], .none, .replied _ (fun _ => rfl) (turnedAway_ne_ended _ _)⟩
  · split
    · exact ⟨[], .none, .replied _ fun _ => rfl⟩
    · exact ⟨[], .closing, { errand := .closing, waiting := by simp }⟩

/-- A section of a task makes no call, and the closes in progress keep their numbers. -/
theorem runTask_rest (place : Nat) (traffic : Traffic σ ι) :
    (traffic.runTask place).2.closings.map Closing.call = traffic.closings.map Closing.call ∧
      (traffic.runTask place).2.calls = traffic.calls := by
  unfold runTask
  split
  · exact ⟨rfl, rfl⟩
  · refine ⟨?_, rfl⟩
    simp only [hear, List.map_map]
    rfl

theorem runTask_moves (place : Nat) (traffic : Traffic σ ι) :
    traffic.Moves (traffic.runTask place).1 (traffic.runTask place).2 := by
  cases found : traffic.tasks[place]? with
  | none =>
    simp only [runTask, found]
    exact .idle
  | some task =>
    obtain ⟨events, service, tasks⟩ := runTask_of_task found
    obtain ⟨closings, calls⟩ := runTask_rest place traffic
    rw [events]
    exact .runs (split_of_getElem? found) service tasks closings calls

theorem pursue_moves (place : Nat) (traffic : Traffic σ ι) :
    traffic.Moves (traffic.pursue place).1 (traffic.pursue place).2 := by
  unfold pursue
  split
  · exact .idle
  · rename_i closing found
    have numbered : (traffic.closings.map Closing.call)[place]? = some closing.call := by
      rw [List.getElem?_map, found, Option.map_some]
    obtain ⟨inside, own⟩ := List.getElem?_eq_some_iff.mp numbered
    split
    · rename_i id left _
      have same (left : List ScanId) (owed : List Nat) :
          (traffic.closings.set place ⟨closing.call, left, owed⟩).map Closing.call =
            traffic.closings.map Closing.call := by
        rw [List.map_set, ← own, List.set_getElem_self]
      have brings : Brings traffic.calls id _ _ _ := .close
      have joins : Awaits traffic.calls id _ := .joined
      simp only [ask]
      split
      all_goals
        rename_i asked
        have kept := Service.requestOrJoinEnd_waiting asked
        have decided := Service.requestOrJoinEnd_decided asked
      · exact .setsOut
          { errand := .release brings
            verdict := by simpa using decided.idle
            waiting := by simpa [addTask, eq_comm] using kept
            closings := by simp [addTask, same] }
      · exact .setsOut
          { errand := .waits .close
            verdict := by simpa using decided.advancing
            waiting := by simpa [eq_comm] using kept
            closings := by simp [same] }
      · exact .setsOut
          { errand := .waits joins
            waiting := by simpa [eq_comm] using kept
            closings := by simp [same] }
      · exact .setsOut
          { errand := .refused
            waiting := by simpa using kept
            closings := by simp [same] }
    · rw [List.eraseIdx_eq_take_drop_succ]
      exact .closes (split_of_getElem? found)
    · exact .idle

theorem act_moves (act : Act) (traffic : Traffic σ ι) :
    traffic.Moves (traffic.act act).1 (traffic.act act).2 := by
  cases act with
  | call request =>
    obtain ⟨tasks, pause, new⟩ := start_setsOut request traffic
    exact .setsOut new
  | run place => exact runTask_moves place traffic
  | pursue place => exact pursue_moves place traffic

theorem Moves.opens {event : Event} (moves : traffic.Moves events after) (member : event ∈ events)
    (opens : event.opens = true) : event.call = traffic.calls := by
  cases moves with
  | idle => cases member
  | setsOut new => exact new.errand.own.1 event member
  | runs split =>
    rw [Task.run_opens _ _ event member] at opens
    cases opens
  | closes split =>
    rw [List.mem_singleton] at member
    subst member
    cases opens

/-- A move that grants an end starts an errand. -/
theorem Moves.granted {call : Nat} {id : ScanId} {deferred : Bool}
    (moves : traffic.Moves events after) (granted : .granted call id deferred ∈ events) :
    ∃ tasks pause, SetsOut events tasks pause traffic after := by
  cases moves with
  | idle => cases granted
  | setsOut new => exact ⟨_, _, new⟩
  | runs split => exact nomatch Task.run_opens _ _ _ granted
  | closes split => simp at granted

end Traffic
end KeyScan
