import KeyScan.Proofs.Service.Frame
import KeyScan.Traffic.Completion

namespace KeyScan

variable {σ ι : Type} [Engine σ ι]

/-- A task that runs to its end with nothing in between: what can be seen, and the service then. -/
inductive Task.RunsOut : Task → Service σ ι → List Event → Service σ ι → Prop where
  | last {task : Task} {service after : Service σ ι} {events : List Event}
      (run : task.run service = (events, none, after)) : RunsOut task service events after
  | more {task next : Task} {service middle after : Service σ ι} {events more : List Event}
      (run : task.run service = (events, some next, middle))
      (rest : RunsOut next middle more after) : RunsOut task service (events ++ more) after

/-- Every section brings a task closer to its end. -/
theorem Task.run_rank {task next : Task} {service : Service σ ι}
    (left : (task.run service).2.1 = some next) : next.stage.rank < task.stage.rank := by
  unfold Task.run at left
  split at left
  all_goals
    rename_i stage
    rw [stage]
  · cases left
    simp [Stage.rank]
  · simp only at left
    split at left <;> cases left <;> simp [Stage.rank]
  · simp only at left
    split at left <;> cases left
    simp [Stage.rank]
  · cases left
    simp [Stage.rank]
  · cases left
    simp [Stage.rank]
  · cases left
    simp [Stage.rank]
  · cases left

namespace Traffic

theorem start_live {id : ScanId} (traffic : Traffic σ ι)
    (live : traffic.service.roster.isLive id = true) (route : Route) (action : Action) :
    traffic.start (.scan route id action) =
      (.called traffic.calls (.scan route id action) ::
          ({ traffic with calls := traffic.calls + 1 }.startAction action id traffic.calls).1,
        ({ traffic with calls := traffic.calls + 1 }.startAction action id traffic.calls).2) := by
  cases route with
  | roster => simp [start, startRequest, Service.lookUp, live]
  | held => rfl

theorem complete_quiet {traffic : Traffic σ ι} (quiet : traffic.isQuiet = true) (fuel : Nat) :
    traffic.complete fuel = ([], traffic) := by
  cases fuel with
  | zero => rfl
  | succ fuel => rw [complete, if_pos quiet]

/-- A task alone in traffic is run to its end. -/
theorem complete_alone {task : Task} {service after : Service σ ι} {events : List Event}
    (out : task.RunsOut service events after) (fuel calls : Nat)
    (enough : task.stage.rank ≤ fuel) :
    complete fuel { service, tasks := [task], calls } =
      (events, { service := after, calls }) := by
  induction out generalizing fuel with
  | last run =>
    rename_i task _ _ _
    cases fuel with
    | zero => cases stage : task.stage <;> simp [stage, Stage.rank] at enough
    | succ fuel => simp [complete, isQuiet, runTask, run, hear, complete_quiet]
  | more run rest ih =>
    rename_i task next _ _ _ _ _
    have closer : next.stage.rank < task.stage.rank :=
      Task.run_rank (congrArg (fun result => result.2.1) run)
    cases fuel with
    | zero => exact absurd (Nat.lt_of_lt_of_le closer enough) (Nat.not_lt_zero _)
    | succ fuel =>
      simp [complete, isQuiet, runTask, run, hear, ih fuel (by omega)]

/-- Traffic whose tasks are all on one scan, with no close in progress. -/
structure Only (id : ScanId) (traffic : Traffic σ ι) : Prop where
  tasks : ∀ task ∈ traffic.tasks, task.id = id
  closings : traffic.closings = []

omit [Engine σ ι] in
private theorem Only.addTask {id : ScanId} {traffic : Traffic σ ι} (only : traffic.Only id) (call : Nat)
    (stage : Stage) (service : Service σ ι) :
    ({ traffic with service }.addTask ⟨call, id, stage⟩).Only id where
  tasks task member := by
    rcases List.mem_append.mp member with old | new
    · exact only.tasks task old
    · rw [List.mem_singleton.mp new]
  closings := only.closings

private theorem startAction_only {id : ScanId} {traffic : Traffic σ ι} (only : traffic.Only id)
    (action : Action) (call : Nat) : (traffic.startAction action id call).2.Only id := by
  unfold startAction
  split
  · split <;> exact ⟨only.tasks, only.closings⟩
  · split
    · exact only.addTask _ _ _
    · exact ⟨only.tasks, only.closings⟩
  · split
    · exact only.addTask _ _ _
    · exact ⟨only.tasks, only.closings⟩
    · exact ⟨only.tasks, only.closings⟩
  · split
    · exact only.addTask _ _ _
    · exact ⟨only.tasks, only.closings⟩
    · exact ⟨only.tasks, only.closings⟩

private theorem runTask_only {id : ScanId} {traffic : Traffic σ ι} (only : traffic.Only id) (place : Nat) :
    (traffic.runTask place).2.Only id := by
  unfold runTask
  split
  · exact only
  · rename_i task found
    have own := only.tasks task (List.mem_of_getElem? found)
    refine ⟨?_, by simp [hear, only.closings]⟩
    intro other member
    simp only [hear] at member
    split at member
    · rename_i next run
      rcases List.mem_or_eq_of_mem_set member with old | rfl
      · exact only.tasks other old
      · exact (Task.run_id run).trans own
    · exact only.tasks other (List.mem_of_mem_eraseIdx member)

theorem complete_respects {id : ScanId} {R : Service σ ι → Service σ ι → Prop}
    (respected : Respected id R) (fuel : Nat) {traffic : Traffic σ ι} (only : traffic.Only id) :
    R traffic.service (traffic.complete fuel).2.service := by
  induction fuel generalizing traffic with
  | zero => exact respected.refl _
  | succ fuel ih =>
    unfold complete
    split
    · exact respected.refl _
    · rename_i busy
      have some_task : traffic.tasks.isEmpty = false := by
        simpa [isQuiet, only.closings] using busy
      simp only [some_task, Bool.false_eq_true, ↓reduceIte]
      refine respected.trans _ _ _ ?_ (ih (runTask_only only 0))
      unfold runTask
      split
      · exact respected.refl _
      · rename_i task found
        have own := only.tasks task (List.mem_of_getElem? found)
        subst own
        exact respected.run task.call task.stage traffic.service

end Traffic

namespace Service

variable {service middle after : Service σ ι} {request : Request} {events more : List Event}

theorem perform_at_once
    (started : Traffic.start request { service } = (events, { service := after, calls := 1 })) :
    service.perform request =
      ((Traffic.reply? 0 events).getD (.failed .undelivered), after) := by
  have quiet : Traffic.isQuiet { service := after, calls := 1 } = true := rfl
  simp only [perform, started, Traffic.complete_quiet quiet, List.append_nil]

theorem perform_task {task : Task}
    (started : Traffic.start request { service } =
      (events, { service := middle, tasks := [task], calls := 1 }))
    (out : task.RunsOut middle more after) :
    service.perform request =
      ((Traffic.reply? 0 (events ++ more)).getD (.failed .undelivered), after) := by
  have complete := Traffic.complete_alone out
    (Traffic.rank { service := middle, tasks := [task], calls := 1 }) 1 (by simp [Traffic.rank])
  simp only [perform, started, complete]

/-- What every section on a scan respects, a whole call on it respects. -/
theorem perform_respects {id : ScanId} {R : Service σ ι → Service σ ι → Prop}
    (respected : Respected id R) (service : Service σ ι) (route : Route) (action : Action) :
    R service (service.perform (.scan route id action)).2 := by
  have only : Traffic.Only id ({ service, calls := 1 } : Traffic σ ι) :=
    ⟨fun _ member => absurd member List.not_mem_nil, rfl⟩
  have began : R service (Traffic.start (.scan route id action) { service }).2.service ∧
      (Traffic.start (.scan route id action) { service }).2.Only id := by
    have called := respected.startAction action 0 { service, calls := 1 }
    have left := Traffic.startAction_only only action 0
    cases route with
    | held => exact ⟨called, left⟩
    | roster =>
      simp only [Traffic.start, Traffic.startRequest]
      split
      · exact ⟨called, left⟩
      · exact ⟨respected.refl service, only⟩
  exact respected.trans _ _ _ began.1 (Traffic.complete_respects respected _ began.2)

theorem perform_touches (service : Service σ ι) (route : Route) (id : ScanId) (action : Action) :
    service.Touches id (service.perform (.scan route id action)).2 :=
  perform_respects (touches_respected id) service route action

end Service
end KeyScan
