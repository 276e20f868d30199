import KeyScan.Proofs.Traffic.Ledger

namespace KeyScan

def Asked (past : List Event) (call : Nat) (id : ScanId) (action : Action) : Prop :=
  ∃ route, .called call (.scan route id action) ∈ past

/-- An advance of a scan was begun and is not over. -/
def UnderWay (past : List Event) (id : ScanId) : Prop :=
  ∃ call, .begun call id ∈ past ∧ .left call id ∉ past

def Event.scan? : Event → Option ScanId
  | .called _ (.scan _ id _) | .begun _ id | .granted _ id _ | .left _ id | .released _ id
  | .withdrawn _ id | .concluded _ id => some id
  | .called _ (.create _) | .called _ .close | .answered _ _ => none

theorem split_append {α : Type} {past events front back : List α} {item : α}
    (split : past ++ events = front ++ item :: back) :
    (∃ rest, past = front ++ item :: rest) ∨
      ∃ middle rest, front = past ++ middle ∧ events = middle ++ item :: rest := by
  rcases List.append_eq_append_iff.mp split with ⟨middle, same, rest⟩ | ⟨middle, same, rest⟩
  · exact .inr ⟨middle, back, same, rest⟩
  · cases middle with
    | nil => exact .inr ⟨[], back, by simpa using same.symm, by simpa using rest.symm⟩
    | cons first middle =>
      obtain ⟨rfl, -⟩ := List.cons.inj rest
      exact .inl ⟨middle, same⟩

private theorem underWay_append {past events : List Event} {id : ScanId}
    (still : ∀ event ∈ events, ∀ number other,
      event ≠ .begun number other ∧ event ≠ .left number other) :
    UnderWay (past ++ events) id ↔ UnderWay past id := by
  have same (number : Nat) : (.begun number id ∈ past ++ events ↔ .begun number id ∈ past) ∧
      (.left number id ∈ past ++ events ↔ .left number id ∈ past) := by
    constructor
    · rw [List.mem_append, or_iff_left fun member => (still _ member number id).1 rfl]
    · rw [List.mem_append, or_iff_left fun member => (still _ member number id).2 rfl]
  exact exists_congr fun number => and_congr (same number).1 (not_congr (same number).2)

section Errands

variable {call : Nat} {id : ScanId} {events before : List Event} {tasks : List Task} {pause : Pause}

/-- An errand is about one scan. -/
theorem Errand.about (errand : Errand call events tasks pause) :
    ∃ id, (∀ event ∈ events, ∀ other, event.scan? = some other → other = id) ∧
      (∀ task ∈ tasks, task.id = id) ∧ ∀ other, pause = .ending other → other = id := by
  cases errand with
  | unmade | closing | refused => exact ⟨0, by simp [Event.scan?]⟩
  | replied request =>
    cases request with
    | create _ | close => exact ⟨0, by simp [Event.scan?]⟩
    | scan _ id _ => exact ⟨id, by simp [Event.scan?]⟩
  | fetch _ id | leave _ id | deliver _ id | advanced _ id | putOff _ id =>
    exact ⟨id, by simp [Event.scan?]⟩
  | @waits id _ awaits | @told id _ awaits =>
    exact ⟨id, by cases awaits <;> simp [Event.scan?]⟩
  | @release id _ _ _ brings | @withdraw id _ _ _ brings | @conclude id _ _ _ brings
  | @settle id _ _ _ brings | @done id _ _ _ brings =>
    exact ⟨id, by cases brings <;> simp [Event.scan?, Pause.told]⟩

theorem Errand.called_unique {first second : Request} (errand : Errand call events tasks pause)
    (one : .called call first ∈ events) (two : .called call second ∈ events) : first = second := by
  cases errand with
  | waits awaits | told awaits => cases awaits <;> simp_all
  | release brings | withdraw brings | conclude brings | settle brings | done brings =>
    cases brings <;> simp_all [Pause.told]
  | _ => simp_all

private theorem Errand.granted_still {deferred : Bool} (errand : Errand call events tasks pause)
    (granted : .granted call id deferred ∈ events) :
    ∀ event ∈ events, ∀ number other, event ≠ .begun number other ∧ event ≠ .left number other := by
  cases errand with
  | waits awaits | told awaits => cases awaits <;> simp_all
  | release brings | withdraw brings | conclude brings | settle brings | done brings =>
    cases brings <;> simp_all [Pause.told]
  | _ => simp_all

private theorem Errand.bound (errand : Errand call events tasks pause) (begun : .begun call id ∈ events)
    (underWay : .left call id ∉ events) : ∃ task ∈ tasks, task.duty? id = some .advance := by
  cases errand with
  | waits awaits | told awaits => cases awaits <;> simp_all
  | release brings | withdraw brings | conclude brings | settle brings | done brings =>
    cases brings <;> simp_all [Pause.told]
  | _ => simp_all [Task.duty?, Stage.duty?]

private theorem Errand.begun_of_duty {task : Task} (errand : Errand call events tasks pause)
    (member : task ∈ tasks) (bound : task.duty? id = some .advance) :
    .begun call id ∈ events ∧ .left call id ∉ events := by
  cases errand with
  | waits awaits | told awaits => cases member
  | release brings | withdraw brings | conclude brings | settle brings | done brings =>
    simp_all [Task.duty?, Stage.duty?]
  | _ => simp_all [Task.duty?, Stage.duty?]

theorem Errand.not_ending_of_endNow {route : Route} {other : ScanId}
    (errand : Errand call events tasks (.ending other)) :
    .called call (.scan route id .endNow) ∉ events := by
  cases errand with
  | waits awaits => cases awaits <;> simp
  | release brings | withdraw brings | conclude brings => cases brings <;> simp

theorem Errand.unanswered_of_ending {other : ScanId} {reply : Reply}
    (errand : Errand call events tasks (.ending other)) : .answered call reply ∉ events := by
  cases errand with
  | waits awaits => cases awaits <;> simp
  | release brings | withdraw brings | conclude brings => cases brings <;> simp

end Errands

variable {σ ι : Type} [Engine σ ι]

theorem Task.run_waiting {service : Service σ ι} {call : Nat} {id : ScanId} (task : Task)
    (waits : call ∈ service.waiting id) :
    call ∈ (task.run service).2.2.waiting id ∨
      .concluded ∈ milestones id (task.run service).1 ∧
        .answered call (.ended true) ∈ (task.run service).1 := by
  obtain ⟨runner, own, stage⟩ := task
  cases stage with
  | fetch mode => exact .inl ((service.fetch_waiting mode own id).symm ▸ waits)
  | leave mode outcome =>
    have kept := service.leave_waiting own id
    simp only [run]
    split <;> exact .inl (kept.symm ▸ waits)
  | release ending => exact .inl ((service.release_waiting own id).symm ▸ waits)
  | conclude ending =>
    by_cases here : id = own
    · subst here
      rw [← Service.conclude_told] at waits
      exact .inr ⟨by simp [run, Event.milestone?], List.mem_cons_of_mem _ (List.mem_map_of_mem waits)⟩
    · have kept := service.conclude_waiting own id
      rw [if_neg here] at kept
      exact .inl (kept.symm ▸ waits)
  | deliver outcome pending | withdraw ending | settle ending => exact .inl waits

/-- Whoever is told that a scan has ended waited for that or was to be told by its own task. The
scan has been released and withdrawn by then, by the call whose task tells of it. -/
theorem Task.run_told {task : Task} {service : Service σ ι} {before : List Event} {pause : Pause}
    {call : Nat} (errand : Errand task.call before [task] pause)
    (told : .answered call (.ended true) ∈ (task.run service).1) :
    .released task.call task.id ∈ before ∧ .withdrawn task.call task.id ∈ before ∧
      (call ∈ service.waiting task.id ∨ call = task.call ∧ ∃ route,
        .called call (.scan route task.id .endNow) ∈ before) := by
  obtain ⟨runner, id, stage⟩ := task
  cases stage with
  | fetch mode => simp [run] at told
  | leave mode outcome =>
    cases errand with
    | leave route _ _ page =>
      simp only [run] at told
      split at told <;> simp [Ne.symm (page true)] at told
  | deliver outcome pending =>
    cases errand with
    | deliver route _ _ page => simp [run, Ne.symm (page true)] at told
  | release ending => simp [run] at told
  | withdraw ending => simp [run] at told
  | conclude ending =>
    cases errand with
    | conclude brings =>
      have heard : call ∈ (service.conclude id).1 := by simpa [run] using told
      rw [Service.conclude_told] at heard
      exact ⟨by simp, by simp, .inl heard⟩
  | settle ending =>
    cases errand with
    | settle brings =>
      refine ⟨by simp, by simp, .inr ?_⟩
      cases brings with
      | now route =>
        have own : call = runner := by simpa [run] using told
        exact ⟨own, route, by simp [own]⟩
      | later _ => simp [run] at told
      | close => simp [run] at told
      | waiting _ page => simp [run, Ne.symm (page true)] at told
      | pooled _ page => simp [run] at told

namespace Traffic

variable {traffic after : Traffic σ ι} {past events : List Event} {created call : Nat} {id : ScanId}

section Numbers

omit [Engine σ ι]

theorem Ledger.given {event : Event} (ledger : traffic.Ledger past) (member : event ∈ past) :
    event.call < traffic.calls := by
  obtain ⟨pause, kept⟩ := ledger event.call
  refine Nat.lt_of_not_le fun later => ?_
  have own := mem_seen.mpr member
  rw [(kept.unmade later).1] at own
  cases own

theorem Ledger.remaining_eq {task : Task} (ledger : traffic.Ledger past)
    (member : task ∈ traffic.tasks) : remaining task.call traffic.tasks = [task] := by
  obtain ⟨pause, kept⟩ := ledger task.call
  obtain ⟨front, back, same⟩ := List.append_of_mem (mem_remaining.mpr member)
  have errand := kept.errand
  rw [same, ← List.singleton_append, ← List.append_assoc] at errand
  obtain ⟨rfl, rfl, -⟩ := errand.alone
  exact same

theorem Keeps.given (kept : traffic.Keeps call (.ending id) past) : call < traffic.calls :=
  Nat.lt_of_not_le fun later => nomatch (kept.unmade later).2.2

theorem Ledger.unanswered_of_waiting {reply : Reply} (ledger : traffic.Ledger past)
    (waits : call ∈ traffic.service.waiting id) : .answered call reply ∉ past := by
  obtain ⟨pause, kept⟩ := ledger call
  obtain rfl := kept.waits.mem_iff.mp waits
  exact fun answered => kept.errand.unanswered_of_ending (mem_seen.mpr answered)

theorem Ledger.seen_of_closing {closing : Closing} (ledger : traffic.Ledger past)
    (member : closing ∈ traffic.closings) :
    seen closing.call past = [.called closing.call .close] := by
  obtain ⟨pause, kept⟩ := ledger closing.call
  have counted : 0 < (traffic.closings.map Closing.call).count closing.call :=
    List.count_pos_iff.mpr (List.mem_map_of_mem member)
  rw [kept.closing] at counted
  split at counted
  · rename_i paused
    subst paused
    exact kept.errand.closing_eq.1
  · exact absurd counted (Nat.lt_irrefl 0)

theorem Ledger.unanswered_of_closing {closing : Closing} {reply : Reply} (ledger : traffic.Ledger past)
    (member : closing ∈ traffic.closings) : .answered closing.call reply ∉ past := by
  intro answered
  have own : .answered closing.call reply ∈ seen closing.call past := mem_seen.mpr answered
  simp [ledger.seen_of_closing member] at own

/-- An advance is under way exactly if a task is bound to it. -/
theorem Ledger.underWay_iff (ledger : traffic.Ledger past) (id : ScanId) :
    UnderWay past id ↔ .advance ∈ duties id traffic.tasks := by
  constructor
  · rintro ⟨call, begun, underWay⟩
    obtain ⟨pause, kept⟩ := ledger call
    have own : Event.begun call id ∈ seen call past := mem_seen.mpr begun
    have still : Event.left call id ∉ seen call past := fun left => underWay (mem_seen.mp left)
    obtain ⟨task, member, bound⟩ := kept.errand.bound own still
    exact List.mem_filterMap.mpr ⟨task, mem_of_remaining member, bound⟩
  · intro owed
    obtain ⟨task, member, bound⟩ := List.mem_filterMap.mp owed
    obtain ⟨pause, kept⟩ := ledger task.call
    obtain ⟨begun, still⟩ := kept.errand.begun_of_duty (mem_remaining.mpr member) bound
    exact ⟨task.call, mem_seen.mp begun, fun left => still (mem_seen.mpr left)⟩

theorem Regular.granted_unique {other : Nat} {deferred late : Bool}
    (regular : traffic.Regular past created) (one : .granted call id deferred ∈ past)
    (two : .granted other id late ∈ past) :
    call = other ∧ deferred = late := by
  have once : (milestones id past).count .granted ≤ 1 := (regular.orderly id).life.granted_once
  have same := eq_of_milestone once one two (if_pos rfl) (if_pos rfl)
  cases same
  exact ⟨rfl, rfl⟩

end Numbers

theorem Moves.asked_before {action : Action} (moves : traffic.Moves events after)
    (given : call < traffic.calls) (asked : Asked (past ++ events) call id action) :
    Asked past call id action := by
  obtain ⟨route, called⟩ := asked
  rcases List.mem_append.mp called with old | new
  · exact ⟨route, old⟩
  · have fresh : (Event.called call (.scan route id action)).call = traffic.calls :=
      moves.opens new rfl
    exact absurd given (fresh ▸ Nat.lt_irrefl _)

/-- Whoever waits for the end of a scan waits on, or it is concluded and they are told. -/
theorem Moves.waiting (moves : traffic.Moves events after)
    (waits : call ∈ traffic.service.waiting id) :
    call ∈ after.service.waiting id ∨
      .concluded ∈ milestones id events ∧ .answered call (.ended true) ∈ events := by
  cases moves with
  | idle | closes => exact .inl waits
  | setsOut new =>
    rw [new.waiting]
    exact .inl (List.mem_append_left _ waits)
  | @runs _ _ task _ _ service =>
    rw [service]
    exact task.run_waiting waits

/-- Whoever is told that a scan has ended waits for that or has asked for it to come first. By then
the scan has been released and withdrawn. -/
theorem Regular.told (regular : traffic.Regular past created) (moves : traffic.Moves events after)
    (told : .answered call (.ended true) ∈ events) :
    ∃ ender id, .released ender id ∈ past ∧ .withdrawn ender id ∈ past ∧
      (traffic.Keeps call (.ending id) past ∨ call = ender ∧ Asked past call id .endNow) := by
  cases moves with
  | idle => cases told
  | setsOut new => exact absurd rfl (new.initial _ told)
  | @runs front back task after split =>
    obtain ⟨pause, kept⟩ := regular.ledger task.call
    have errand := kept.errand
    rw [split, remaining_append, remaining_append, remaining_self] at errand
    obtain ⟨released, withdrawn, why⟩ := task.run_told errand.alone.2.2 told
    refine ⟨task.call, task.id, mem_seen.mp released, mem_seen.mp withdrawn, ?_⟩
    rcases why with waits | ⟨own, route, called⟩
    · obtain ⟨pause, kept⟩ := regular.ledger call
      exact .inl (kept.waits.mem_iff.mp waits ▸ kept)
    · subst own
      exact .inr ⟨rfl, route, mem_seen.mp called⟩
  | closes split => simp at told

/-- Every end in a record was deferred exactly if an advance was under way when it was granted. -/
def Deferral (past : List Event) : Prop :=
  ∀ front call id deferred back, past = front ++ .granted call id deferred :: back →
    (deferred = true ↔ UnderWay front id)

theorem Regular.deferral (regular : traffic.Regular past created) (moves : traffic.Moves events after)
    (deferral : Deferral past) : Deferral (past ++ events) := by
  intro front call id deferred back split
  rcases split_append split with ⟨rest, old⟩ | ⟨middle, rest, rfl, new⟩
  · exact deferral front call id deferred rest old
  · have granted : .granted call id deferred ∈ events := new ▸ by simp
    obtain ⟨tasks, pause, out⟩ := moves.granted granted
    have own : call = traffic.calls := out.errand.own.1 _ granted
    have still := out.errand.granted_still (own ▸ granted)
    have phase := out.verdict call id deferred granted
    have unmoved : UnderWay (past ++ middle) id ↔ UnderWay past id :=
      underWay_append fun event member => still event (new ▸ List.mem_append_left _ member)
    rw [Service.phase?_eq_condition] at phase
    rw [unmoved, regular.ledger.underWay_iff]
    exact (regular.orderly id).life.advance_iff phase

end Traffic
end KeyScan
