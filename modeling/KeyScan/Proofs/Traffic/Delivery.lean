import KeyScan.Proofs.Traffic.Record

/-! An end waits for delivery. Nothing of an end that is granted or joined while a pooled advance is
under way takes place before the page of that advance has been delivered. An end that is granted
after the advance was left, but before its page was delivered, need not wait. -/
namespace KeyScan

/-- Whether an event shows that the end of a scan takes place: the scan is released, withdrawn or
concluded, or a number is told that it has ended. -/
def Event.Terminates (ender : Nat) (id : ScanId) : Event → Prop
  | .released _ other | .withdrawn _ other | .concluded _ other => other = id
  | .answered call reply => call = ender ∧ reply = .ended true
  | .called _ _ | .begun _ _ | .granted _ _ _ | .left _ _ => False

/-- Nothing of the end of a scan takes place, as far as a number can tell, before a call is
answered. -/
def EndAwaits (past : List Event) (ender : Nat) (id : ScanId) (call : Nat) : Prop :=
  ∀ front event back, past = front ++ event :: back → event.Terminates ender id →
    ∃ outcome, .answered call outcome ∈ front

def Admitted (past : List Event) (call : Nat) (id : ScanId) : Prop :=
  Asked past call id (.advance .pooled) ∧ .begun call id ∈ past

/-- A number was granted the end of a scan after a pooled advance had been admitted. -/
def GrantedAfter (past : List Event) (ender : Nat) (id : ScanId) (call : Nat) : Prop :=
  ∃ front deferred back, past = front ++ .granted ender id deferred :: back ∧ Admitted front call id

/-- A number has part in the end of a scan: it was granted the end, or waits for one that was
granted to another. -/
def Traffic.Party {σ ι : Type} (past : List Event) (ender : Nat) (id : ScanId)
    (traffic : Traffic σ ι) : Prop :=
  (∃ deferred, .granted ender id deferred ∈ past) ∨ ender ∈ traffic.service.waiting id

/-- Whether a task has a page to deliver on which an end may wait. -/
def Stage.delivers : Stage → Bool
  | .fetch _ | .leave _ _ => true
  | .deliver _ pending => pending
  | _ => false

section Errands

variable {call : Nat} {id : ScanId} {events : List Event} {tasks : List Task} {pause : Pause}

/-- A pooled advance that was admitted is answered, or has its page still to be delivered. -/
theorem Errand.delivers {route : Route} (errand : Errand call events tasks pause)
    (called : .called call (.scan route id (.advance .pooled)) ∈ events)
    (begun : .begun call id ∈ events) :
    (∃ outcome, .answered call outcome ∈ events) ∨
      ∃ task ∈ tasks, task.id = id ∧
        (task.stage.delivers = true ∨ ∃ outcome, task = ⟨call, id, .deliver outcome false⟩) := by
  cases errand with
  | waits awaits | told awaits => cases awaits <;> simp_all
  | release brings | withdraw brings | conclude brings | settle brings | done brings =>
    cases brings <;> simp_all [Pause.told]
  | deliver route other pending page => cases pending <;> simp_all [Stage.delivers]
  | _ => simp_all [Stage.delivers]

private theorem Errand.left_of_deliver {outcome : Reply} {pending : Bool}
    (errand : Errand call events tasks pause)
    (member : ⟨call, id, .deliver outcome pending⟩ ∈ tasks) :
    .left call id ∈ events := by
  cases errand <;> simp_all

end Errands

private theorem Event.Terminates.cases {event : Event} {ender : Nat} {id : ScanId}
    (terminates : event.Terminates ender id) :
    event = .answered ender (.ended true) ∨
      ∃ milestone, event.milestone? id = some milestone ∧ milestone ≠ .granted := by
  cases event <;> simp_all [Terminates, milestone?]

variable {σ ι : Type} [Engine σ ι]

/-- A task that brings a milestone about is bound to do so, and has no page to deliver. -/
theorem Task.run_milestone {task : Task} {service : Service σ ι} {event : Event} {id : ScanId}
    {milestone : Milestone} (member : event ∈ (task.run service).1)
    (passed : event.milestone? id = some milestone) :
    task.id = id ∧ task.duty? id ≠ none ∧ task.stage.delivers = false := by
  have here : task.id = id := by
    refine Decidable.byContradiction fun apart => ?_
    have silent := List.filterMap_eq_nil_iff.mp (task.run_milestones apart service) event member
    rw [silent] at passed
    cases passed
  subst here
  obtain ⟨call, id, stage⟩ := task
  cases stage with
  | fetch mode => cases member
  | leave mode outcome =>
    simp only [run] at member
    split at member <;> simp only [List.mem_cons, List.not_mem_nil, or_false] at member
    · subst member
      cases passed
    · subst member
      cases passed
    · rcases member with rfl | rfl <;> cases passed
  | deliver outcome pending =>
    obtain rfl : event = .answered call outcome := by simpa [run] using member
    cases passed
  | release ending | withdraw ending | conclude ending => simp [Stage.duty?, Stage.delivers]
  | settle ending =>
    obtain ⟨reply, -, rfl⟩ := List.mem_map.mp member
    cases passed

/-- A page comes to be delivered with no end waiting for it only if none waits as the advance is
left. -/
theorem Task.run_deliver {task : Task} {service : Service σ ι} {call : Nat} {id : ScanId}
    {outcome : Reply}
    (rest : (task.run service).2.1 = some ⟨call, id, .deliver outcome false⟩) :
    task.duty? id = some .advance ∧ (service.leave id).1 = false := by
  obtain ⟨runner, own, stage⟩ := task
  cases stage with
  | leave mode page =>
    obtain ⟨pending, after, left⟩ : ∃ pending after, service.leave own = (pending, after) :=
      ⟨_, _, rfl⟩
    simp only [run, left] at rest
    cases mode with
    | pooled =>
      obtain ⟨-, rfl, -, rfl⟩ : runner = call ∧ own = id ∧ page = outcome ∧ pending = false := by
        simpa using rest
      exact ⟨by simp [Stage.duty?], by rw [left]⟩
    | waiting => cases pending <;> simp at rest
  | deliver outcome pending => cases pending <;> simp [run] at rest
  | _ => simp [run] at rest

namespace Traffic

variable {traffic after : Traffic σ ι} {past events : List Event} {created ender call : Nat}
  {id : ScanId}

theorem Moves.milestone {event : Event} {milestone : Milestone} (moves : traffic.Moves events after)
    (member : event ∈ events) (passed : event.milestone? id = some milestone)
    (late : milestone ≠ .granted) :
    ∃ task ∈ traffic.tasks, task.duty? id ≠ none ∧ task.stage.delivers = false := by
  cases moves with
  | idle => cases member
  | setsOut new =>
    have initial := new.initial event member
    cases event <;> simp_all [Event.Initial, Event.milestone?]
  | @runs _ _ task _ split => exact ⟨task, by simp [split], (task.run_milestone member passed).2⟩
  | closes split =>
    rw [List.mem_singleton] at member
    subst member
    cases passed

/-- A task after a move was there before, is that of a new number, or is left of one that was
there. -/
theorem Moves.task {task : Task} (moves : traffic.Moves events after) (member : task ∈ after.tasks) :
    task ∈ traffic.tasks ∨ task.call = traffic.calls ∨
      ∃ running ∈ traffic.tasks, (running.run traffic.service).2.1 = some task := by
  cases moves with
  | idle => exact .inl member
  | setsOut new =>
    rw [new.tasks] at member
    exact (List.mem_append.mp member).imp_right fun fresh => .inl (new.errand.own.2 task fresh)
  | @runs _ _ running _ split _ tasks =>
    rw [tasks, List.append_assoc] at member
    rw [split, List.append_assoc]
    rcases List.mem_append.mp member with front | other
    · exact .inl (List.mem_append_left _ front)
    · rcases List.mem_append.mp other with rest | back
      · exact .inr (.inr ⟨running, by simp, Option.mem_toList.mp rest⟩)
      · exact .inl (List.mem_append_right _ (List.mem_append_right _ back))
  | closes split => exact .inl member

theorem Regular.released_of_told (regular : traffic.Regular past created)
    (moves : traffic.Moves events after) (party : traffic.Party past ender id)
    (told : .answered ender (.ended true) ∈ events) : ∃ releaser, .released releaser id ∈ past := by
  obtain ⟨releaser, other, released, -, why⟩ := regular.told moves told
  have here : other = id := by
    rcases why with again | ⟨-, route, asked⟩
    · rcases party with ⟨deferred, granted⟩ | waits
      · obtain ⟨_, about, -, ending⟩ := again.errand.about
        rw [ending other rfl, about _ (mem_seen.mpr granted) id rfl]
      · exact Pause.ending.inj (again.waits.mem_iff.mp waits)
    · obtain ⟨pause, kept⟩ := regular.ledger ender
      rcases party with ⟨deferred, granted⟩ | waits
      · obtain ⟨_, about, -, -⟩ := kept.errand.about
        rw [about _ (mem_seen.mpr asked) other rfl, about _ (mem_seen.mpr granted) id rfl]
      · -- whoever waits has not asked for the end to come first
        obtain rfl := kept.waits.mem_iff.mp waits
        exact absurd (mem_seen.mpr asked) kept.errand.not_ending_of_endNow
  exact ⟨releaser, here ▸ released⟩

/-- Whoever was granted the end of a scan and was told that it has come: the scan was released. -/
def Informed (past : List Event) : Prop :=
  ∀ ender id deferred, .granted ender id deferred ∈ past → .answered ender (.ended true) ∈ past →
    .released ∈ milestones id past

private theorem Regular.informed (regular : traffic.Regular past created)
    (moves : traffic.Moves events after) (informed : Informed past) : Informed (past ++ events) := by
  intro ender id deferred granted told
  rw [milestones_append]
  refine List.mem_append_left _ ?_
  rcases List.mem_append.mp granted with old | new
  · rcases List.mem_append.mp told with before | now
    · exact informed ender id deferred old before
    · obtain ⟨releaser, released⟩ := regular.released_of_told moves (.inl ⟨deferred, old⟩) now
      exact List.mem_filterMap.mpr ⟨_, released, if_pos rfl⟩
  · -- an end is granted under a new number, and reported later
    obtain ⟨tasks, pause, out⟩ := moves.granted new
    rcases List.mem_append.mp told with before | now
    · have given : (Event.answered ender (.ended true)).call < traffic.calls :=
        regular.ledger.given before
      have own : ender = traffic.calls := out.errand.own.1 _ new
      exact absurd given (own ▸ Nat.lt_irrefl _)
    · exact absurd rfl (out.initial _ now)

/-- The end of a scan waits for the page of a pooled advance, and that page is not delivered without
the end being carried out next. -/
structure AwaitsPage (ender : Nat) (id : ScanId) (call : Nat) (past : List Event)
    (traffic : Traffic σ ι) : Prop where
  admitted : Admitted past call id
  granted : .granted ∈ milestones id past
  party : traffic.Party past ender id ∨ .answered ender (.ended true) ∈ past
  awaits : EndAwaits past ender id call
  undelivered : ∀ outcome, ⟨call, id, .deliver outcome false⟩ ∉ traffic.tasks

omit [Engine σ ι] in
/-- While a pooled advance is under way, every end that was granted or joined waits for its page. -/
theorem Regular.awaitsPage (regular : traffic.Regular past created) (informed : Informed past)
    (admitted : Admitted past call id) (underWay : .left call id ∉ past)
    (party : traffic.Party past ender id) : traffic.AwaitsPage ender id call past := by
  have life := (regular.orderly id).life
  have owed := (regular.ledger.underWay_iff id).mp ⟨call, admitted.2, underWay⟩
  have unreleased : .released ∉ milestones id past :=
    fun passed => nomatch life.granted_of_advance owed passed
  refine ⟨admitted, ?_, .inl party, ?_, ?_⟩
  · rcases party with ⟨deferred, granted⟩ | waits
    · exact List.mem_filterMap.mpr ⟨_, granted, if_pos rfl⟩
    · have ending := regular.attended.phase (List.ne_nil_of_mem waits)
      rw [Service.phase?_eq_condition] at ending
      exact life.granted_of_ending ending
  · intro front event back split terminates
    have member : event ∈ past := split ▸ by simp
    rcases terminates.cases with rfl | ⟨milestone, passed, late⟩
    · rcases party with ⟨deferred, granted⟩ | waits
      · exact absurd (informed ender id deferred granted member) unreleased
      · obtain ⟨pause, kept⟩ := regular.ledger ender
        obtain rfl := kept.waits.mem_iff.mp waits
        exact absurd (mem_seen.mpr member) kept.errand.unanswered_of_ending
    · exact absurd (life.granted_of_advance owed (List.mem_filterMap.mpr ⟨_, member, passed⟩)) late
  · intro outcome member
    obtain ⟨pause, kept⟩ := regular.ledger call
    have left := kept.errand.left_of_deliver (mem_remaining.mpr member)
    exact underWay (mem_seen.mp left)

/-- A move at which the end takes place finds the page delivered. -/
theorem AwaitsPage.answered_of_terminates {event : Event}
    (kept : traffic.AwaitsPage ender id call past) (regular : traffic.Regular past created)
    (moves : traffic.Moves events after)
    (member : event ∈ events) (terminates : event.Terminates ender id) :
    ∃ outcome, .answered call outcome ∈ past := by
  have earlier {event : Event} (member : event ∈ past) (terminates : event.Terminates ender id) :
      ∃ outcome, .answered call outcome ∈ past := by
    obtain ⟨front, back, split⟩ := List.append_of_mem member
    obtain ⟨outcome, answered⟩ := kept.awaits front event back split terminates
    exact ⟨outcome, split ▸ List.mem_append_left _ answered⟩
  rcases terminates.cases with rfl | ⟨milestone, passed, late⟩
  · -- whoever is told that the end has come is told after the release, which has waited already
    rcases kept.party with party | told
    · obtain ⟨releaser, released⟩ := regular.released_of_told moves party member
      exact earlier released rfl
    · exact earlier told ⟨rfl, rfl⟩
  · obtain ⟨⟨route, called⟩, begun⟩ := kept.admitted
    obtain ⟨pause, own⟩ := regular.ledger call
    rcases own.errand.delivers (mem_seen.mpr called) (mem_seen.mpr begun) with
      ⟨outcome, answered⟩ | ⟨task, remains, here, delivers | ⟨outcome, rfl⟩⟩
    · exact ⟨outcome, mem_seen.mp answered⟩
    · -- the task that would end the scan is not the only one that is bound to do something on it
      obtain ⟨running, runs, bound, ends⟩ := moves.milestone member passed late
      have too : task.duty? id ≠ none := by
        rw [Task.duty?, if_pos here]
        cases stage : task.stage <;> simp_all [Stage.delivers, Stage.duty?]
      have same := (regular.orderly id).life.bound_unique runs (mem_of_remaining remains) bound too
      rw [same, ends] at delivers
      cases delivers
    · exact absurd (mem_of_remaining remains) (kept.undelivered outcome)

private theorem AwaitsPage.undelivered_after (kept : traffic.AwaitsPage ender id call past)
    (regular : traffic.Regular past created) (moves : traffic.Moves events after) (outcome : Reply) :
    ⟨call, id, .deliver outcome false⟩ ∉ after.tasks := by
  intro member
  rcases moves.task member with old | fresh | ⟨running, runs, left⟩
  · exact kept.undelivered outcome old
  · have given : (Event.begun call id).call < traffic.calls := regular.ledger.given kept.admitted.2
    exact absurd given (Nat.not_lt_of_le (Nat.le_of_eq fresh.symm))
  · obtain ⟨bound, alone⟩ := Task.run_deliver left
    have owed : .advance ∈ duties id traffic.tasks := List.mem_filterMap.mpr ⟨running, runs, bound⟩
    have ending := (regular.orderly id).life.ending_of_advance kept.granted owed
    rw [(Service.leave_condition ending).1] at alone
    cases alone

private theorem Regular.awaitsPage_after (regular : traffic.Regular past created)
    (moves : traffic.Moves events after) (kept : traffic.AwaitsPage ender id call past) :
    after.AwaitsPage ender id call (past ++ events) where
  admitted := by
    obtain ⟨⟨route, called⟩, begun⟩ := kept.admitted
    exact ⟨⟨route, List.mem_append_left _ called⟩, List.mem_append_left _ begun⟩
  granted := by
    rw [milestones_append]
    exact List.mem_append_left _ kept.granted
  party := by
    rcases kept.party with (⟨deferred, granted⟩ | waits) | told
    · exact .inl (.inl ⟨deferred, List.mem_append_left _ granted⟩)
    · exact (moves.waiting waits).imp .inr fun told => List.mem_append_right _ told.2
    · exact .inr (List.mem_append_left _ told)
  awaits := by
    intro front event back split terminates
    rcases split_append split with ⟨rest, old⟩ | ⟨middle, rest, rfl, new⟩
    · exact kept.awaits front event rest old terminates
    · have now : event ∈ events := new ▸ by simp
      obtain ⟨outcome, answered⟩ := kept.answered_of_terminates regular moves now terminates
      exact ⟨outcome, List.mem_append_left _ answered⟩
  undelivered := kept.undelivered_after regular moves

/-- In traffic on a fresh service, after whatever calls and sections in whatever order: an end of a
scan that was granted to a call or a close, or that a close has joined, while a pooled advance of
the scan is under way takes place only after the page of that advance has been delivered, whatever
comes later. Ids are 32-bit words, so fewer creations are assumed than there are ids. -/
theorem acts_endAwaits (workers : Nat) (engine : σ) (earlier later : List Act) (id : ScanId)
    (few : (earlier ++ later).countP Act.creates < 2 ^ 32) :
    let before := Traffic.acts earlier { service := { workers, engine } }
    let past := before.1 ++ (before.2.acts later).1
    ∀ ender call, Admitted before.1 call id → .left call id ∉ before.1 →
      before.2.Party before.1 ender id → EndAwaits past ender id call := by
  intro before past ender call admitted underWay party
  rw [List.countP_append] at few
  have noGrant : Informed [] := fun _ _ _ granted => absurd granted List.not_mem_nil
  obtain ⟨regular, informed⟩ :=
    acts_keep Regular.informed earlier (regular_fresh (ι := ι) workers engine) (by omega) noGrant
  have start := regular.awaitsPage informed admitted underWay party
  obtain ⟨-, kept⟩ := acts_keep Regular.awaitsPage_after later regular (by omega) start
  exact kept.awaits

/-- Ends that are granted to a call and joined by a close while a pooled advance is reading are
reported after the page is delivered. -/
theorem acts_endAwaits_of_deferred :
    let earlier : List Act :=
      [.call (.create {}), .call (.scan .held 1 (.advance .pooled)), .call (.scan .held 1 .endLater),
        .call .close, .pursue 0]
    let later : List Act := [.run 0, .run 0, .run 0, .run 0, .run 0, .run 0, .run 0]
    let before := Traffic.acts earlier { service := { workers := 4, engine := MemoryEngine.empty } }
    let past := before.1 ++ (before.2.acts later).1
    (earlier ++ later).countP Act.creates < 2 ^ 32 ∧ Admitted before.1 1 1 ∧ .left 1 1 ∉ before.1 ∧
      ∀ ender ∈ [2, 4], before.2.Party before.1 ender 1 ∧ EndAwaits past ender 1 1 ∧
        .answered ender (.ended true) ∈ past := by
  intro earlier later before past
  have admitted : Admitted before.1 1 1 := ⟨⟨.held, by decide⟩, by decide⟩
  have party : ∀ ender ∈ [2, 4], before.2.Party before.1 ender 1 := by
    intro ender member
    exact .inr ((by decide : ∀ ender ∈ [2, 4], ender ∈ before.2.service.waiting 1) ender member)
  have told : ∀ ender ∈ [2, 4], .answered ender (.ended true) ∈ past := by decide
  refine ⟨by decide, admitted, by decide, fun ender member => ?_⟩
  refine ⟨party ender member, ?_, told ender member⟩
  exact acts_endAwaits 4 MemoryEngine.empty earlier later 1 (by decide) ender 1 admitted (by decide)
    (party ender member)

/-- An end that is granted after a pooled advance was left need not wait for its page: it may be
reported before the page is delivered. -/
theorem not_endAwaits_of_left :
    ¬∀ (acts : List Act) (id : ScanId), acts.countP Act.creates < 2 ^ 32 →
      let past := (Traffic.acts acts { service := { workers := 4, engine := MemoryEngine.empty } }).1
      ∀ ender call, GrantedAfter past ender id call → EndAwaits past ender id call := by
  intro claim
  let acts : List Act :=
    [.call (.create {}), .call (.scan .held 1 (.advance .pooled)), .run 0, .run 0,
      .call (.scan .held 1 .endNow), .run 1, .run 1, .run 1, .run 1, .run 0]
  let past := (Traffic.acts acts { service := { workers := 4, engine := MemoryEngine.empty } }).1
  have granted : GrantedAfter past 2 1 1 :=
    ⟨past.take 6, false, past.drop 7, by rfl, ⟨.held, by decide⟩, by decide⟩
  obtain ⟨outcome, delivered⟩ := claim acts 1 (by decide) 2 1 granted (past.take 10)
    (.answered 2 (.ended true)) (past.drop 11) (by rfl) ⟨rfl, rfl⟩
  have answered : 1 ∈ answeredCalls (past.take 10) := List.mem_filterMap.mpr ⟨_, delivered, rfl⟩
  exact absurd answered (by decide)

end Traffic
end KeyScan
