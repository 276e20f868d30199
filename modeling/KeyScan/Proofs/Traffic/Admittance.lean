import KeyScan.Proofs.Traffic.Dispatch
import KeyScan.Proofs.Traffic.Outcomes

/-! How reads are admitted. A seek or an advance is admitted exactly if no end of its scan was granted
and no advance of it is under way. What is not admitted is turned down as soon as it is asked for; what
is admitted ends with a reply that the engine has brought about. -/
namespace KeyScan

def Action.reads : Action → Bool
  | .seek _ | .advance _ => true
  | .endNow | .endLater => false

def Action.busy : Action → Failure
  | .seek _ => .seekWhileAdvancing
  | .advance _ | .endNow | .endLater => .advancing

/-- Whether a reply is what an admitted advance brings: a page or a report of the engine. -/
def Reply.IsOutcome : Reply → Prop
  | .page _ | .failed (.engine _) => True
  | _ => False

private theorem Reply.Carried.outcome {reply : Reply} (carried : reply.Carried)
    (page : ∀ flag, reply ≠ .ended flag) : reply.IsOutcome := by
  unfold Reply.Carried at carried
  split at carried
  · trivial
  · exact absurd rfl (page true)
  · trivial
  · exact carried.elim

/-- A scan was created and its end was not granted. -/
structure Lasts (past : List Event) (id : ScanId) : Prop where
  created : id ∈ createdIds past
  lasting : .granted ∉ milestones id past

/-- A scan that admits a read. -/
def Admits (past : List Event) (id : ScanId) : Prop := Lasts past id ∧ ¬UnderWay past id

/-- A scan that would admit a read but for an advance under way. -/
def Crowded (past : List Event) (id : ScanId) : Prop := Lasts past id ∧ UnderWay past id

/-- What is seen of a read when it is asked for, given the events before. -/
inductive Opening (past : List Event) (call : Nat) (id : ScanId) : Action → List Event → Prop where
  | begun {mode : Mode} (admits : Admits past id) : Opening past call id (.advance mode) [.begun call id]
  | ready {target : Bytes} (admits : Admits past id) :
      Opening past call id (.seek target) [.answered call .ready]
  | broken {target : Bytes} {report : Report} (admits : Admits past id) :
      Opening past call id (.seek target) [.answered call (.failed (.engine report))]
  | busy {action : Action} (crowded : Crowded past id) :
      Opening past call id action [.answered call (.failed action.busy)]
  | ended {action : Action} (granted : .granted ∈ milestones id past) :
      Opening past call id action [.answered call (.failed .ended)]
  | unknown {action : Action} (new : id ∉ createdIds past) :
      Opening past call id action [.answered call (.failed (.unknownScan id))]

/-- Every read opens as it should. -/
def Opens (past : List Event) : Prop :=
  ∀ front call route id action back, past = front ++ .called call (.scan route id action) :: back →
    action.reads = true → ∃ events rest, back = events ++ rest ∧ Opening front call id action events

/-- Every advance that was begun is answered with an outcome, if it is. -/
def Outcomes (past : List Event) : Prop :=
  ∀ call id reply, .begun call id ∈ past → .answered call reply ∈ past → reply.IsOutcome

/-- How an advance stands with its answer, given the events so far: an advance that was begun is
answered at most once, and once when nothing is left to do under its number; one that was not begun has
been turned down, and nothing will be done under its number. -/
structure Delivers {σ ι : Type} (past : List Event) (traffic : Traffic σ ι) : Prop where
  begun : ∀ call id, .begun call id ∈ past → (Traffic.answeredCalls past).count call ≤ 1 ∧
    ((∀ task ∈ traffic.tasks, task.call ≠ call) → (Traffic.answeredCalls past).count call = 1)
  outcome : ∀ call id reply, .begun call id ∈ past → .answered call reply ∈ past → reply.IsOutcome
  turnedDown : ∀ call route id mode, .called call (.scan route id (.advance mode)) ∈ past →
    .begun call id ∉ past → (∀ task ∈ traffic.tasks, task.call ≠ call) ∧ ∃ failure,
      seen call past =
        [.called call (.scan route id (.advance mode)), .answered call (.failed failure)]

section Errands

variable {call : Nat} {id : ScanId} {events : List Event} {tasks : List Task} {pause : Pause}

private theorem Errand.page_of_begun {reply : Reply} (errand : Errand call events tasks pause)
    (begun : .begun call id ∈ events) (answered : .answered call reply ∈ events) :
    ∀ flag, reply ≠ .ended flag := by
  cases errand with
  | waits awaits | told awaits => cases awaits <;> simp_all
  | release brings | withdraw brings | conclude brings | settle brings | done brings =>
    cases brings <;> simp_all [Pause.told]
  | _ => simp_all

private theorem Errand.left_of_answered {reply : Reply} (errand : Errand call events tasks pause)
    (begun : .begun call id ∈ events) (answered : .answered call reply ∈ events) :
    .left call id ∈ events := by
  cases errand with
  | waits awaits | told awaits => cases awaits <;> simp_all
  | release brings | withdraw brings | conclude brings | settle brings | done brings =>
    cases brings <;> simp_all [Pause.told]
  | _ => simp_all

/-- An advance that was not begun has come to nothing but a reply. -/
theorem Errand.turnedDown {route : Route} {mode : Mode} (errand : Errand call events tasks pause)
    (called : .called call (.scan route id (.advance mode)) ∈ events)
    (turned : .begun call id ∉ events) :
    tasks = [] ∧ ∃ reply,
      events = [.called call (.scan route id (.advance mode)), .answered call reply] := by
  cases errand with
  | waits awaits | told awaits => cases awaits <;> simp_all
  | release brings | withdraw brings | conclude brings | settle brings | done brings =>
    cases brings <;> simp_all [Pause.told]
  | _ => simp_all

private theorem Errand.pause_of_begun (errand : Errand call events tasks pause)
    (begun : .begun call id ∈ events) :
    pause = .none := by
  cases errand with
  | waits awaits => cases awaits <;> simp at begun
  | release brings | withdraw brings | conclude brings =>
    cases brings <;> first | rfl | simp at begun
  | closing => simp at begun
  | _ => rfl

end Errands

private theorem Life.granted_of_milestone {before : Option Condition} {owed : List Duty}
    {past : List Milestone} {milestone : Milestone} (life : Life before owed past)
    (passed : milestone ∈ past) : .granted ∈ past := by
  cases life <;> simp_all

/-- What a scan is doing, whether its end was granted, and whether an advance is owed to it. -/
theorem Life.gate {before : Option Condition} {owed : List Duty} {past : List Milestone}
    (life : Life before owed past) :
    match before.map Condition.phase with
    | none => .granted ∉ past
    | some .idle => .granted ∉ past ∧ .advance ∉ owed
    | some .advancing => .granted ∉ past ∧ .advance ∈ owed
    | some .ending | some .ended => .granted ∈ past := by
  cases life <;> simp

variable {σ ι : Type} [Engine σ ι]

private theorem Task.run_begins (task : Task) (call : Nat) (id : ScanId) (service : Service σ ι) :
    .begun call id ∉ (task.run service).1 := by
  unfold run
  split
  · simp
  · simp only
    split <;> simp
  · simp
  · simp
  · simp
  · simp
  · rename_i ending _
    cases ending.reply <;> simp

namespace Traffic

variable {traffic : Traffic σ ι} {past : List Event} {id : ScanId}

omit [Engine σ ι] in
/-- What a scan is doing can be told from the events so far. -/
theorem Sound.phase (sound : traffic.Sound past) (id : ScanId) :
    match traffic.service.phase? id with
    | none => id ∉ createdIds past
    | some .idle => Admits past id
    | some .advancing => Crowded past id
    | some .ending | some .ended => .granted ∈ milestones id past := by
  have gate := (sound.regular.orderly id).life.gate
  have created : id ∈ createdIds past ↔ _ := sound.created_iff
  rw [Service.phase?_eq_condition]
  cases known : traffic.service.condition? id with
  | none => simpa [known] using created
  | some condition =>
    rw [known] at gate created
    have created : id ∈ createdIds past := created.mpr (by simp)
    cases phase : condition.phase <;> simp only [phase, Option.map_some] at gate ⊢
    · exact ⟨⟨created, gate.1⟩, (sound.regular.ledger.underWay_iff id).not.mpr gate.2⟩
    · exact ⟨⟨created, gate.1⟩, (sound.regular.ledger.underWay_iff id).mpr gate.2⟩
    · exact gate
    · exact gate

theorem Sound.startAction_opening (sound : traffic.Sound past) {action : Action}
    (reads : action.reads = true) (id : ScanId) (call : Nat) :
    Opening past call id action (traffic.startAction action id call).1 := by
  have phase := sound.phase id
  unfold Service.phase? at phase
  cases found : traffic.service.scan? id with
  | none =>
    rw [found] at phase
    cases action with
    | seek target => simpa [startAction, Service.seek, found, answer] using Opening.unknown phase
    | advance mode =>
      simpa [startAction, Service.beginAdvance, found, answer] using Opening.unknown phase
    | endNow | endLater => cases reads
  | some scan =>
    rw [found, Option.map_some] at phase
    cases action with
    | endNow | endLater => cases reads
    | advance mode =>
      cases here : scan.admission.phase <;> simp only [here] at phase <;>
        simp only [startAction, Service.beginAdvance, found, Admission.begin, here, answer]
      · exact .begun phase
      · exact .busy phase
      · exact .ended phase
      · exact .ended phase
    | seek target =>
      cases here : scan.admission.phase <;> simp only [here] at phase <;>
        simp only [startAction, Service.seek, found, Admission.checkSeek, here, answer]
      · rcases sought : scan.reader.seek target traffic.service.engine with ⟨_ | _, next, after⟩
        · have life := (sound.regular.orderly id).life
          rw [Service.condition?_eq found, here] at life
          have held := life.held (.inr rfl)
          obtain ⟨report, rfl⟩ := Reader.seek_error (sound.pinned id scan found) held sought
          exact .broken phase
        · exact .ready phase
      · exact .busy phase
      · exact .ended phase
      · exact .ended phase

private theorem startAction_renumbered (action : Action) (id : ScanId) (call calls : Nat) :
    ({ traffic with calls }.startAction action id call).1 = (traffic.startAction action id call).1 := by
  cases action <;> simp only [startAction] <;> split <;> rfl

/-- A read opens as the events before it tell, by whatever route it comes. -/
theorem Sound.start_opening (sound : traffic.Sound past) {action : Action}
    (reads : action.reads = true) (route : Route) (id : ScanId) :
    ∃ events, (traffic.start (.scan route id action)).1 =
        .called traffic.calls (.scan route id action) :: events ∧
      Opening past traffic.calls id action events := by
  refine ⟨_, rfl, ?_⟩
  have opening := sound.startAction_opening reads id traffic.calls
  rw [← startAction_renumbered action id traffic.calls (traffic.calls + 1)] at opening
  cases route with
  | held => exact opening
  | roster =>
    have looked := sound.lookUp_eq id
    simp only
    split
    · exact opening
    · rename_i failure missed
      rw [missed] at looked
      have away : turnedAway action failure = .failed failure := by
        cases action <;> first | rfl | cases reads
      simp only [answer, away]
      split at looked
      · split at looked
        · rename_i withdrawn
          cases looked
          exact .ended ((sound.regular.orderly id).life.granted_of_milestone withdrawn)
        · cases looked
      · rename_i new
        cases looked
        exact .unknown new

private theorem startRequest_calls (request : Request) (call : Nat) (traffic : Traffic σ ι) :
    ∀ number made, .called number made ∉ (traffic.startRequest request call).1 := by
  have startAction (action : Action) (id : ScanId) (number : Nat) (made : Request) :
      .called number made ∉ (traffic.startAction action id call).1 := by
    cases action <;> simp only [Traffic.startAction] <;> split <;> simp [answer]
  intro number made
  unfold startRequest
  split
  · split <;> simp [answer]
  · exact startAction _ _ _ _
  · split
    · exact startAction _ _ _ _
    · simp [answer]
  · split <;> simp [answer]

private theorem act_called {act : Act} {front back : List Event} {call : Nat} {request : Request}
    (split : (traffic.act act).1 = front ++ .called call request :: back) :
    act = .call request ∧ front = [] ∧ call = traffic.calls := by
  have member : .called call request ∈ (traffic.act act).1 := split ▸ by simp
  cases act with
  | call made =>
    have others := startRequest_calls made traffic.calls { traffic with calls := traffic.calls + 1 }
    simp only [Traffic.act, start] at split
    cases front with
    | nil =>
      obtain ⟨same, -⟩ := List.cons.inj split
      cases same
      exact ⟨rfl, rfl, rfl⟩
    | cons first front =>
      obtain ⟨-, rest⟩ := List.cons.inj split
      exact absurd (rest ▸ by simp) (others call request)
  | run place =>
    cases found : traffic.tasks[place]? with
    | none => simp [Traffic.act, runTask, found] at member
    | some task =>
      rw [Traffic.act, (runTask_of_task found).1] at member
      exact absurd (Task.run_opens _ _ _ member) (by simp [Event.opens])
  | pursue place =>
    simp only [Traffic.act, pursue, ask] at member
    split at member
    · cases member
    · split at member
      · split at member <;> simp at member
      · simp at member
      · cases member

theorem Sound.act_opens {act : Act} (sound : traffic.Sound past) (opens : Opens past) :
    Opens (past ++ (traffic.act act).1) := by
  intro front call route id action back split reads
  rcases split_append split with ⟨rest, rfl⟩ | ⟨middle, _, rfl, -⟩
  · obtain ⟨events, more, rfl, opening⟩ := opens front call route id action rest rfl reads
    rw [List.append_assoc, List.append_cancel_left_eq] at split
    obtain ⟨-, rfl⟩ := List.cons.inj split
    exact ⟨events, _, List.append_assoc .., opening⟩
  · rw [List.append_assoc, List.append_cancel_left_eq] at split
    obtain ⟨rfl, rfl, rfl⟩ := act_called split
    obtain ⟨events, started, opening⟩ := sound.start_opening reads route id
    rw [Traffic.act, started, List.nil_append] at split
    obtain ⟨-, rfl⟩ := List.cons.inj split
    exact ⟨events, [], (List.append_nil _).symm, by rwa [List.append_nil]⟩

/-- An act answers an advance that was begun with an outcome only. -/
theorem Sound.act_outcomes {act : Act} (sound : traffic.Sound past)
    (after : (traffic.act act).2.Sound (past ++ (traffic.act act).1)) (outcomes : Outcomes past) :
    Outcomes (past ++ (traffic.act act).1) := by
  intro call id reply begun answered
  obtain ⟨pause, kept⟩ := after.regular.ledger call
  have page := kept.errand.page_of_begun (mem_seen.mpr begun) (mem_seen.mpr answered)
  have given {event : Event} (member : event ∈ past) : event.call < traffic.calls :=
    sound.regular.ledger.given member
  have moves := act_moves act traffic
  generalize (traffic.act act).1 = events at begun answered moves
  generalize (traffic.act act).2 = next at moves
  rw [List.mem_append] at begun answered
  cases moves with
  | idle => exact outcomes call id reply (by simpa using begun) (by simpa using answered)
  | @setsOut _ _ _ _ new =>
    obtain ⟨own, -⟩ := new.errand.own
    rcases begun with begun | begun <;> rcases answered with answered | answered
    · exact outcomes call id reply begun answered
    · have earlier : call < traffic.calls := given begun
      exact absurd (own _ answered) (Nat.ne_of_lt earlier)
    · have earlier : call < traffic.calls := given answered
      exact absurd (own _ begun) (Nat.ne_of_lt earlier)
    · obtain rfl : call = traffic.calls := own _ begun
      exact (new.initial _ (new.errand.left_of_answered begun answered)).elim
  | @runs _ _ task _ split =>
    have silent : .begun call id ∉ (task.run traffic.service).1 := task.run_begins call id _
    have begun := begun.resolve_right silent
    rcases answered with answered | answered
    · exact outcomes call id reply begun answered
    · have member : task ∈ traffic.tasks := split ▸ by simp
      exact ((sound.run_carries member).2 call reply answered).outcome page
  | @closes _ _ closing split =>
    have begun : .begun call id ∈ past := by simpa using begun
    rcases answered with answered | answered
    · exact outcomes call id reply begun answered
    · obtain ⟨rfl, rfl⟩ : call = closing.call ∧ reply = .closed := by simpa using answered
      have own : .begun closing.call id ∈ seen closing.call past := mem_seen.mpr begun
      rw [sound.regular.ledger.seen_of_closing (split ▸ by simp)] at own
      simp at own

omit [Engine σ ι] in
theorem Sound.delivers (sound : traffic.Sound past) (opens : Opens past) (outcomes : Outcomes past) :
    Delivers past traffic where
  begun call id begun := by
    obtain ⟨pause, kept⟩ := sound.regular.ledger call
    have errand := kept.errand
    have own : Event.begun call id ∈ seen call past := mem_seen.mpr begun
    rw [← count_answeredCalls_seen]
    refine ⟨errand.answers_le, fun idle => ?_⟩
    rw [errand.pause_of_begun own, remaining_eq_nil idle] at errand
    exact errand.answers_eq (List.ne_nil_of_mem own)
  outcome := outcomes
  turnedDown call route id mode called unbegun := by
    obtain ⟨pause, kept⟩ := sound.regular.ledger call
    obtain ⟨idle, reply, all⟩ :=
      kept.errand.turnedDown (mem_seen.mpr called) fun own => unbegun (mem_seen.mp own)
    have failed : ∃ failure, .answered call (.failed failure) ∈ past := by
      obtain ⟨front, back, rfl⟩ := List.append_of_mem called
      obtain ⟨events, rest, rfl, opening⟩ := opens front call route id _ back rfl rfl
      cases opening with
      | begun => exact absurd (by simp) unbegun
      | busy => exact ⟨Action.busy (.advance mode), by simp⟩
      | ended => exact ⟨.ended, by simp⟩
      | unknown => exact ⟨.unknownScan id, by simp⟩
    obtain ⟨failure, answered⟩ := failed
    have own : .answered call (.failed failure) ∈ seen call past := mem_seen.mpr answered
    rw [all] at own
    obtain rfl : .failed failure = reply := by simpa using own
    refine ⟨fun task member same => ?_, failure, all⟩
    have left := mem_remaining.mpr member
    rw [same, idle] at left
    cases left

/-- Whatever turns come, reads open as they should, and what was begun is answered with outcomes. -/
theorem turns_admit (turns : List (Turn σ)) (sound : traffic.Sound past)
    (few : (createdIds (past ++ (traffic.turns turns).1)).length < 2 ^ 32) (opens : Opens past)
    (outcomes : Outcomes past) :
    Opens (past ++ (traffic.turns turns).1) ∧ Outcomes (past ++ (traffic.turns turns).1) := by
  refine (turns_keep (fun past _ => Opens past ∧ Outcomes past) turns ?_ sound few ⟨opens, outcomes⟩).2
  intro past traffic turn _ sound room ⟨opens, outcomes⟩
  have after := turn_sound turn sound room
  cases turn with
  | outside change =>
    rw [Traffic.turn, List.append_nil]
    exact ⟨opens, outcomes⟩
  | act act => exact ⟨sound.act_opens opens, sound.act_outcomes after outcomes⟩

section Fresh

variable (workers : Nat) (engine : σ) (turns : List (Turn σ))
  (few : (createdIds (Traffic.turns turns { service := { workers, engine } }).1).length < 2 ^ 32)

include few

theorem fresh_admit :
    Opens (Traffic.turns turns { service := { workers, engine } }).1 ∧
      Outcomes (Traffic.turns turns { service := { workers, engine } }).1 :=
  turns_admit turns (sound_fresh workers engine) few
    (fun _ _ _ _ _ _ split => absurd split (by simp)) fun _ _ _ begun => absurd begun List.not_mem_nil

theorem fresh_delivers :
    Delivers (Traffic.turns turns { service := { workers, engine } }).1
      (Traffic.turns turns { service := { workers, engine } }).2 := by
  obtain ⟨opens, outcomes⟩ := fresh_admit workers engine turns few
  have sound := turns_sound turns (sound_fresh workers engine) few
  exact sound.delivers opens outcomes

end Fresh

end Traffic
end KeyScan
