import KeyScan.Proofs.Service.Isolation
import KeyScan.Proofs.Traffic.Reading

/-! Waiting and pooled advances can stand for each other. Whoever makes each read on a scan after the
one before it was answered is told the same in both modes, whatever else goes on meanwhile, and is never
told that the scan is busy. -/
namespace KeyScan

def Action.awaited : Action → Action
  | .advance _ => .advance .waiting
  | action => action

/-- Whether a turn leaves a scan of the engine in memory to its caller: it asks nothing of the scan, and
it may write, or do anything else to the engine that writes nothing. -/
def Turn.Beside (id : ScanId) : Turn MemoryEngine → Prop
  | .act next => next.Apart id
  | .outside change =>
    (∃ write : MemoryEngine.Write, change = fun engine => engine.apply write) ∨
      ∀ engine : MemoryEngine, engine.Agrees (change engine)

private theorem Turn.beside_act {id : ScanId} {next : Act} :
    Turn.Beside id (.act next) ↔ next.Apart id := .rfl

private theorem Turn.beside_write (id : ScanId) (write : MemoryEngine.Write) :
    Turn.Beside id (.outside fun engine => engine.apply write) := .inl ⟨write, rfl⟩

def Turn.isOutside {σ : Type} : Turn σ → Bool
  | .act _ => false
  | .outside _ => true

structure Round where
  route : Route
  action : Action
  meanwhile : List (Turn MemoryEngine)

private theorem Errand.unanswered {call : Nat} {events : List Event} {task : Task} {pause : Pause}
    (errand : Errand call events [task] pause) (early : 4 < task.stage.rank) (reply : Reply) :
    .answered call reply ∉ events := by
  cases errand <;> simp_all [Stage.rank]

namespace Traffic

section Waiting

variable {σ ι : Type} [Engine σ ι] {traffic : Traffic σ ι} {past : List Event} {call : Nat}

private theorem await_turns (call fuel : Nat) (traffic : Traffic σ ι) :
    ∃ runs : List (Turn σ), (∀ turn ∈ runs, ∃ place, turn = .act (.run place)) ∧
      traffic.await call fuel = traffic.turns runs := by
  induction fuel generalizing traffic with
  | zero => exact ⟨[], by simp, rfl⟩
  | succ fuel ih =>
    unfold await
    split
    · exact ⟨[], by simp, rfl⟩
    · rename_i place _
      obtain ⟨runs, only, same⟩ := ih (traffic.runTask place).2
      refine ⟨.act (.run place) :: runs, List.forall_mem_cons.mpr ⟨⟨place, rfl⟩, only⟩, ?_⟩
      simp only [turns, turn, Traffic.act, same]

private theorem Sound.await_settles (sound : traffic.Sound past) (few : (createdIds past).length < 2 ^ 32)
    {fuel : Nat} (enough : ∀ task ∈ traffic.tasks, task.call = call → task.stage.rank ≤ fuel) :
    ∀ task ∈ (traffic.await call fuel).2.tasks, task.call ≠ call := by
  let kept (past : List Event) (traffic : Traffic σ ι) : Prop :=
    traffic.Sound past ∧ (createdIds past).length < 2 ^ 32
  have alone {past : List Event} {traffic : Traffic σ ι} (holds : kept past traffic) :
      (remaining call traffic.tasks).length ≤ 1 := by
    cases left : remaining call traffic.tasks with
    | nil => exact Nat.zero_le 1
    | cons task rest =>
      have member : task ∈ remaining call traffic.tasks := left ▸ List.mem_cons_self
      have own : task.call = call := of_decide_eq_true (List.mem_filter.mp member).2
      have single := holds.1.regular.ledger.remaining_eq (List.mem_of_mem_filter member)
      rw [← left, ← own, single]
      exact Nat.le_refl 1
  have step {past : List Event} {traffic : Traffic σ ι} (place : Nat) (holds : kept past traffic) :
      kept (past ++ (traffic.runTask place).1) (traffic.runTask place).2 := by
    have same : createdIds (past ++ (traffic.runTask place).1) = createdIds past := by
      rw [createdIds_append, (holds.1.runTask_carries place).2, List.append_nil]
    refine ⟨turn_sound (.act (.run place)) holds.1 ?_, same ▸ holds.2⟩
    rw [Traffic.turn, Traffic.act, same]
    exact holds.2
  exact (await_keeps kept alone step ⟨sound, few⟩ enough).2

end Waiting

section Reading

variable {traffic : Traffic MemoryEngine TableWalker} {past : List Event} {call : Nat} {id : ScanId}
  {phase : Phase} {mark : Nat} {outlook : Outlook} {left : List Task} {action : Action}
  {next : Turn MemoryEngine}

/-- A scan that is poised somewhere, with no close to ask it. -/
structure At (id : ScanId) (phase : Phase) (mark : Nat) (outlook : Outlook) (left : List Task)
    (past : List Event) (traffic : Traffic MemoryEngine TableWalker) : Prop
    extends traffic.Poised id phase mark outlook left where
  known : id ∈ createdIds past
  unasked : traffic.Unasked id

/-- A read has come so far, on a scan that no close has to ask. -/
def Reading (call : Nat) (id : ScanId) (mark : Nat) (outlook : Outlook) (action : Action)
    (past : List Event) (traffic : Traffic MemoryEngine TableWalker) : Prop :=
  ∃ phase now left told, Progress call id mark outlook action phase now left told ∧
    traffic.At id phase mark now left past ∧ reply? call past = told

private theorem reading_iff : traffic.Reading call id mark outlook action past ↔
    traffic.Underway call id mark outlook action past ∧ id ∈ createdIds past ∧ traffic.Unasked id := by
  constructor
  · rintro ⟨phase, now, left, told, progress, at_, said⟩
    exact ⟨⟨phase, now, left, told, progress, at_.toPoised, said⟩, at_.known, at_.unasked⟩
  · rintro ⟨⟨phase, now, left, told, progress, poised, said⟩, known, unasked⟩
    exact ⟨phase, now, left, told, progress, ⟨poised, known, unasked⟩, said⟩

/-- What comes beside a scan leaves the pairs of all snapshots as they are. -/
theorem turn_extends (beside : next.Beside id)
    (space : traffic.service.engine.sequence.toNat + next.isOutside.toNat < 2 ^ 64) :
    traffic.service.engine.Extends (traffic.turn next).2.service.engine ∧
      (traffic.turn next).2.service.engine.sequence.toNat ≤
        traffic.service.engine.sequence.toNat + next.isOutside.toNat := by
  have agreed {after : MemoryEngine} (agrees : traffic.service.engine.Agrees after) :
      traffic.service.engine.Extends after ∧
        after.sequence.toNat ≤ traffic.service.engine.sequence.toNat + next.isOutside.toNat :=
    ⟨agrees.extends, agrees.sequence ▸ Nat.le_add_right _ _⟩
  cases next with
  | act act => exact agreed (act_agrees act traffic)
  | outside change =>
    rcases beside with ⟨write, rfl⟩ | silent
    · refine ⟨MemoryEngine.extends_apply write space, ?_⟩
      simp only [Traffic.turn, MemoryEngine.apply_sequence]
      exact Nat.le_of_eq (MemoryEngine.toNat_succ space)
    · exact agreed (silent traffic.service.engine)

theorem At.aside (at_ : traffic.At id phase mark outlook left past) (sound : traffic.Sound past)
    (room : (createdIds (past ++ (traffic.turn next).1)).length < 2 ^ 32) (beside : next.Beside id)
    (space : traffic.service.engine.sequence.toNat + next.isOutside.toNat < 2 ^ 64) :
    (traffic.turn next).2.At id phase mark outlook left (past ++ (traffic.turn next).1) ∨
      ∃ place task, next = .act (.run place) ∧ traffic.tasks[place]? = some task ∧ task.id = id := by
  obtain ⟨extended, -⟩ := turn_extends beside space
  have later : id ∈ createdIds (past ++ (traffic.turn next).1) := by
    rw [createdIds_append]
    exact List.mem_append_left _ at_.known
  cases next with
  | outside change =>
    exact .inl ⟨⟨at_.serves.kept rfl rfl extended, at_.tasks⟩, later, at_.unasked⟩
  | act act =>
    obtain ⟨unasked, aside | ⟨place, task, rfl, found, own⟩⟩ :=
      act_aside sound room at_.known beside at_.unasked
    · exact .inl ⟨at_.toPoised.aside aside extended, later, unasked⟩
    · exact .inr ⟨place, task, rfl, found, own⟩

theorem Reading.run {place : Nat} {task : Task}
    (reading : traffic.Reading call id mark outlook action past)
    (found : traffic.tasks[place]? = some task) (own : task.id = id) :
    (traffic.runTask place).2.Reading call id mark outlook action
      (past ++ (traffic.runTask place).1) := by
  obtain ⟨underway, known, unasked⟩ := reading_iff.mp reading
  refine reading_iff.mpr ⟨(underway.run found own).1, ?_, ?_⟩
  · rw [createdIds_append]
    exact List.mem_append_left _ known
  · intro closing member asks
    obtain ⟨old, here, fewer⟩ := runTask_left place traffic closing member
    exact unasked old here (fewer asks)

/-- What comes beside a scan takes a read on it on, or leaves it where it is. -/
theorem Reading.step (reading : traffic.Reading call id mark outlook action past)
    (sound : traffic.Sound past) (room : (createdIds (past ++ (traffic.turn next).1)).length < 2 ^ 32)
    (beside : next.Beside id)
    (space : traffic.service.engine.sequence.toNat + next.isOutside.toNat < 2 ^ 64) :
    (traffic.turn next).2.Reading call id mark outlook action (past ++ (traffic.turn next).1) := by
  have whole := reading
  obtain ⟨phase, now, left, told, progress, at_, said⟩ := reading
  rcases at_.aside sound room beside space with still | ⟨place, task, rfl, found, own⟩
  · refine ⟨phase, now, left, told, progress, still, ?_⟩
    cases told with
    | some reply => rw [reply?_append, said, Option.some_or]
    | none =>
      -- a task of the read is still there, so nobody has answered it
      obtain ⟨task, rfl, rfl, early⟩ := progress.pending
      have after := turn_sound next sound room
      have present : task ∈ tasksOn id (traffic.turn next).2.tasks := still.tasks ▸ List.mem_singleton_self _
      obtain ⟨pause, kept⟩ := after.regular.ledger task.call
      have errand := kept.errand
      rw [after.regular.ledger.remaining_eq (List.mem_of_mem_filter present)] at errand
      exact reply?_eq_none fun reply answered => errand.unanswered early reply (mem_seen.mpr answered)
  · exact whole.run found own

/-- What every turn beside a scan keeps from sound traffic on holds whatever turns come beside it. -/
theorem turns_beside {kept : List Event → Traffic MemoryEngine TableWalker → Prop}
    (step : ∀ {past traffic} {next : Turn MemoryEngine}, kept past traffic → traffic.Sound past →
      (createdIds (past ++ (traffic.turn next).1)).length < 2 ^ 32 → next.Beside id →
      traffic.service.engine.sequence.toNat + next.isOutside.toNat < 2 ^ 64 →
        kept (past ++ (traffic.turn next).1) (traffic.turn next).2)
    (turns : List (Turn MemoryEngine)) (start : kept past traffic) (sound : traffic.Sound past)
    (few : (createdIds (past ++ (traffic.turns turns).1)).length < 2 ^ 32)
    (beside : ∀ turn ∈ turns, turn.Beside id)
    (space : traffic.service.engine.sequence.toNat + turns.countP Turn.isOutside < 2 ^ 64) :
    kept (past ++ (traffic.turns turns).1) (traffic.turns turns).2 ∧
      (traffic.turns turns).2.service.engine.sequence.toNat ≤
        traffic.service.engine.sequence.toNat + turns.countP Turn.isOutside := by
  induction turns generalizing traffic past with
  | nil => simpa [Traffic.turns] using start
  | cons next rest ih =>
    simp only [Traffic.turns] at few ⊢
    rw [← List.append_assoc] at few ⊢
    rw [countP_cons_toNat, ← Nat.add_assoc] at space ⊢
    have room : (createdIds (past ++ (traffic.turn next).1)).length < 2 ^ 32 := few_of_append few
    have own := beside next List.mem_cons_self
    have little : traffic.service.engine.sequence.toNat + next.isOutside.toNat < 2 ^ 64 := by omega
    obtain ⟨-, grown⟩ := turn_extends own little
    obtain ⟨holds, bound⟩ := ih (step start sound room own little) (turn_sound next sound room) few
      (fun turn member => beside turn (List.mem_cons_of_mem _ member)) (by omega)
    exact ⟨holds, by omega⟩

private theorem Sound.unanswered_next (sound : traffic.Sound past) : reply? traffic.calls past = none := by
  refine reply?_eq_none fun reply answered => ?_
  have given : (Event.answered traffic.calls reply).call < traffic.calls :=
    sound.regular.ledger.given answered
  exact absurd given (Nat.lt_irrefl _)

theorem At.read (at_ : traffic.At id .idle mark outlook [] past) (sound : traffic.Sound past)
    (reads : action.reads = true) (route : Route) :
    (traffic.start (.scan route id action)).2.Reading traffic.calls id mark outlook action
      (past ++ (traffic.start (.scan route id action)).1) := by
  obtain ⟨more, closings, none, -⟩ := start_closings (.scan route id action) traffic
  rw [none nofun, List.append_nil] at closings
  refine reading_iff.mpr ⟨at_.toPoised.read sound.unanswered_next reads route, ?_, ?_⟩
  · rw [createdIds_append]
    exact List.mem_append_left _ at_.known
  · exact fun closing member => at_.unasked closing (closings ▸ member)

/-- Makes a call on a scan, lets turns come, and waits for the call: what the caller is told, and what
can be seen. -/
def round (id : ScanId) (round : Round) (traffic : Traffic MemoryEngine TableWalker) :
    Option Reply × List Event × Traffic MemoryEngine TableWalker :=
  let asked := traffic.turns (.act (.call (.scan round.route id round.action)) :: round.meanwhile)
  let told := asked.2.await traffic.calls asked.2.rank
  (reply? traffic.calls (asked.1 ++ told.1), asked.1 ++ told.1, told.2)

/-- Makes calls on a scan, each after the one before it was answered. -/
def rounds (id : ScanId) : List Round → Traffic MemoryEngine TableWalker →
    List (Option Reply) × List Event × Traffic MemoryEngine TableWalker
  | [], traffic => ([], [], traffic)
  | next :: rest, traffic =>
    let (reply, events, traffic) := traffic.round id next
    let (replies, more, traffic) := rounds id rest traffic
    (reply :: replies, events ++ more, traffic)

/-- A scan on which nothing is done and that stands somewhere. -/
def Rests (id : ScanId) (standing : Standing) (past : List Event)
    (traffic : Traffic MemoryEngine TableWalker) : Prop :=
  match standing with
  | .open mark outlook => traffic.At id .idle mark outlook [] past
  | .finished => False

variable {standing : Standing}

/-- A round is some turns: the call, those that come meanwhile, and sections that the caller waits
for. -/
theorem round_turns (id : ScanId) (round : Round) (traffic : Traffic MemoryEngine TableWalker) :
    ∃ runs : List (Turn MemoryEngine), (∀ turn ∈ runs, ∃ place, turn = .act (.run place)) ∧
      (traffic.round id round).2 =
        traffic.turns
          (.act (.call (.scan round.route id round.action)) :: (round.meanwhile ++ runs)) := by
  let asked := traffic.turns (.act (.call (.scan round.route id round.action)) :: round.meanwhile)
  obtain ⟨runs, only, same⟩ := await_turns traffic.calls asked.2.rank asked.2
  refine ⟨runs, only, ?_⟩
  rw [← List.cons_append, turns_append, ← same]
  rfl

private theorem Sound.round_settles (sound : traffic.Sound past) (round : Round)
    (few : (createdIds (past ++ (traffic.round id round).2.1)).length < 2 ^ 32) :
    ∀ task ∈ (traffic.round id round).2.2.tasks, task.call ≠ traffic.calls := by
  let asked := traffic.turns (.act (.call (.scan round.route id round.action)) :: round.meanwhile)
  have room : (createdIds (past ++ asked.1)).length < 2 ^ 32 := by
    have all : (traffic.round id round).2.1 = asked.1 ++ (asked.2.await traffic.calls asked.2.rank).1 := rfl
    rw [all, ← List.append_assoc] at few
    exact few_of_append few
  have running : asked.2.Sound (past ++ asked.1) := turns_sound _ sound room
  exact running.await_settles room fun task member _ => rank_le member

/-- Whoever reads on a scan at rest is told what the scan stands for, and leaves it at rest. -/
theorem Rests.told (rests : traffic.Rests id standing past) (sound : traffic.Sound past)
    {round : Round} (few : (createdIds (past ++ (traffic.round id round).2.1)).length < 2 ^ 32)
    (reads : round.action.reads = true) (beside : ∀ turn ∈ round.meanwhile, turn.Beside id)
    (space : traffic.service.engine.sequence.toNat + round.meanwhile.countP Turn.isOutside < 2 ^ 64) :
    (traffic.round id round).1 = some (standing.answer round.action).1 ∧
      (traffic.round id round).2.2.Rests id (standing.answer round.action).2
        (past ++ (traffic.round id round).2.1) ∧
      (traffic.round id round).2.2.service.engine.sequence.toNat ≤
        traffic.service.engine.sequence.toNat + round.meanwhile.countP Turn.isOutside := by
  cases standing with
  | finished => exact rests.elim
  | «open» mark outlook =>
    have at_ : traffic.At id .idle mark outlook [] past := rests
    have idle := sound.round_settles round few
    obtain ⟨runs, only, same⟩ := round_turns id round traffic
    let call : Turn MemoryEngine := .act (.call (.scan round.route id round.action))
    have events : (traffic.round id round).2.1 =
        (traffic.turn call).1 ++ ((traffic.turn call).2.turns (round.meanwhile ++ runs)).1 :=
      congrArg Prod.fst same
    have after : (traffic.round id round).2.2 =
        ((traffic.turn call).2.turns (round.meanwhile ++ runs)).2 := by
      rw [same]
      rfl
    have reply : (traffic.round id round).1 = reply? traffic.calls (traffic.round id round).2.1 := rfl
    have quiet : (round.meanwhile ++ runs).countP Turn.isOutside =
        round.meanwhile.countP Turn.isOutside := by
      rw [List.countP_append, Nat.add_eq_left, List.countP_eq_zero]
      intro turn member
      obtain ⟨place, rfl⟩ := only turn member
      exact Bool.false_ne_true
    have theirs : ∀ turn ∈ round.meanwhile ++ runs, turn.Beside id := by
      intro turn member
      rcases List.mem_append.mp member with mean | run
      · exact beside turn mean
      · obtain ⟨place, rfl⟩ := only turn run
        trivial
    have unwritten : (traffic.turn call).2.service.engine.sequence = traffic.service.engine.sequence :=
      (act_agrees _ traffic).sequence
    rw [reply, after]
    rw [after] at idle
    rw [events] at few ⊢
    rw [← List.append_assoc] at few ⊢
    have room : (createdIds (past ++ (traffic.turn call).1)).length < 2 ^ 32 := few_of_append few
    rw [← unwritten, ← quiet] at space ⊢
    obtain ⟨⟨phase, now, left, told, progress, rested, said⟩, bound⟩ :=
      turns_beside Reading.step (round.meanwhile ++ runs) (at_.read sound reads round.route)
        (turn_sound call sound room) few theirs space
    cases told with
    | none =>
      obtain ⟨task, rfl, own, -⟩ := progress.pending
      have present : task ∈ tasksOn id _ := rested.tasks ▸ List.mem_singleton_self task
      exact absurd own (idle task (List.mem_of_mem_filter present))
    | some reply =>
      obtain ⟨rfl, rfl, answer⟩ := progress.answered
      rw [List.append_assoc, reply?_append, sound.unanswered_next, Option.none_or] at said
      rw [answer]
      exact ⟨said, rested, bound⟩

theorem Rests.step (rests : traffic.Rests id standing past) (sound : traffic.Sound past)
    (room : (createdIds (past ++ (traffic.turn next).1)).length < 2 ^ 32) (beside : next.Beside id)
    (space : traffic.service.engine.sequence.toNat + next.isOutside.toNat < 2 ^ 64) :
    (traffic.turn next).2.Rests id standing (past ++ (traffic.turn next).1) := by
  cases standing with
  | finished => exact rests.elim
  | «open» mark outlook =>
    have at_ : traffic.At id .idle mark outlook [] past := rests
    rcases at_.aside sound room beside space with still | ⟨place, task, -, found, own⟩
    · exact still
    · have present : task ∈ tasksOn id traffic.tasks :=
        List.mem_filter.mpr ⟨List.mem_of_getElem? found, decide_eq_true own⟩
      rw [at_.tasks] at present
      cases present

private theorem rounds_turns (id : ScanId) (rounds : List Round)
    (traffic : Traffic MemoryEngine TableWalker) :
    ∃ turns : List (Turn MemoryEngine), (traffic.rounds id rounds).2 = traffic.turns turns := by
  induction rounds generalizing traffic with
  | nil => exact ⟨[], rfl⟩
  | cons round rest ih =>
    obtain ⟨runs, -, same⟩ := round_turns id round traffic
    obtain ⟨turns, later⟩ := ih (traffic.round id round).2.2
    refine ⟨(.act (.call (.scan round.route id round.action)) :: (round.meanwhile ++ runs)) ++ turns, ?_⟩
    rw [turns_append, ← same, ← later]
    rfl

/-- Whoever makes reads on a scan at rest, each after the one before it was answered, is told what the
scan stands for. -/
theorem Rests.rounds_told {rounds : List Round} (rests : traffic.Rests id standing past)
    (sound : traffic.Sound past)
    (few : (createdIds (past ++ (traffic.rounds id rounds).2.1)).length < 2 ^ 32)
    (reads : ∀ round ∈ rounds, round.action.reads = true)
    (beside : ∀ turn ∈ rounds.flatMap Round.meanwhile, turn.Beside id)
    (space : traffic.service.engine.sequence.toNat +
      (rounds.flatMap Round.meanwhile).countP Turn.isOutside < 2 ^ 64) :
    (traffic.rounds id rounds).1 = (standing.answers (rounds.map Round.action)).map some := by
  induction rounds generalizing traffic past standing with
  | nil => rfl
  | cons round rest ih =>
    rw [List.flatMap_cons] at beside
    rw [List.flatMap_cons, List.countP_append] at space
    have events : (traffic.rounds id (round :: rest)).2.1 =
        (traffic.round id round).2.1 ++ ((traffic.round id round).2.2.rounds id rest).2.1 := rfl
    rw [events, ← List.append_assoc] at few
    have room : (createdIds (past ++ (traffic.round id round).2.1)).length < 2 ^ 32 := few_of_append few
    have still : (traffic.round id round).2.2.Sound (past ++ (traffic.round id round).2.1) := by
      obtain ⟨runs, -, same⟩ := round_turns id round traffic
      rw [same] at room ⊢
      exact turns_sound _ sound room
    obtain ⟨told, rested, bound⟩ := rests.told sound room (reads round List.mem_cons_self)
      (fun turn member => beside turn (List.mem_append_left _ member)) (by omega)
    have later := ih rested still few (fun round member => reads round (List.mem_cons_of_mem _ member))
      (fun turn member => beside turn (List.mem_append_right _ member)) (by omega)
    simp only [Traffic.rounds, told, later, List.map_cons, Standing.answers]

end Reading

end Traffic

private theorem Standing.answer_awaited (standing : Standing) (action : Action) :
    standing.answer action.awaited = standing.answer action := by
  cases standing <;> cases action <;> rfl

/-- The mode of advances does not matter to what a scan stands for. -/
theorem Standing.answers_awaited (standing : Standing) (actions : List Action) :
    standing.answers (actions.map Action.awaited) = standing.answers actions := by
  induction actions generalizing standing with
  | nil => rfl
  | cons action rest ih => simp only [List.map_cons, answers, answer_awaited, ih]

private theorem Standing.answers_open {mark : Nat} {outlook : Outlook} {actions : List Action}
    (reads : ∀ action ∈ actions, action.reads = true) :
    ∀ reply ∈ (Standing.open mark outlook).answers actions, reply = .ready ∨ ∃ page, reply = .page page := by
  induction actions generalizing outlook with
  | nil => simp [answers]
  | cons action rest ih =>
    have later (next : Outlook) : ∀ reply ∈ (Standing.open mark next).answers rest,
        reply = .ready ∨ ∃ page, reply = .page page :=
      ih fun action member => reads action (List.mem_cons_of_mem _ member)
    intro reply member
    cases action with
    | seek target => exact (List.mem_cons.mp member).elim .inl (later _ reply)
    | advance mode => exact (List.mem_cons.mp member).elim (fun same => .inr ⟨_, same⟩) (later _ reply)
    | endNow | endLater => exact absurd (reads _ List.mem_cons_self) Bool.false_ne_true

/-- Calls on a scan, each run to completion by itself, are answered as it stands. -/
theorem Service.performAll_stands {service : Service MemoryEngine TableWalker} {id : ScanId}
    {standing : Standing} (stands : service.Stands id standing) (route : Route) (actions : List Action) :
    (service.performAll (actions.map fun action => .scan route id action)).1 =
      standing.answers actions := by
  induction actions generalizing service standing with
  | nil => rfl
  | cons action rest ih =>
    obtain ⟨after, performed, next⟩ := perform_stands stands route action
    simp only [List.map_cons, performAll, performed, ih next, Standing.answers]

namespace Traffic

theorem Sound.create_rests {traffic : Traffic MemoryEngine TableWalker} {past : List Event}
    {id : ScanId} {options : ScanOptions} {after : Service MemoryEngine TableWalker}
    (sound : traffic.Sound past) (known : traffic.Known past)
    (few : (createdIds (past ++ (traffic.start (.create options)).1)).length < 2 ^ 32)
    (created : traffic.service.create options = (.ok id, after)) :
    ∃ window, after.Stands id (.open options.highWaterMark (.start window traffic.service.engine.live)) ∧
      (traffic.start (.create options)).2.Rests id
        (.open options.highWaterMark (.start window traffic.service.engine.live))
        (past ++ (traffic.start (.create options)).1) := by
  have next := sound.start_create few
  rw [start_created created] at next few ⊢
  have grown : createdIds (past ++ [.called traffic.calls (.create options),
      .answered traffic.calls (.created id)]) = createdIds past ++ [id] := by
    simp [Event.created?]
  have once := next.catalogued.nodup
  rw [grown] at once few
  obtain ⟨window, -, stands⟩ :=
    Service.create_stands sound.catalogued.numbered (by simpa using few) created
  have new : id ∉ createdIds past := fun old =>
    List.disjoint_of_nodup_append once old (List.mem_singleton_self id)
  obtain ⟨idle, unasked⟩ := known.unknown new
  exact ⟨window, stands, ⟨stands.2, idle⟩, grown ▸ List.mem_append_right _ (List.mem_singleton_self id),
    unasked⟩

/-- Take a scan over the engine in memory, created in traffic on a fresh service after whatever turns. Let
its caller make seeks and advances on it, each by whatever route and in whatever mode and each after the
one before it was answered; and let anything come in between that neither calls the scan nor closes the
service, such as sections of the reads in progress, calls on other scans, and writes. Then the caller is
told the same as if each of these calls was run to completion by itself right after the creation, with
every advance on its caller's thread. All of them succeed. And in all of this traffic every advance that
is begun is answered once, while nothing is done for one that is turned down. Ids are 32-bit words and
numbers of writes 64-bit words, so fewer creations and writes are assumed than there are of these. -/
theorem rounds_interchange (workers : Nat) (engine : MemoryEngine) (earlier : List (Turn MemoryEngine))
    {options : ScanOptions} {window : Window} (accepted : Window.ofOptions options = .ok window) :
    let before := Traffic.turns earlier { service := { workers, engine } }
    let opened := before.2.start (.create options)
    (createdIds (before.1 ++ opened.1)).length < 2 ^ 32 →
      ∃ id, opened.1 = [.called before.2.calls (.create options), .answered before.2.calls (.created id)] ∧
        ∀ (meanwhile : List (Turn MemoryEngine)) (rounds : List Round),
          let waited := opened.2.turns meanwhile
          let run := waited.2.rounds id rounds
          let past := before.1 ++ opened.1 ++ waited.1 ++ run.2.1
          let others := meanwhile ++ rounds.flatMap Round.meanwhile
          (∀ turn ∈ others, turn.Beside id) → (∀ round ∈ rounds, round.action.reads = true) →
          (createdIds past).length < 2 ^ 32 →
          opened.2.service.engine.sequence.toNat + others.countP Turn.isOutside < 2 ^ 64 →
            run.1 = (opened.2.service.performAll
              (rounds.map fun round => .scan .held id round.action.awaited)).1.map some ∧
            (∀ reply ∈ run.1, reply = some .ready ∨ ∃ page, reply = some (.page page)) ∧
            Delivers past run.2.2 := by
  intro before opened few
  have soundBefore : before.2.Sound before.1 :=
    turns_sound earlier (sound_fresh workers engine) (few_of_append few)
  have known : before.2.Known before.1 :=
    turns_known earlier (sound_fresh workers engine) (few_of_append few) ⟨by simp, by simp⟩
  have soundOpened : opened.2.Sound (before.1 ++ opened.1) := soundBefore.start_create few
  obtain ⟨id, after, created⟩ := Service.create_accepted before.2.service accepted
  have started : opened = _ := start_created created
  refine ⟨id, congrArg Prod.fst started, ?_⟩
  intro meanwhile rounds waited run past others beside reads fewer space
  obtain ⟨window, stands, rests⟩ := soundBefore.create_rests known few created
  rw [List.countP_append, ← Nat.add_assoc] at space
  obtain ⟨rested, bound⟩ := turns_beside Rests.step meanwhile rests soundOpened (few_of_append fewer)
    (fun turn member => beside turn (List.mem_append_left _ member))
    (Nat.lt_of_le_of_lt (Nat.le_add_right _ _) space)
  have soundWaited : waited.2.Sound (before.1 ++ opened.1 ++ waited.1) :=
    turns_sound meanwhile soundOpened (few_of_append fewer)
  have told := rested.rounds_told soundWaited fewer reads
    (fun turn member => beside turn (List.mem_append_right _ member))
    (Nat.lt_of_le_of_lt (Nat.add_le_add_right bound _) space)
  have here : opened.2.service = after := by rw [started]
  refine ⟨?_, ?_, ?_⟩
  · have alone := Service.performAll_stands stands .held (rounds.map fun round => round.action.awaited)
    have same := Standing.answers_awaited
      (.open options.highWaterMark (.start window before.2.service.engine.live)) (rounds.map Round.action)
    rw [List.map_map] at alone same
    rw [told, here, ← same]
    exact congrArg (List.map some) alone.symm
  · intro reply member
    rw [told] at member
    obtain ⟨own, answer, rfl⟩ := List.mem_map.mp member
    have all : ∀ action ∈ rounds.map Round.action, action.reads = true := by simpa using reads
    exact (Standing.answers_open all own answer).imp (congrArg some) fun ⟨page, same⟩ =>
      ⟨page, congrArg some same⟩
  · obtain ⟨turns, same⟩ := rounds_turns id rounds waited.2
    have last : run.2 = waited.2.turns turns := same
    -- all of this traffic is one run of turns on the fresh service
    let all := earlier ++ .act (.call (.create options)) :: (meanwhile ++ turns)
    have whole : Traffic.turns all { service := { workers, engine } } = (past, run.2.2) := by
      simp only [all, past, last, turns_append, Traffic.turns, Traffic.turn, Traffic.act, List.append_assoc]
      rfl
    have delivers := fresh_delivers workers engine all
    rw [whole] at delivers
    exact delivers fewer

/-- Two pages are read on the pool and one on its caller's thread, with a seek in between, while the
service creates another scan and reads from a third, and pairs that were or will be read are written. -/
theorem rounds_interchange_amid_writes :
    let earlier : List (Turn MemoryEngine) :=
      [.outside fun engine => engine.apply ⟨[1], some [1]⟩, .act (.call (.create {})),
        .outside fun engine => engine.apply ⟨[2], some [2]⟩,
        .outside fun engine => engine.apply ⟨[3], some [3]⟩,
        .act (.call (.scan .held 1 (.advance .pooled)))]
    let options : ScanOptions := { highWaterMark := 0 }
    let meanwhile : List (Turn MemoryEngine) := [.outside fun engine => engine.apply ⟨[1], none⟩]
    let rounds : List Round :=
      [⟨.roster, .advance .pooled, [.act (.run 1), .act (.run 0), .act (.call (.create {})),
          .act (.call (.scan .roster 3 (.advance .pooled)))]⟩,
        ⟨.held, .advance .waiting, [.outside fun engine => engine.apply ⟨[3], some [7]⟩, .act (.run 0)]⟩,
        ⟨.roster, .seek [2], [.act (.run 1)]⟩, ⟨.held, .advance .pooled, []⟩]
    let before := Traffic.turns earlier { service := { workers := 4, engine := MemoryEngine.empty } }
    let opened := before.2.start (.create options)
    let waited := opened.2.turns meanwhile
    let run := waited.2.rounds 2 rounds
    (createdIds (before.1 ++ opened.1)).length < 2 ^ 32 ∧
      opened.1 = [.called 2 (.create options), .answered 2 (.created 2)] ∧
      (∀ turn ∈ meanwhile ++ rounds.flatMap Round.meanwhile, turn.Beside 2) ∧
      run.1 = [some (.page ⟨[⟨some [1], some [1]⟩], false⟩), some (.page ⟨[⟨some [2], some [2]⟩], false⟩),
        some .ready, some (.page ⟨[⟨some [2], some [2]⟩], false⟩)] ∧
      run.1 = (opened.2.service.performAll
        (rounds.map fun round => .scan .held 2 round.action.awaited)).1.map some ∧
      Delivers (before.1 ++ opened.1 ++ waited.1 ++ run.2.1) run.2.2 := by
  intro earlier options meanwhile rounds
  have beside : ∀ turn ∈ meanwhile ++ rounds.flatMap Round.meanwhile, turn.Beside 2 := by
    simp [meanwhile, rounds, Turn.beside_act, Turn.beside_write, Act.Apart]
  obtain ⟨id, answered, interchanges⟩ :=
    rounds_interchange 4 MemoryEngine.empty earlier (rfl : Window.ofOptions options = .ok _) (by decide)
  obtain rfl : 2 = id := by
    have made := answered.symm.trans
      (by decide : _ = [.called 2 (.create options), .answered 2 (.created 2)])
    simpa [Event.created?, eq_comm] using congrArg createdIds made
  obtain ⟨same, -, delivers⟩ := interchanges meanwhile rounds beside (by decide) (by decide) (by decide)
  exact ⟨by decide, by decide, beside, by decide, same, delivers⟩

end Traffic
end KeyScan
