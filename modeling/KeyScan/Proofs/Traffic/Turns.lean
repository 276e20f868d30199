import KeyScan.Proofs.Service.Catalog
import KeyScan.Proofs.Service.Pins
import KeyScan.Proofs.Traffic.Ledger

/-! Turns of traffic on an engine that others use as well: between two acts the engine may be changed
from outside. Whatever turns come, the ids given out are those of the calls that were answered with
one, every reader keeps its snapshot until it is released, and tasks carry replies of three kinds. -/
namespace KeyScan

/-- What comes next: an act of traffic, or a change of the engine from outside. -/
inductive Turn (σ : Type) where
  | act (act : Act)
  | outside (change : σ → σ)

/-- The id that an event gives out. -/
def Event.created? : Event → Option ScanId
  | .answered _ (.created id) => some id
  | _ => none

/-- The ids given out by some events, in their order. -/
def createdIds (events : List Event) : List ScanId := events.filterMap Event.created?

@[simp] theorem createdIds_nil : createdIds [] = [] := rfl

@[simp] theorem createdIds_cons (event : Event) (rest : List Event) :
    createdIds (event :: rest) = event.created?.toList ++ createdIds rest :=
  filterMap_cons_toList _ event rest

@[simp] theorem createdIds_append (first second : List Event) :
    createdIds (first ++ second) = createdIds first ++ createdIds second := List.filterMap_append

/-- If a run creates few scans, so does any part of it that begins where it does. -/
theorem few_of_append {first second : List Event} {bound : Nat}
    (few : (createdIds (first ++ second)).length < bound) : (createdIds first).length < bound := by
  rw [createdIds_append, List.length_append] at few
  exact Nat.lt_of_le_of_lt (Nat.le_add_right _ _) few

/-- The reply that waits in a stage for its time. -/
def Stage.hand? : Stage → Option Reply
  | .leave _ outcome | .deliver outcome _ => some outcome
  | .release ending | .withdraw ending | .conclude ending | .settle ending => ending.reply
  | .fetch _ => none

/-- Whether a reply is one that a task can carry: a page, that a scan has ended, or a report of the
engine. -/
def Reply.Carried : Reply → Prop
  | .page _ | .ended true | .failed (.engine _) => True
  | _ => False

/-- Whether the reply that a task carries, if any, is of one of these kinds. -/
def Task.Carries (task : Task) : Prop := ∀ reply, task.stage.hand? = some reply → reply.Carried

private theorem carries_concat {tasks : List Task} {stage : Stage} {call : Nat} {id : ScanId}
    (carries : ∀ task ∈ tasks, task.Carries) (new : ∀ reply, stage.hand? = some reply → reply.Carried) :
    ∀ task ∈ tasks ++ [⟨call, id, stage⟩], task.Carries := by
  intro task member
  rcases List.mem_append.mp member with old | fresh
  · exact carries task old
  · exact List.mem_singleton.mp fresh ▸ new

private theorem Reply.Carried.ne_created {reply : Reply} (carried : reply.Carried) (id : ScanId) :
    reply ≠ .created id := by
  rintro rfl
  exact carried

private theorem createdIds_of_carried {events : List Event}
    (carried : ∀ call reply, .answered call reply ∈ events → reply.Carried) :
    createdIds events = [] := by
  refine List.filterMap_eq_nil_iff.mpr ?_
  intro event member
  cases event with
  | answered call reply =>
    have apart := (carried call reply member).ne_created
    cases reply <;> simp_all [Event.created?]
  | _ => rfl

variable {σ ι : Type} [Engine σ ι]

/-- A section hands on what its task carries, or answers with it. -/
theorem Task.run_carries {task : Task} {service : Service σ ι} (pinned : service.Pinned)
    (held : ∀ mode, task.stage = .fetch mode →
      ∃ phase live, service.condition? task.id = some ⟨phase, false, live⟩)
    (carries : task.Carries) :
    (∀ next, (task.run service).2.1 = some next → next.Carries) ∧
      ∀ call reply, .answered call reply ∈ (task.run service).1 → reply.Carried := by
  obtain ⟨runner, id, stage⟩ := task
  cases stage with
  | fetch mode =>
    obtain ⟨phase, live, condition⟩ := held mode rfl
    refine ⟨?_, by simp [run]⟩
    rintro next rest reply hand
    simp only [run, Option.some.injEq] at rest
    subst rest
    cases hand
    cases read : (service.fetch mode id).1 with
    | ok page => trivial
    | error failure =>
      obtain ⟨report, rfl⟩ := Service.fetch_error pinned condition read
      trivial
  | leave mode outcome =>
    have own : outcome.Carried := carries outcome rfl
    simp only [run]
    split
    · exact ⟨by rintro _ ⟨⟩ _ ⟨⟩; exact own, by simp⟩
    · exact ⟨by rintro _ ⟨⟩ _ ⟨⟩; exact own, by simp⟩
    · refine ⟨by simp, ?_⟩
      intro call reply member
      obtain ⟨-, rfl⟩ : call = runner ∧ reply = outcome := by simpa using member
      exact own
  | deliver outcome pending =>
    have own : outcome.Carried := carries outcome rfl
    refine ⟨?_, ?_⟩
    · intro next rest reply hand
      cases pending with
      | true =>
        simp only [run, if_true, Option.some.injEq] at rest
        subst rest
        cases hand
      | false => cases rest
    · intro call reply member
      obtain ⟨-, rfl⟩ : call = runner ∧ reply = outcome := by simpa [run] using member
      exact own
  | release ending => exact ⟨by rintro _ ⟨⟩; exact carries, by simp [run]⟩
  | withdraw ending => exact ⟨by rintro _ ⟨⟩; exact carries, by simp [run]⟩
  | conclude ending =>
    refine ⟨by rintro _ ⟨⟩; exact carries, ?_⟩
    intro call reply member
    obtain ⟨-, -, -, rfl⟩ : ∃ told ∈ (service.conclude id).1, told = call ∧ .ended true = reply := by
      simpa [run] using member
    trivial
  | settle ending =>
    refine ⟨by simp [run], ?_⟩
    intro call reply member
    obtain ⟨said, hand, -, rfl⟩ :
        ∃ said, ending.reply = some said ∧ runner = call ∧ said = reply := by
      simpa [run] using member
    exact carries said hand

namespace Traffic

variable {traffic : Traffic σ ι} {past : List Event}

/-- What a turn brings about. -/
def turn (turn : Turn σ) (traffic : Traffic σ ι) : List Event × Traffic σ ι :=
  match turn with
  | .act act => traffic.act act
  | .outside change =>
    ([], { traffic with service := { traffic.service with engine := change traffic.service.engine } })

def turns : List (Turn σ) → Traffic σ ι → List Event × Traffic σ ι
  | [], traffic => ([], traffic)
  | next :: rest, traffic =>
    let (events, traffic) := traffic.turn next
    let (more, traffic) := turns rest traffic
    (events ++ more, traffic)

theorem turns_append (first second : List (Turn σ)) (traffic : Traffic σ ι) :
    traffic.turns (first ++ second) =
      ((traffic.turns first).1 ++ ((traffic.turns first).2.turns second).1,
        ((traffic.turns first).2.turns second).2) := by
  induction first generalizing traffic with
  | nil => rfl
  | cons next rest ih => simp [turns, ih]

theorem start_created {options : ScanOptions} {id : ScanId} {after : Service σ ι}
    (opened : traffic.service.create options = (.ok id, after)) :
    traffic.start (.create options) =
      ([.called traffic.calls (.create options), .answered traffic.calls (.created id)],
        { traffic with service := after, calls := traffic.calls + 1 }) := by
  simp only [start, startRequest, opened, answer]

theorem start_refused {options : ScanOptions} {failure : Failure}
    (refused : Window.ofOptions options = .error failure) :
    traffic.start (.create options) =
      ([.called traffic.calls (.create options), .answered traffic.calls (.failed failure)],
        { traffic with calls := traffic.calls + 1 }) := by
  simp only [start, startRequest, Service.create, refused, answer]

private theorem startAction_created (action : Action) (id : ScanId) (call : Nat) (traffic : Traffic σ ι) :
    createdIds (traffic.startAction action id call).1 = [] := by
  unfold startAction
  split <;> split <;> simp [answer, Event.created?]

private theorem start_gives_no_id {request : Request} (other : ∀ options, request ≠ .create options) :
    createdIds (traffic.start request).1 = [] := by
  simp only [start, startRequest]
  split
  · exact absurd rfl (other _)
  · simpa [Event.created?] using startAction_created ..
  · split
    · simpa [Event.created?] using startAction_created ..
    · rename_i action failure _
      simp only [answer, createdIds_cons, createdIds_nil]
      unfold turnedAway
      split <;> rfl
  · split <;> rfl

theorem startAction_carries (action : Action) (id : ScanId) (call : Nat)
    (carries : ∀ task ∈ traffic.tasks, task.Carries) :
    ∀ task ∈ (traffic.startAction action id call).2.tasks, task.Carries := by
  unfold startAction
  split <;> split
  all_goals first
    | exact carries
    | exact carries_concat carries fun reply hand => by cases hand <;> trivial

theorem start_carries (request : Request) (carries : ∀ task ∈ traffic.tasks, task.Carries) :
    ∀ task ∈ (traffic.start request).2.tasks, task.Carries := by
  simp only [start, startRequest]
  split
  · split <;> exact carries
  · exact startAction_carries _ _ _ carries
  · split
    · exact startAction_carries _ _ _ carries
    · exact carries
  · split <;> exact carries

omit [Engine σ ι] in
theorem pursue_carries (place : Nat) (carries : ∀ task ∈ traffic.tasks, task.Carries) :
    ∀ task ∈ (traffic.pursue place).2.tasks, task.Carries := by
  unfold pursue
  split
  · exact carries
  · split
    · unfold ask
      simp only
      split
      all_goals first
        | exact carries
        | exact carries_concat carries fun reply hand => by cases hand
    · exact carries
    · exact carries

omit [Engine σ ι] in
private theorem pursue_gives_no_id (place : Nat) (traffic : Traffic σ ι) :
    createdIds (traffic.pursue place).1 = [] := by
  unfold pursue
  split
  · rfl
  · split
    · unfold ask
      simp only
      split <;> rfl
    · rfl
    · rfl

/-- What holds of traffic after whatever turns. -/
structure Sound (past : List Event) (traffic : Traffic σ ι) : Prop where
  regular : traffic.Regular past (createdIds past).length
  catalogued : traffic.service.Catalogued (createdIds past)
  pinned : traffic.service.Pinned
  carried : ∀ task ∈ traffic.tasks, task.Carries

omit [Engine σ ι] in
theorem sound_fresh (workers : Nat) (engine : σ) :
    Sound [] ({ service := { workers, engine } } : Traffic σ ι) where
  regular := regular_fresh workers engine
  catalogued := Service.catalogued_fresh workers engine
  pinned _ _ found := nomatch found
  carried _ member := nomatch member

omit [Engine σ ι] in
theorem Sound.held_of_advance {task : Task} (sound : traffic.Sound past) (member : task ∈ traffic.tasks)
    (bound : task.stage.duty? = some .advance) :
    ∃ phase, traffic.service.condition? task.id = some ⟨phase, false, true⟩ := by
  have own : task.duty? task.id = some .advance := (if_pos rfl).trans bound
  have owed : .advance ∈ duties task.id traffic.tasks := List.mem_filterMap.mpr ⟨task, member, own⟩
  exact (sound.regular.orderly task.id).life.held_of_advance owed

theorem Sound.run_carries {task : Task} (sound : traffic.Sound past) (member : task ∈ traffic.tasks) :
    (∀ next, (task.run traffic.service).2.1 = some next → next.Carries) ∧
      ∀ call reply, .answered call reply ∈ (task.run traffic.service).1 → reply.Carried := by
  refine task.run_carries sound.pinned ?_ (sound.carried task member)
  intro mode fetch
  obtain ⟨phase, held⟩ := sound.held_of_advance member (by rw [fetch]; rfl)
  exact ⟨phase, true, held⟩

theorem Sound.runTask_carries (sound : traffic.Sound past) (place : Nat) :
    (∀ task ∈ (traffic.runTask place).2.tasks, task.Carries) ∧
      createdIds (traffic.runTask place).1 = [] := by
  cases found : traffic.tasks[place]? with
  | none =>
    simp only [runTask, found]
    exact ⟨sound.carried, rfl⟩
  | some task =>
    obtain ⟨events, -, -⟩ := runTask_of_task found
    obtain ⟨next, answers⟩ := sound.run_carries (List.mem_of_getElem? found)
    rw [events]
    refine ⟨?_, createdIds_of_carried answers⟩
    intro other member
    rcases mem_of_runTask found member with old | rest
    · exact sound.carried other old
    · exact next other rest

theorem Sound.act_other {act : Act} (sound : traffic.Sound past)
    (few : (createdIds past).length < 2 ^ 32) (other : act.creates = false) :
    (traffic.act act).2.Sound (past ++ (traffic.act act).1) ∧ createdIds (traffic.act act).1 = [] := by
  have noCreation {options : ScanOptions} : act ≠ .call (.create options) := by
    rintro rfl
    cases other
  have next : (∀ task ∈ (traffic.act act).2.tasks, task.Carries) ∧
      createdIds (traffic.act act).1 = [] := by
    cases act with
    | call request =>
      exact ⟨start_carries request sound.carried,
        start_gives_no_id fun options same => noCreation (congrArg Act.call same)⟩
    | run place => exact sound.runTask_carries place
    | pursue place => exact ⟨pursue_carries place sound.carried, pursue_gives_no_id place traffic⟩
  obtain ⟨carried, silent⟩ := next
  have same : createdIds (past ++ (traffic.act act).1) = createdIds past := by
    rw [createdIds_append, silent, List.append_nil]
  have regular := act_regular act sound.regular (by simpa [other] using few)
  refine ⟨⟨?_, ?_, ?_, carried⟩, silent⟩
  · simpa [same, other] using regular
  · rw [same]
    exact act_kept (Service.catalogued_kept _) act sound.catalogued fun _ _ _ call => absurd call noCreation
  · exact act_kept Service.pinned_kept act sound.pinned fun _ _ _ call => absurd call noCreation

/-- A call to create a scan keeps traffic sound, whether or not it is turned down. -/
theorem Sound.start_create {options : ScanOptions} (sound : traffic.Sound past)
    (room : (createdIds (past ++ (traffic.start (.create options)).1)).length < 2 ^ 32) :
    (traffic.start (.create options)).2.Sound (past ++ (traffic.start (.create options)).1) := by
  have carried := start_carries (.create options) sound.carried
  cases accepted : Window.ofOptions options with
  | error failure =>
    have moves := act_moves (.call (.create options)) traffic
    simp only [Traffic.act, start_refused accepted] at moves
    rw [start_refused accepted]
    have same : createdIds (past ++ [.called traffic.calls (.create options),
        .answered traffic.calls (.failed failure)]) = createdIds past := by
      simp [Event.created?]
    refine ⟨⟨fun id => ⟨?_, ?_⟩, ?_, sound.regular.attended⟩, ?_, sound.pinned, sound.carried⟩
    · simpa [Event.milestone?] using (sound.regular.orderly id).life
    · rw [same]
      exact (sound.regular.orderly id).numbered
    · exact moves.ledger sound.regular.ledger fun id => (sound.regular.orderly id).life
    · rw [same]
      exact sound.catalogued
  | ok window =>
    obtain ⟨id, after, opened⟩ := Service.create_accepted traffic.service accepted
    have started := start_created opened
    have grown : createdIds (past ++ (traffic.start (.create options)).1) = createdIds past ++ [id] := by
      simp [started, Event.created?]
    rw [grown, List.length_append, List.length_singleton] at room
    have regular := act_regular (.call (.create options)) sound.regular room
    refine ⟨?_, ?_, ?_, carried⟩
    · rw [grown, List.length_append]
      exact regular
    · rw [grown, started]
      exact sound.catalogued.create room opened
    · rw [started]
      exact sound.pinned.create opened

omit [Engine σ ι] in
theorem Sound.outside (sound : traffic.Sound past) (change : σ → σ) :
    Sound past
      { traffic with service := { traffic.service with engine := change traffic.service.engine } } := by
  obtain ⟨⟨orderly, ledger, attended⟩, ⟨keyed, issued, consecutive, rostered⟩, pinned, carried⟩ := sound
  refine ⟨⟨fun id => ⟨(orderly id).life, ⟨?_, ?_⟩⟩, fun call => ?_, attended⟩,
    ⟨keyed, issued, consecutive, rostered⟩, pinned, carried⟩
  · exact (orderly id).numbered.bounded
  · exact (orderly id).numbered.given
  · obtain ⟨pause, errand, waits, closing, unmade⟩ := ledger call
    exact ⟨pause, errand, waits, closing, unmade⟩

/-- A turn keeps traffic sound as long as there are ids left. -/
theorem turn_sound (turn : Turn σ) (sound : traffic.Sound past)
    (room : (createdIds (past ++ (traffic.turn turn).1)).length < 2 ^ 32) :
    (traffic.turn turn).2.Sound (past ++ (traffic.turn turn).1) := by
  cases turn with
  | outside change =>
    simp only [Traffic.turn, List.append_nil]
    exact sound.outside change
  | act act =>
    cases creates : act.creates with
    | false =>
      exact (sound.act_other (few_of_append room) creates).1
    | true =>
      unfold Act.creates at creates
      split at creates
      · exact sound.start_create room
      · cases creates

/-- What every turn keeps from sound traffic on holds whatever turns come. -/
theorem turns_keep (kept : List Event → Traffic σ ι → Prop) (turns : List (Turn σ))
    (step : ∀ {past traffic}, ∀ turn ∈ turns, traffic.Sound past →
      (createdIds (past ++ (traffic.turn turn).1)).length < 2 ^ 32 → kept past traffic →
        kept (past ++ (traffic.turn turn).1) (traffic.turn turn).2)
    (sound : traffic.Sound past)
    (few : (createdIds (past ++ (traffic.turns turns).1)).length < 2 ^ 32) (start : kept past traffic) :
    (traffic.turns turns).2.Sound (past ++ (traffic.turns turns).1) ∧
      kept (past ++ (traffic.turns turns).1) (traffic.turns turns).2 := by
  induction turns generalizing traffic past with
  | nil => simpa [Traffic.turns] using ⟨sound, start⟩
  | cons turn rest ih =>
    simp only [Traffic.turns] at few ⊢
    rw [← List.append_assoc] at few ⊢
    have room : (createdIds (past ++ (traffic.turn turn).1)).length < 2 ^ 32 :=
      few_of_append few
    refine ih (fun turn member => step turn (List.mem_cons_of_mem _ member)) (turn_sound turn sound room)
      few ?_
    exact step turn List.mem_cons_self sound room start

theorem turns_sound (turns : List (Turn σ)) (sound : traffic.Sound past)
    (few : (createdIds (past ++ (traffic.turns turns).1)).length < 2 ^ 32) :
    (traffic.turns turns).2.Sound (past ++ (traffic.turns turns).1) :=
  (turns_keep (fun _ _ => True) turns (fun _ _ _ _ _ => trivial) sound few trivial).1

end Traffic
end KeyScan
