import KeyScan.Proofs.Service.Waiting
import KeyScan.Proofs.Traffic.Life

/-! The errand of one call. What was seen under its number, what is still to be done under it and
what it waits for fit together in one of a few ways, and every section of every task keeps to them.
A close asks for ends under numbers of its own; these have errands as well. -/
namespace KeyScan

def Event.call : Event → Nat
  | .called call _ | .begun call _ | .granted call _ _ | .left call _ | .released call _
  | .withdrawn call _ | .concluded call _ | .answered call _ => call

def seen (call : Nat) (events : List Event) : List Event :=
  events.filter fun event => event.call = call

/-- What is still to be done under a number. -/
def remaining (call : Nat) (tasks : List Task) : List Task :=
  tasks.filter fun task => task.call = call

/-- What a call waits for that no task of its own will bring about. -/
inductive Pause where
  | none
  | ending (id : ScanId)
  | closing
  deriving DecidableEq

/-- What a call that waits for an end is told at its conclusion. -/
def Pause.told (call : Nat) : Pause → List Event
  | .ending _ => [.answered call (.ended true)]
  | .none | .closing => []

/-- How a call comes to carry out the end of a scan: what was seen of it before, how it carries the
end out, and what it waits for. -/
inductive Brings (call : Nat) (id : ScanId) : List Event → Ending → Pause → Prop where
  | now (route : Route) :
      Brings call id [.called call (.scan route id .endNow), .granted call id false]
        ⟨false, some (.ended true)⟩ .none
  | later (route : Route) :
      Brings call id [.called call (.scan route id .endLater), .granted call id false]
        ⟨false, none⟩ (.ending id)
  | close : Brings call id [.granted call id false] ⟨false, none⟩ (.ending id)
  | waiting (route : Route) {outcome : Reply} (page : ∀ flag, outcome ≠ .ended flag) :
      Brings call id
        [.called call (.scan route id (.advance .waiting)), .begun call id, .left call id]
        ⟨true, some outcome⟩ .none
  | pooled (route : Route) {outcome : Reply} (page : ∀ flag, outcome ≠ .ended flag) :
      Brings call id
        [.called call (.scan route id (.advance .pooled)), .begun call id, .left call id,
          .answered call outcome]
        ⟨true, none⟩ .none

/-- How a call comes to wait for an end that another carries out. -/
inductive Awaits (call : Nat) (id : ScanId) : List Event → Prop where
  | later (route : Route) :
      Awaits call id [.called call (.scan route id .endLater), .granted call id true]
  | close : Awaits call id [.granted call id true]
  | joined : Awaits call id []

/-- The errand of a call: what was seen of it, what it has still to do and what it waits for. -/
inductive Errand (call : Nat) : List Event → List Task → Pause → Prop where
  | unmade : Errand call [] [] .none
  | closing : Errand call [.called call .close] [] .closing
  | replied (request : Request) {reply : Reply} (denied : reply ≠ .ended true) :
      Errand call [.called call request, .answered call reply] [] .none
  | refused : Errand call [.answered call (.ended false)] [] .none
  | fetch (route : Route) (id : ScanId) (mode : Mode) :
      Errand call [.called call (.scan route id (.advance mode)), .begun call id]
        [⟨call, id, .fetch mode⟩] .none
  | leave (route : Route) (id : ScanId) (mode : Mode) {outcome : Reply}
      (page : ∀ flag, outcome ≠ .ended flag) :
      Errand call [.called call (.scan route id (.advance mode)), .begun call id]
        [⟨call, id, .leave mode outcome⟩] .none
  | deliver (route : Route) (id : ScanId) {outcome : Reply} (pending : Bool)
      (page : ∀ flag, outcome ≠ .ended flag) :
      Errand call [.called call (.scan route id (.advance .pooled)), .begun call id, .left call id]
        [⟨call, id, .deliver outcome pending⟩] .none
  | advanced (route : Route) (id : ScanId) (mode : Mode) {outcome : Reply}
      (page : ∀ flag, outcome ≠ .ended flag) :
      Errand call
        [.called call (.scan route id (.advance mode)), .begun call id, .left call id,
          .answered call outcome] [] .none
  | putOff (route : Route) (id : ScanId) :
      Errand call
        [.called call (.scan route id .endNow), .granted call id true, .answered call (.ended false)]
        [] .none
  | waits {id : ScanId} {before : List Event} (awaits : Awaits call id before) :
      Errand call before [] (.ending id)
  | told {id : ScanId} {before : List Event} (awaits : Awaits call id before) :
      Errand call (before ++ [.answered call (.ended true)]) [] .none
  | release {id : ScanId} {before : List Event} {ending : Ending} {pause : Pause}
      (brings : Brings call id before ending pause) :
      Errand call before [⟨call, id, .release ending⟩] pause
  | withdraw {id : ScanId} {before : List Event} {ending : Ending} {pause : Pause}
      (brings : Brings call id before ending pause) :
      Errand call (before ++ [.released call id]) [⟨call, id, .withdraw ending⟩] pause
  | conclude {id : ScanId} {before : List Event} {ending : Ending} {pause : Pause}
      (brings : Brings call id before ending pause) :
      Errand call (before ++ [.released call id, .withdrawn call id])
        [⟨call, id, .conclude ending⟩] pause
  | settle {id : ScanId} {before : List Event} {ending : Ending} {pause : Pause}
      (brings : Brings call id before ending pause) :
      Errand call
        (before ++ [.released call id, .withdrawn call id, .concluded call id] ++ pause.told call)
        [⟨call, id, .settle ending⟩] .none
  | done {id : ScanId} {before : List Event} {ending : Ending} {pause : Pause}
      (brings : Brings call id before ending pause) :
      Errand call
        (before ++ [.released call id, .withdrawn call id, .concluded call id] ++ pause.told call ++
          ending.reply.toList.map (.answered call)) [] .none

section Numbers

variable {call : Nat} {id : ScanId} {events before front back : List Event} {tasks : List Task}
  {task : Task} {pause : Pause}

@[simp] theorem seen_nil (call : Nat) : seen call [] = [] := rfl

@[simp] theorem seen_append (call : Nat) (first second : List Event) :
    seen call (first ++ second) = seen call first ++ seen call second := List.filter_append ..

theorem seen_cons (call : Nat) (event : Event) (rest : List Event) :
    seen call (event :: rest) =
      if event.call = call then event :: seen call rest else seen call rest := by
  simp [seen, List.filter_cons]

@[simp] theorem remaining_append (call : Nat) (first second : List Task) :
    remaining call (first ++ second) = remaining call first ++ remaining call second :=
  List.filter_append ..

theorem mem_seen {event : Event} : event ∈ seen event.call events ↔ event ∈ events := by
  simp [seen]

theorem mem_remaining : task ∈ remaining task.call tasks ↔ task ∈ tasks := by simp [remaining]

theorem mem_of_remaining (member : task ∈ remaining call tasks) : task ∈ tasks :=
  (List.mem_filter.mp member).1

theorem seen_eq_self (own : ∀ event ∈ events, event.call = call) : seen call events = events :=
  List.filter_eq_self.mpr fun event member => decide_eq_true (own event member)

theorem seen_eq_nil (others : ∀ event ∈ events, event.call ≠ call) : seen call events = [] :=
  List.filter_eq_nil_iff.mpr fun event member => by simpa using others event member

theorem remaining_eq_self (own : ∀ task ∈ tasks, task.call = call) : remaining call tasks = tasks :=
  List.filter_eq_self.mpr fun task member => decide_eq_true (own task member)

theorem remaining_eq_nil (others : ∀ task ∈ tasks, task.call ≠ call) : remaining call tasks = [] :=
  List.filter_eq_nil_iff.mpr fun task member => by simpa using others task member

private theorem Reply.ofPage_ne_ended (outcome : Except Failure Page) (flag : Bool) :
    Reply.ofPage outcome ≠ .ended flag := by
  cases outcome <;> simp [Reply.ofPage]

theorem remaining_self (task : Task) : remaining task.call [task] = [task] := by simp [remaining]

/-- What is seen of a call when many are told the same. -/
theorem seen_told (call : Nat) (told : List Nat) (reply : Reply) :
    seen call (told.map fun other => .answered other reply) =
      List.replicate (told.count call) (.answered call reply) := by
  induction told with
  | nil => rfl
  | cons first rest ih =>
    rw [List.map_cons, seen_cons, ih, List.count_cons]
    by_cases own : first = call
    · simp [Event.call, own, List.replicate_succ]
    · simp [Event.call, own]

private theorem Brings.active {ending : Ending} (brings : Brings call id before ending pause) :
    pause ≠ .closing := by
  cases brings <;> simp

theorem Errand.own (errand : Errand call events tasks pause) :
    (∀ event ∈ events, event.call = call) ∧ ∀ task ∈ tasks, task.call = call := by
  cases errand with
  | waits awaits | told awaits => cases awaits <;> simp [Event.call]
  | release brings | withdraw brings | conclude brings | settle brings | done brings =>
    cases brings <;> simp [Event.call, Pause.told]
  | _ => simp [Event.call]

/-- A task of a call is all that is still to be done under its number. -/
theorem Errand.alone {front back : List Task}
    (errand : Errand call events (front ++ [task] ++ back) pause) :
    front = [] ∧ back = [] ∧ Errand call events [task] pause := by
  have short : (front ++ [task] ++ back).length ≤ 1 := by
    generalize front ++ [task] ++ back = tasks at errand
    cases errand <;> simp
  obtain ⟨rfl, rfl⟩ := eq_nil_of_length_le_one short
  exact ⟨rfl, rfl, errand⟩

theorem Errand.closing_eq (errand : Errand call events tasks .closing) :
    events = [.called call .close] ∧ tasks = [] := by
  cases errand with
  | closing => exact ⟨rfl, rfl⟩
  | release brings | withdraw brings | conclude brings => exact absurd rfl brings.active

end Numbers

namespace Service

variable {σ ι : Type}

/-- Where a number waits according to a service. -/
def Waits (call : Nat) (pause : Pause) (service : Service σ ι) : Prop :=
  ∀ id, (service.waiting id).count call = if pause = .ending id then 1 else 0

variable {service after : Service σ ι} {call : Nat} {pause : Pause} {id : ScanId}

private theorem Waits.of_eq (waits : service.Waits call pause)
    (same : ∀ other, after.waiting other = service.waiting other) : after.Waits call pause := by
  intro other
  rw [same, waits]

theorem Waits.mem_iff (waits : service.Waits call pause) :
    call ∈ service.waiting id ↔ pause = .ending id := by
  rw [← List.count_pos_iff, waits id]
  split <;> simp_all

/-- A conclusion tells a call once if it waits for that, and else not at all. -/
theorem Waits.told (waits : service.Waits call pause) (id : ScanId) :
    (service.conclude id).1.count call = if pause = .ending id then 1 else 0 := by
  rw [conclude_told, waits]

theorem Waits.conclude (waits : service.Waits call pause) (id : ScanId) :
    (service.conclude id).2.Waits call (if pause = .ending id then .none else pause) := by
  intro other
  rw [conclude_waiting]
  by_cases own : pause = .ending id
  · rw [if_pos own]
    by_cases same : other = id
    · simp [same]
    · have apart : pause ≠ .ending other := own ▸ fun equal => same (Pause.ending.inj equal).symm
      rw [if_neg same, waits, if_neg apart]
      simp
  · rw [if_neg own]
    by_cases same : other = id
    · simp [same, own]
    · rw [if_neg same, waits]

end Service

variable {σ ι : Type} [Engine σ ι]

/-- A section of a task carries the errand of its call on. -/
theorem Task.run_errand {task : Task} {service : Service σ ι} {before : List Event} {pause : Pause}
    (errand : Errand task.call before [task] pause) (waits : service.Waits task.call pause) :
    ∃ next, Errand task.call (before ++ seen task.call (task.run service).1)
        (task.run service).2.1.toList next ∧
      (task.run service).2.2.Waits task.call next ∧ next ≠ .closing := by
  obtain ⟨call, id, stage⟩ := task
  have active : Pause.none ≠ .closing := by decide
  cases stage with
  | fetch mode =>
    cases errand with
    | fetch route =>
      refine ⟨.none, ?_, waits.of_eq fun other => service.fetch_waiting mode id other, active⟩
      exact .leave route id mode (Reply.ofPage_ne_ended _)
  | leave mode outcome =>
    have kept := waits.of_eq fun other => service.leave_waiting id other
    obtain ⟨pending, after, left⟩ : ∃ pending after, service.leave id = (pending, after) :=
      ⟨_, _, rfl⟩
    rw [left] at kept
    cases errand with
    | leave route _ _ page =>
      cases mode with
      | pooled =>
        simp only [run, left]
        refine ⟨.none, ?_, kept, active⟩
        simpa [seen_cons, Event.call] using Errand.deliver route id pending page
      | waiting =>
        cases pending with
        | true =>
          simp only [run, left]
          refine ⟨.none, ?_, kept, active⟩
          simpa [seen_cons, Event.call] using Errand.release (.waiting route page)
        | false =>
          simp only [run, left]
          refine ⟨.none, ?_, kept, active⟩
          simpa [seen_cons, Event.call] using Errand.advanced route id .waiting page
  | deliver outcome pending =>
    cases errand with
    | deliver route _ _ page =>
      refine ⟨.none, ?_, waits, active⟩
      cases pending with
      | true => simpa [run, seen_cons, Event.call] using Errand.release (.pooled route page)
      | false => simpa [run, seen_cons, Event.call] using Errand.advanced route id .pooled page
  | release ending =>
    cases errand with
    | release brings =>
      refine ⟨pause, ?_, waits.of_eq fun other => service.release_waiting id other, brings.active⟩
      simpa [run, seen_cons, Event.call] using Errand.withdraw brings
  | withdraw ending =>
    cases errand with
    | withdraw brings =>
      refine ⟨pause, ?_, waits, brings.active⟩
      simpa [run, seen_cons, Event.call] using Errand.conclude brings
  | conclude ending =>
    cases errand with
    | conclude brings =>
      have heard := waits.told id
      have gone := waits.conclude id
      have said : List.replicate (if pause = .ending id then 1 else 0)
          (Event.answered call (.ended true)) = pause.told call := by
        cases brings <;> simp [Pause.told]
      have quiet : (if pause = .ending id then Pause.none else pause) = .none := by
        cases brings <;> simp
      obtain ⟨told, after, concluded⟩ : ∃ told after, service.conclude id = (told, after) :=
        ⟨_, _, rfl⟩
      rw [concluded] at heard gone
      rw [quiet] at gone
      simp only [run, concluded]
      refine ⟨.none, ?_, gone, active⟩
      simpa [seen_cons, Event.call, seen_told, heard, said] using Errand.settle brings
  | settle ending =>
    cases errand with
    | settle brings =>
      refine ⟨.none, ?_, waits, active⟩
      have own : seen call (ending.reply.toList.map (.answered call)) =
          ending.reply.toList.map (.answered call) := by
        cases ending.reply <;> simp [seen_cons, Event.call]
      simpa [run, own] using Errand.done brings

/-- A section of a task is nothing to other calls, but that its conclusion tells those who wait for
it. These have no tasks on the scan, for the task that concludes the end is the only one that is
bound to. -/
theorem Task.run_errand_other {task : Task} {service : Service σ ι} {call : Nat}
    {before : List Event} {tasks : List Task} {pause : Pause} (apart : task.call ≠ call)
    (errand : Errand call before tasks pause) (waits : service.Waits call pause)
    (alone : task.duty? task.id ≠ none → ∀ other ∈ tasks, other.duty? task.id = none) :
    ∃ next, Errand call (before ++ seen call (task.run service).1) tasks next ∧
      (task.run service).2.2.Waits call next ∧
      (next = pause ∧ seen call (task.run service).1 = [] ∨
        pause = .ending task.id ∧ next = .none) := by
  obtain ⟨runner, id, stage⟩ := task
  have unmoved {events : List Event} {after : Service σ ι} (silent : seen call events = [])
      (kept : after.Waits call pause) :
      ∃ next, Errand call (before ++ seen call events) tasks next ∧ after.Waits call next ∧
        (next = pause ∧ seen call events = [] ∨ pause = .ending id ∧ next = .none) :=
    ⟨pause, by rwa [silent, List.append_nil], kept, .inl ⟨rfl, silent⟩⟩
  cases stage with
  | fetch mode => exact unmoved rfl (waits.of_eq fun other => service.fetch_waiting mode id other)
  | leave mode outcome =>
    have kept := waits.of_eq fun other => service.leave_waiting id other
    obtain ⟨pending, after, left⟩ : ∃ pending after, service.leave id = (pending, after) :=
      ⟨_, _, rfl⟩
    rw [left] at kept
    cases mode <;> cases pending <;> simp only [run, left] <;>
      exact unmoved (by simp [seen_cons, Event.call, apart]) kept
  | deliver outcome pending => exact unmoved (by simp [run, seen_cons, Event.call, apart]) waits
  | release ending =>
    exact unmoved (by simp [run, seen_cons, Event.call, apart])
      (waits.of_eq fun other => service.release_waiting id other)
  | withdraw ending => exact unmoved (by simp [run, seen_cons, Event.call, apart]) waits
  | conclude ending =>
    have heard := waits.told id
    have gone := waits.conclude id
    obtain ⟨told, after, concluded⟩ : ∃ told after, service.conclude id = (told, after) := ⟨_, _, rfl⟩
    rw [concluded] at heard gone
    simp only [run, concluded]
    by_cases own : pause = .ending id
    · subst own
      have idle := alone (by simp [Stage.duty?])
      rw [if_pos rfl] at heard gone
      refine ⟨.none, ?_, gone, .inr ⟨rfl, rfl⟩⟩
      simp only [seen_cons, Event.call, apart, if_false, seen_told, heard]
      cases errand with
      | waits awaits => simpa using Errand.told awaits
      | release brings | withdraw brings | conclude brings =>
        cases brings <;> simp [Stage.duty?] at idle
    · rw [if_neg own] at heard gone
      exact unmoved (by simp [seen_cons, Event.call, apart, seen_told, heard]) gone
  | settle ending =>
    refine unmoved ?_ waits
    simp only [run]
    cases ending.reply <;> simp [seen_cons, Event.call, apart]

end KeyScan
