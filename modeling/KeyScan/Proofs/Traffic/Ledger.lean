import KeyScan.Proofs.Traffic.Moves

namespace KeyScan.Traffic

variable {σ ι : Type} {traffic after : Traffic σ ι} {past events : List Event} {created : Nat}

/-- A number, its errand and what traffic has of it. Numbers that are still to be given have
nothing. -/
structure Keeps (call : Nat) (pause : Pause) (past : List Event) (traffic : Traffic σ ι) : Prop where
  errand : Errand call (seen call past) (remaining call traffic.tasks) pause
  waits : traffic.service.Waits call pause
  closing : (traffic.closings.map Closing.call).count call = if pause = .closing then 1 else 0
  unmade : traffic.calls ≤ call →
    seen call past = [] ∧ remaining call traffic.tasks = [] ∧ pause = .none

/-- Every number has its errand. -/
def Ledger (past : List Event) (traffic : Traffic σ ι) : Prop :=
  ∀ call, ∃ pause, traffic.Keeps call pause past

theorem ledger_fresh (workers : Nat) (engine : σ) :
    Ledger [] ({ service := { workers, engine } } : Traffic σ ι) :=
  fun _ => ⟨.none, .unmade, fun _ => rfl, rfl, fun _ => ⟨rfl, rfl, rfl⟩⟩

theorem SetsOut.ledger {tasks : List Task} {pause : Pause}
    (new : SetsOut events tasks pause traffic after) (ledger : traffic.Ledger past) :
    after.Ledger (past ++ events) := by
  obtain ⟨ownEvents, ownTasks⟩ := new.errand.own
  intro call
  obtain ⟨before, errand, waits, closing, unmade⟩ := ledger call
  by_cases own : call = traffic.calls
  · obtain ⟨nothing, idle, rfl⟩ := unmade (Nat.le_of_eq own.symm)
    subst own
    refine ⟨pause, ?_, ?_, ?_, ?_⟩
    · rw [seen_append, nothing, seen_eq_self ownEvents, new.tasks, remaining_append, idle,
        remaining_eq_self ownTasks]
      exact new.errand
    · intro id
      rw [new.waiting, List.count_append, waits]
      by_cases here : pause = .ending id <;> simp [here]
    · rw [new.closings, List.count_append, closing]
      by_cases here : pause = .closing <;> simp [here]
    · intro later
      rw [new.calls] at later
      exact absurd later (Nat.not_succ_le_self _)
  · have silent : seen call events = [] :=
      seen_eq_nil fun event member => ownEvents event member ▸ Ne.symm own
    have idle : remaining call tasks = [] :=
      remaining_eq_nil fun task member => ownTasks task member ▸ Ne.symm own
    refine ⟨before, ?_, ?_, ?_, ?_⟩
    · rwa [seen_append, silent, new.tasks, remaining_append, idle, List.append_nil, List.append_nil]
    · intro id
      rw [new.waiting, List.count_append, waits]
      by_cases here : pause = .ending id <;> simp [here, Ne.symm own]
    · rw [new.closings, List.count_append, closing]
      by_cases here : pause = .closing <;> simp [here, Ne.symm own]
    · intro later
      rw [new.calls] at later
      rw [seen_append, silent, new.tasks, remaining_append, idle, List.append_nil, List.append_nil]
      exact unmade (Nat.le_of_succ_le later)

theorem Ledger.close {front back : List Closing} {closing : Closing} (ledger : traffic.Ledger past)
    (split : traffic.closings = front ++ [closing] ++ back) :
    Ledger (past ++ [.answered closing.call .closed]) { traffic with closings := front ++ back } := by
  have counted (call : Nat) : (traffic.closings.map Closing.call).count call =
      ((front ++ back).map Closing.call).count call + if closing.call = call then 1 else 0 := by
    simp [split, List.count_cons]
    omega
  intro call
  obtain ⟨pause, errand, waits, closes, unmade⟩ := ledger call
  rw [counted] at closes
  by_cases here : closing.call = call
  · subst here
    rw [if_pos rfl] at closes
    split at closes
    · rename_i paused
      subst paused
      refine ⟨.none, ?_, waits, by simpa using closes, ?_⟩
      · obtain ⟨begun, idle⟩ := errand.closing_eq
        have denied : Reply.closed ≠ .ended true := by decide
        rw [seen_append, begun, idle]
        simpa [seen_cons, Event.call] using Errand.replied .close denied
      · intro later
        cases (unmade later).2.2
    · omega
  · have silent : seen call [.answered closing.call .closed] = [] := by
      simp [seen_cons, Event.call, here]
    refine ⟨pause, ?_, waits, by simpa [here] using closes, ?_⟩
    · rwa [seen_append, silent, List.append_nil]
    · rwa [seen_append, silent, List.append_nil]

variable [Engine σ ι]

/-- Every move keeps the errands of all calls. -/
theorem Moves.ledger (moves : traffic.Moves events after) (ledger : traffic.Ledger past)
    (lives : ∀ id,
      Life (traffic.service.condition? id) (duties id traffic.tasks) (milestones id past)) :
    after.Ledger (past ++ events) := by
  cases moves with
  | idle => rwa [List.append_nil]
  | setsOut new => exact new.ledger ledger
  | closes split => exact ledger.close split
  | @runs front back task after split service tasks closings calls =>
    obtain ⟨pause, errand, waits, closing, unmade⟩ := ledger task.call
    rw [split, remaining_append, remaining_append, remaining_self] at errand unmade
    have idle : pause ≠ .closing := by
      rintro rfl
      simpa using errand.closing_eq.2
    obtain ⟨noneBefore, noneAfter, errand⟩ := errand.alone
    obtain ⟨next, errand, waits, active⟩ := task.run_errand errand waits
    have ownRest := errand.own.2
    intro call
    by_cases own : task.call = call
    · subst own
      refine ⟨next, ?_, service ▸ waits, ?_, ?_⟩
      · rw [tasks, seen_append, remaining_append, remaining_append, noneBefore, noneAfter,
          remaining_eq_self ownRest, List.nil_append, List.append_nil]
        exact errand
      · rw [closings, closing, if_neg idle, if_neg active]
      · intro later
        rw [calls] at later
        simpa using (unmade later).2.1
    · have silent : remaining call (task.run traffic.service).2.1.toList = [] :=
        remaining_eq_nil fun rest member => ownRest rest member ▸ own
      have here : remaining call [task] = [] := by simp [remaining, own]
      obtain ⟨pause, errand, waits, closing, unmade⟩ := ledger call
      rw [split, remaining_append, remaining_append, here, List.append_nil] at errand unmade
      have alone : task.duty? task.id ≠ none →
          ∀ other ∈ remaining call front ++ remaining call back, other.duty? task.id = none := by
        intro bound other member
        rw [← remaining_append] at member
        exact (split ▸ lives task.id).unbound bound other (mem_of_remaining member)
      obtain ⟨next, errand, waits, changed⟩ := task.run_errand_other own errand waits alone
      refine ⟨next, ?_, service ▸ waits, ?_, ?_⟩
      · rw [tasks, seen_append, remaining_append, remaining_append, silent, List.append_nil]
        exact errand
      · rw [closings, closing]
        rcases changed with ⟨rfl, -⟩ | ⟨rfl, rfl⟩
        · rfl
        · rfl
      · intro later
        rw [calls] at later
        obtain ⟨nothing, idle, rfl⟩ := unmade later
        rcases changed with ⟨rfl, quiet⟩ | ⟨other, -⟩
        · rw [tasks, seen_append, remaining_append, remaining_append, silent, List.append_nil,
            nothing, quiet, idle]
          exact ⟨rfl, rfl, rfl⟩
        · cases other

/-- What holds of traffic at any time: every scan is at a station of its life and every number has
its errand, and nobody waits for the end of a scan unless it is under way. -/
structure Regular (past : List Event) (created : Nat) (traffic : Traffic σ ι) : Prop where
  orderly : ∀ id, traffic.Orderly id past created
  ledger : traffic.Ledger past
  attended : traffic.service.Attended

omit [Engine σ ι] in
theorem regular_fresh (workers : Nat) (engine : σ) :
    Regular [] 0 ({ service := { workers, engine } } : Traffic σ ι) where
  orderly _ := ⟨.unknown, ⟨Nat.le_refl _, fun _ member => absurd member List.not_mem_nil⟩⟩
  ledger := ledger_fresh workers engine
  attended _ _ found := nomatch found

private theorem act_attended (act : Act) (attended : traffic.service.Attended) :
    (traffic.act act).2.service.Attended :=
  act_kept Service.attended_kept act attended fun _ _ _ _ opened => attended.create opened

theorem act_regular (act : Act) (regular : traffic.Regular past created)
    (room : created + act.creates.toNat < 2 ^ 32) :
    (traffic.act act).2.Regular (past ++ (traffic.act act).1) (created + act.creates.toNat) where
  orderly id := act_orderly act (regular.orderly id) room
  ledger := (act_moves act traffic).ledger regular.ledger fun id => (regular.orderly id).life
  attended := act_attended act regular.attended

/-- What every move keeps from regular traffic on holds whatever acts come. -/
theorem acts_keep {kept : List Event → Traffic σ ι → Prop}
    (step : ∀ {past created traffic events after}, traffic.Regular past created →
      traffic.Moves events after → kept past traffic → kept (past ++ events) after)
    (acts : List Act) (regular : traffic.Regular past created)
    (room : created + acts.countP Act.creates < 2 ^ 32) (start : kept past traffic) :
    (traffic.acts acts).2.Regular (past ++ (traffic.acts acts).1)
        (created + acts.countP Act.creates) ∧
      kept (past ++ (traffic.acts acts).1) (traffic.acts acts).2 := by
  induction acts generalizing traffic past created with
  | nil => simpa [Traffic.acts] using ⟨regular, start⟩
  | cons act rest ih =>
    rw [countP_cons_toNat, ← Nat.add_assoc] at room ⊢
    have first := Nat.lt_of_le_of_lt (Nat.le_add_right _ _) room
    have next := ih (act_regular act regular first) room (step regular (act_moves act traffic) start)
    rwa [List.append_assoc] at next

end KeyScan.Traffic
