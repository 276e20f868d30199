import KeyScan.Proofs.Traffic.Record

namespace KeyScan

def AskedEnd (past : List Event) (call : Nat) (id : ScanId) : Prop :=
  Asked past call id .endNow ∨ Asked past call id .endLater

/-- A call asked for the end of a scan and was told that it has ended the scan. -/
def ToldEnd (past : List Event) (call : Nat) (id : ScanId) : Prop :=
  AskedEnd past call id ∧ .answered call (.ended true) ∈ past

section Errands

variable {call : Nat} {id : ScanId} {events : List Event} {tasks : List Task} {pause : Pause}

theorem count_answeredCalls_seen (call : Nat) (events : List Event) :
    (Traffic.answeredCalls (seen call events)).count call =
      (Traffic.answeredCalls events).count call := by
  induction events with
  | nil => rfl
  | cons event rest ih =>
    rw [seen_cons]
    by_cases own : event.call = call
    · rw [if_pos own]
      cases event <;> simp_all [Traffic.answeredCalls, List.count_cons]
    · rw [if_neg own, ih]
      cases event <;> simp_all [Traffic.answeredCalls, Event.call]

theorem Errand.answers_le (errand : Errand call events tasks pause) :
    (Traffic.answeredCalls events).count call ≤ 1 := by
  cases errand with
  | waits awaits | told awaits => cases awaits <;> simp [Traffic.answeredCalls]
  | release brings | withdraw brings | conclude brings | settle brings | done brings =>
    cases brings <;> simp [Traffic.answeredCalls, Pause.told]
  | _ => simp [Traffic.answeredCalls]

/-- A call of which something was seen, and that neither does nor awaits anything, was answered. -/
theorem Errand.answers_eq (errand : Errand call events [] .none) (made : events ≠ []) :
    (Traffic.answeredCalls events).count call = 1 := by
  cases errand with
  | told awaits => cases awaits <;> simp [Traffic.answeredCalls]
  | done brings => cases brings <;> simp [Traffic.answeredCalls, Pause.told]
  | unmade => cases made rfl
  | _ => simp [Traffic.answeredCalls]

/-- A call that was told that it has ended a scan was granted the end, and not put off. -/
theorem Errand.granted_of_told {request : Request} (errand : Errand call events tasks pause)
    (called : .called call request ∈ events) (told : .answered call (.ended true) ∈ events) :
    ∃ id deferred, .granted call id deferred ∈ events ∧
      (deferred = true → ∀ route, .called call (.scan route id .endNow) ∉ events) := by
  cases errand with
  | waits awaits | told awaits => cases awaits <;> simp_all
  | release brings | withdraw brings | conclude brings | settle brings | done brings =>
    cases brings <;> simp_all [Pause.told]
  | _ => simp_all

/-- A call that was granted the end of a scan and neither does nor awaits anything was told so,
unless it was put off. -/
theorem Errand.told_of_granted {deferred : Bool} (errand : Errand call events [] .none)
    (granted : .granted call id deferred ∈ events) :
    (deferred = true ∧ ∃ route, .called call (.scan route id .endNow) ∈ events) ∨
      .answered call (.ended true) ∈ events := by
  cases errand with
  | told awaits => cases awaits <;> simp_all
  | done brings => cases brings <;> simp_all [Pause.told]
  | _ => simp_all

private theorem Errand.asked_of_granted {deferred : Bool} {request : Request}
    (errand : Errand call events tasks pause) (granted : .granted call id deferred ∈ events)
    (called : .called call request ∈ events) :
    ∃ route, .called call (.scan route id .endNow) ∈ events ∨
      .called call (.scan route id .endLater) ∈ events := by
  cases errand with
  | waits awaits | told awaits => cases awaits <;> simp_all
  | release brings | withdraw brings | conclude brings | settle brings | done brings =>
    cases brings <;> simp_all [Pause.told]
  | _ => simp_all

end Errands

private theorem AskedEnd.called {past : List Event} {call : Nat} {id : ScanId}
    (asked : AskedEnd past call id) :
    ∃ route action, .called call (.scan route id action) ∈ seen call past := by
  rcases asked with ⟨route, called⟩ | ⟨route, called⟩ <;> exact ⟨route, _, mem_seen.mpr called⟩

namespace Traffic

variable {σ ι : Type} {traffic after : Traffic σ ι} {past events : List Event} {created call : Nat}
  {id : ScanId}

/-- What those are told who ask for the end of a scan, given the events so far. -/
structure EndsReported (id : ScanId) (past : List Event) (traffic : Traffic σ ι) : Prop where
  /-- at most one of them is told that it has ended the scan -/
  one : ∀ call other, ToldEnd past call id → ToldEnd past other id → call = other
  /-- whoever was granted the end is told so by the time that nothing is left to do on the scan; but
  if it asked for the end before the reply while an advance was under way, nobody is -/
  granted : ∀ front call deferred back, past = front ++ .granted call id deferred :: back →
    (∀ task ∈ traffic.tasks, task.id ≠ id) →
    (Asked past call id .endNow ∧ UnderWay front id → ∀ other, ¬ToldEnd past other id) ∧
      (¬(Asked past call id .endNow ∧ UnderWay front id) → ToldEnd past call id)
  /-- each of them is answered at most once, and is answered by the time that nothing is left to
  do -/
  answers : ∀ call, AskedEnd past call id → (answeredCalls past).count call ≤ 1 ∧
    ((∀ task ∈ traffic.tasks, task.id ≠ id) → (answeredCalls past).count call = 1)
  /-- whoever is told that it has ended the scan is told after the scan was released and withdrawn,
  and has itself released it if it asked for the end before the reply -/
  after : ∀ front call back, past = front ++ .answered call (.ended true) :: back →
    AskedEnd past call id → ∃ ender, .released ender id ∈ front ∧ .withdrawn ender id ∈ front ∧
      (Asked past call id .endNow → ender = call)

/-- Where nothing is left to do on a scan, the errands about it are over. -/
theorem Regular.settled {event : Event} (regular : traffic.Regular past created)
    (idle : ∀ task ∈ traffic.tasks, task.id ≠ id) (member : event ∈ past)
    (here : event.scan? = some id) : Errand event.call (seen event.call past) [] .none := by
  obtain ⟨pause, kept⟩ := regular.ledger event.call
  obtain ⟨errand, waits, -, -⟩ := kept
  obtain ⟨own, events, tasks, ending⟩ := errand.about
  have same : id = own := events event (mem_seen.mpr member) id here
  subst same
  have finished : remaining event.call traffic.tasks = [] := by
    refine List.eq_nil_iff_forall_not_mem.mpr ?_
    intro task left
    exact idle task (mem_of_remaining left) (tasks task left)
  rw [finished] at errand
  cases pause with
  | none => exact errand
  | ending other =>
    obtain rfl := ending other rfl
    have someone : traffic.service.waiting other ≠ [] := by
      intro nobody
      have counted := waits other
      simp [nobody] at counted
    have life := (regular.orderly other).life
    have nothing : duties other traffic.tasks = [] :=
      List.filterMap_eq_nil_iff.mpr fun task left => if_neg (idle task left)
    rw [nothing] at life
    have ending := regular.attended.phase someone
    rw [Service.phase?_eq_condition] at ending
    exact absurd ending life.not_ending
  | closing =>
    obtain ⟨begun, -⟩ := errand.closing_eq
    have only := mem_seen.mpr member
    rw [begun, List.mem_singleton] at only
    rw [only] at here
    cases here

/-- Those who asked for an end were told that it has come after it had. -/
def ToldAfter (past : List Event) : Prop :=
  ∀ front call id back, past = front ++ .answered call (.ended true) :: back → AskedEnd past call id →
    ∃ ender, .released ender id ∈ front ∧ .withdrawn ender id ∈ front ∧
      (Asked past call id .endNow → ender = call)

/-- No close is in progress, and every number is that of a call. -/
structure Unclosed (past : List Event) (traffic : Traffic σ ι) : Prop where
  closings : traffic.closings = []
  numbers : ∀ call < traffic.calls, ∃ request, .called call request ∈ past

theorem Regular.endsReported (regular : traffic.Regular past created) (deferral : Deferral past)
    (toldAfter : ToldAfter past) (unclosed : traffic.Unclosed past) (id : ScanId) :
    traffic.EndsReported id past := by
  -- whoever is told was granted the end
  have granted {call : Nat} (told : ToldEnd past call id) : ∃ deferred,
      .granted call id deferred ∈ past ∧ (deferred = true → ¬Asked past call id .endNow) := by
    obtain ⟨asked, answered⟩ := told
    obtain ⟨route, action, called⟩ := asked.called
    obtain ⟨pause, kept⟩ := regular.ledger call
    obtain ⟨other, deferred, granted, late⟩ :=
      kept.errand.granted_of_told called (mem_seen.mpr answered)
    obtain ⟨_, events, -, -⟩ := kept.errand.about
    obtain rfl := events _ called id rfl
    obtain rfl := events _ granted other rfl
    refine ⟨deferred, mem_seen.mp granted, ?_⟩
    rintro rfl ⟨route, early⟩
    exact late rfl route (mem_seen.mpr early)
  refine ⟨?_, ?_, ?_, fun front call back => toldAfter front call id back⟩
  · intro call other one two
    obtain ⟨deferred, first, -⟩ := granted one
    obtain ⟨late, second, -⟩ := granted two
    exact (regular.granted_unique first second).1
  · intro front call deferred back split idle
    have member : .granted call id deferred ∈ past := split ▸ by simp
    have underWay := deferral front call id deferred back split
    have errand := regular.settled idle member rfl
    have own := mem_seen.mpr member
    constructor
    · rintro ⟨early, advancing⟩ other told
      obtain ⟨late, again, kept⟩ := granted told
      obtain ⟨rfl, rfl⟩ := regular.granted_unique member again
      exact kept (underWay.mpr advancing) early
    · intro otherwise
      obtain ⟨request, made⟩ := unclosed.numbers call (regular.ledger.given member)
      obtain ⟨route, asked⟩ := errand.asked_of_granted own (mem_seen.mpr made)
      refine ⟨?_, ?_⟩
      · exact asked.imp (fun now => ⟨route, mem_seen.mp now⟩) fun later => ⟨route, mem_seen.mp later⟩
      · rcases errand.told_of_granted own with ⟨late, route, early⟩ | told
        · exact absurd ⟨⟨route, mem_seen.mp early⟩, underWay.mp late⟩ otherwise
        · exact mem_seen.mp told
  · intro call asked
    obtain ⟨route, action, called⟩ := asked.called
    obtain ⟨pause, kept⟩ := regular.ledger call
    rw [← count_answeredCalls_seen]
    refine ⟨kept.errand.answers_le, ?_⟩
    intro idle
    exact (regular.settled idle (mem_seen.mp called) rfl).answers_eq (List.ne_nil_of_mem called)

variable [Engine σ ι]

private theorem Moves.askedEnd_before (moves : traffic.Moves events after) (given : call < traffic.calls)
    (asked : AskedEnd (past ++ events) call id) : AskedEnd past call id :=
  asked.imp (moves.asked_before given) (moves.asked_before given)

theorem Regular.toldAfter (regular : traffic.Regular past created)
    (moves : traffic.Moves events after) (told : ToldAfter past) : ToldAfter (past ++ events) := by
  intro front call id back split asked
  rcases split_append split with ⟨rest, old⟩ | ⟨middle, rest, rfl, new⟩
  · have given : (Event.answered call (.ended true)).call < traffic.calls :=
      regular.ledger.given (old ▸ by simp)
    obtain ⟨ender, released, withdrawn, own⟩ :=
      told front call id rest old (moves.askedEnd_before given asked)
    exact ⟨ender, released, withdrawn, fun now => own (moves.asked_before given now)⟩
  · have now : .answered call (.ended true) ∈ events := new ▸ by simp
    obtain ⟨ender, other, released, withdrawn, why⟩ := regular.told moves now
    rcases why with kept | ⟨rfl, route, called⟩
    · -- it waited for the end, so it has not asked for the end to come first
      have known := moves.askedEnd_before kept.given asked
      obtain ⟨_, events, -, ending⟩ := kept.errand.about
      obtain rfl := ending other rfl
      obtain ⟨route, action, called⟩ := known.called
      obtain rfl := events _ called id rfl
      refine ⟨ender, List.mem_append_left _ released, List.mem_append_left _ withdrawn, ?_⟩
      intro early
      obtain ⟨route, called⟩ := moves.asked_before kept.given early
      exact absurd (mem_seen.mpr called) kept.errand.not_ending_of_endNow
    · have given : (Event.released call other).call < traffic.calls := regular.ledger.given released
      obtain ⟨_, _, again⟩ := (moves.askedEnd_before given asked).called
      obtain ⟨pause, kept⟩ := regular.ledger call
      obtain rfl : id = other := by
        have same := kept.errand.called_unique again (mem_seen.mpr called)
        cases same
        rfl
      exact ⟨call, List.mem_append_left _ released, List.mem_append_left _ withdrawn, fun _ => rfl⟩

theorem Unclosed.start {request : Request} (unclosed : traffic.Unclosed past)
    (noClose : request ≠ .close) :
    (traffic.start request).2.Unclosed (past ++ (traffic.start request).1) := by
  obtain ⟨tasks, pause, new⟩ := start_setsOut request traffic
  have first : .called traffic.calls request ∈ (traffic.start request).1 := by simp [Traffic.start]
  have other : pause ≠ .closing := by
    rintro rfl
    have begun := new.errand.closing_eq.1
    simp [begun, noClose] at first
  have closings := new.closings
  rw [if_neg other, unclosed.closings] at closings
  refine ⟨by simpa using closings, ?_⟩
  intro call made
  rw [new.calls] at made
  rcases Nat.lt_succ_iff_lt_or_eq.mp made with old | rfl
  · exact (unclosed.numbers call old).imp fun request member => List.mem_append_left _ member
  · exact ⟨request, List.mem_append_right _ first⟩

theorem Unclosed.act {act : Act} (unclosed : traffic.Unclosed past) (noClose : act ≠ .call .close) :
    (traffic.act act).2.Unclosed (past ++ (traffic.act act).1) := by
  cases act with
  | call request => exact unclosed.start fun same => noClose (same ▸ rfl)
  | run place =>
    obtain ⟨closings, calls⟩ := runTask_rest place traffic
    rw [unclosed.closings] at closings
    refine ⟨by simpa [Traffic.act] using closings, ?_⟩
    intro call made
    rw [Traffic.act, calls] at made
    exact (unclosed.numbers call made).imp fun request member => List.mem_append_left _ member
  | pursue place =>
    have idle : traffic.pursue place = ([], traffic) := by simp [pursue, unclosed.closings]
    rw [Traffic.act, idle, List.append_nil]
    exact unclosed

theorem Unclosed.acts {acts : List Act} (unclosed : traffic.Unclosed past)
    (noClose : .call .close ∉ acts) :
    (traffic.acts acts).2.Unclosed (past ++ (traffic.acts acts).1) := by
  induction acts generalizing traffic past with
  | nil => simpa [Traffic.acts] using unclosed
  | cons act rest ih =>
    rw [List.mem_cons, not_or] at noClose
    have next := ih (unclosed.act (Ne.symm noClose.1)) noClose.2
    rwa [List.append_assoc] at next

/-- In traffic on a fresh service that nobody closes, after whatever calls and sections in whatever
order, everyone who asks for the end of a scan is answered once, and one of them at most is told
that it has ended the scan, after it has. Ids are 32-bit words, so fewer creations are assumed than
there are ids. -/
theorem acts_endsReported (workers : Nat) (engine : σ) (acts : List Act) (id : ScanId)
    (few : acts.countP Act.creates < 2 ^ 32) (noClose : .call .close ∉ acts) :
    let run := Traffic.acts acts { service := { workers, engine } }
    run.2.EndsReported id run.1 := by
  have room : 0 + acts.countP Act.creates < 2 ^ 32 := by simpa using few
  have noGrant : Deferral [] := fun _ _ _ _ _ split => absurd split (by simp)
  have nothing : ToldAfter [] := fun _ _ _ _ split => absurd split (by simp)
  have fresh : Regular [] 0 ({ service := { workers, engine } } : Traffic σ ι) :=
    regular_fresh workers engine
  obtain ⟨regular, deferral⟩ :=
    acts_keep (fun regular moves => regular.deferral moves) acts fresh room noGrant
  obtain ⟨-, toldAfter⟩ :=
    acts_keep (fun regular moves => regular.toldAfter moves) acts fresh room nothing
  have unclosed : Unclosed [] ({ service := { workers, engine } } : Traffic σ ι) :=
    ⟨rfl, fun _ made => absurd made (Nat.not_lt_zero _)⟩
  exact regular.endsReported deferral toldAfter (unclosed.acts noClose) id

/-- An end that is granted while an advance is under way is reported to the one who asked for it to
be told later, and to no one else. -/
theorem acts_endsReported_of_deferred :
    let acts : List Act :=
      [.call (.create {}), .call (.scan .held 1 (.advance .pooled)), .call (.scan .held 1 .endLater),
        .call (.scan .roster 1 .endNow), .run 0, .run 0, .run 0, .run 0, .run 0, .run 0, .run 0]
    acts.countP Act.creates < 2 ^ 32 ∧ Act.call .close ∉ acts ∧
      let run := Traffic.acts acts { service := { workers := 4, engine := MemoryEngine.empty } }
      run.2.EndsReported 1 run.1 ∧ ToldEnd run.1 2 1 ∧ ¬ToldEnd run.1 3 1 := by
  intro acts
  have reported := acts_endsReported 4 MemoryEngine.empty acts 1 (by decide) (by decide)
  refine ⟨by decide, by decide, reported, ⟨.inr ⟨.held, by decide⟩, by decide⟩, ?_⟩
  rintro ⟨-, told⟩
  exact absurd told (by decide)

end Traffic
end KeyScan
