import KeyScan.Proofs.Service.Views
import KeyScan.Proofs.Traffic.Accounts
import KeyScan.Proofs.Traffic.Interchange

namespace KeyScan

/-- What can be done from outside to an engine in memory that others read: it takes a write, or it stays
as it is but for the snapshots in use. -/
def Turn.Writes : Turn MemoryEngine → Prop
  | .act _ => True
  | .outside change =>
    (∃ write : MemoryEngine.Write, change = fun engine => engine.apply write) ∨
      ∀ engine : MemoryEngine, engine.Agrees (change engine)

def Turn.view? (turn : Turn MemoryEngine) (traffic : Traffic MemoryEngine TableWalker) :
    Option (ScanId × View) :=
  match turn with
  | .act (.call (.create options)) =>
    match (traffic.service.create options).1, Window.ofOptions options with
    | .ok id, .ok window => some (id, ⟨window, traffic.service.engine.live⟩)
    | _, _ => none
  | _ => none

/-- The scan and the target of a seek that succeeded. -/
def arrival? : Request × Reply → Option (ScanId × Bytes)
  | (.scan _ id (.seek target), .ready) => some (id, target)
  | _ => none

/-- The seeks that succeeded, by the replies to what was asked. -/
def arrivalsTo (asked : Nat → Option Request) (events : List Event) : List (ScanId × Bytes) :=
  (repliesTo asked events).filterMap arrival?

def arrivals (events : List Event) : List (ScanId × Bytes) := arrivalsTo (requestOf? events) events

/-- How many of some seeks are of a kind, given what their scans were opened on. -/
def countSeeks (kind : View → Bytes → Bool) (views : List (ScanId × View))
    (seeks : List (ScanId × Bytes)) : Nat :=
  seeks.countP fun seek => (views.lookup seek.1).any fun view => kind view seek.2

private theorem countSeeks_parks (views : List (ScanId × View)) (seeks : List (ScanId × Bytes)) :
    countSeeks View.parks views seeks =
      countSeeks View.outside views seeks + countSeeks View.overrun views seeks := by
  unfold countSeeks
  induction seeks with
  | nil => rfl
  | cons seek rest ih =>
    have own : ((views.lookup seek.1).any fun view => view.parks seek.2).toNat =
        ((views.lookup seek.1).any fun view => view.outside seek.2).toNat +
          ((views.lookup seek.1).any fun view => view.overrun seek.2).toNat := by
      cases views.lookup seek.1 with
      | none => rfl
      | some view => exact view.toNat_parks seek.2
    simp only [countP_cons_toNat, ih, own]
    omega

private theorem arrivalsTo_append (asked : Nat → Option Request) (first second : List Event) :
    arrivalsTo asked (first ++ second) = arrivalsTo asked first ++ arrivalsTo asked second := by
  simp only [arrivalsTo, repliesTo, List.filterMap_append]

private theorem answered_of_repliesTo {asked : Nat → Option Request} {events : List Event}
    {item : Request × Reply} (member : item ∈ repliesTo asked events) :
    ∃ call, .answered call item.2 ∈ events := by
  obtain ⟨event, there, said⟩ := List.mem_filterMap.mp member
  cases event with
  | answered call reply =>
    obtain ⟨request, -, rfl⟩ := Option.map_eq_some_iff.mp said
    exact ⟨call, there⟩
  | _ => cases said

private theorem arrivalsTo_of_silent {asked : Nat → Option Request} {events : List Event}
    (silent : ∀ call, .answered call .ready ∉ events) : arrivalsTo asked events = [] := by
  refine List.filterMap_eq_nil_iff.mpr fun item member => ?_
  obtain ⟨call, there⟩ := answered_of_repliesTo member
  unfold arrival?
  split
  · exact absurd there (silent call)
  · rfl

private theorem Request.ready_of_occurrence {request : Request} {reply : Reply} {parked : Bool}
    (shows : request.occurrence? reply = some (.sought parked)) : reply = .ready := by
  cases reply with
  | ready => rfl
  | page page =>
    obtain ⟨mode, -, other⟩ := Option.map_eq_some_iff.mp shows
    cases other
  | failed failure =>
    simp only [occurrence?] at shows
    split at shows
    · cases failure <;> cases shows
    · cases shows
  | _ => cases shows

private theorem Tally.parked_recordAll {occurrences : List Occurrence}
    (others : ∀ parked, .sought parked ∉ occurrences) (tally : Tally) :
    (tally.recordAll occurrences).parked = tally.parked := by
  induction occurrences generalizing tally with
  | nil => rfl
  | cons first rest ih =>
    have later := ih (fun parked member => others parked (List.mem_cons_of_mem _ member))
      (tally.record first)
    refine later.trans ?_
    cases first with
    | sought parked => exact absurd List.mem_cons_self (others parked)
    | _ => rfl

namespace Traffic

/-- The scans that turns open, each with what it is opened on. -/
def views : List (Turn MemoryEngine) → Traffic MemoryEngine TableWalker → List (ScanId × View)
  | [], _ => []
  | next :: rest, traffic => (next.view? traffic).toList ++ views rest (traffic.turn next).2

section Seeks

variable {σ ι : Type} [Engine σ ι] {traffic : Traffic σ ι} {past : List Event}
  {asked : Nat → Option Request} {act : Act} {call : Nat}

private theorem startAction_ready {action : Action} {id : ScanId} {number : Nat}
    (ready : .answered call .ready ∈ (traffic.startAction action id number).1) :
    ∃ target after, action = .seek target ∧ traffic.service.seek target id = (.ok (), after) ∧
      traffic.startAction action id number =
        ([.answered number .ready], { traffic with service := after }) := by
  cases action with
  | seek target =>
    unfold startAction at ready ⊢
    rcases sought : traffic.service.seek target id with ⟨failure | _, after⟩
    · simp [sought, answer] at ready
    · exact ⟨target, after, rfl, sought, by simp only [sought, answer]⟩
  | advance mode | endNow | endLater =>
    unfold startAction at ready
    simp only at ready
    split at ready <;> simp [answer] at ready

private theorem startRequest_ready {request : Request} {number : Nat}
    (ready : .answered call .ready ∈ (traffic.startRequest request number).1) :
    ∃ route id target after, request = .scan route id (.seek target) ∧
      traffic.service.seek target id = (.ok (), after) ∧
      traffic.startRequest request number =
        ([.answered number .ready], { traffic with service := after }) := by
  cases request with
  | create options =>
    simp only [startRequest] at ready
    split at ready <;> simp [answer] at ready
  | scan route id action =>
    cases route with
    | held =>
      obtain ⟨target, after, rfl, sought, started⟩ := startAction_ready ready
      exact ⟨.held, id, target, after, rfl, sought, started⟩
    | roster =>
      cases found : traffic.service.lookUp id with
      | ok _ =>
        simp only [startRequest, found] at ready ⊢
        obtain ⟨target, after, rfl, sought, started⟩ := startAction_ready ready
        exact ⟨.roster, id, target, after, rfl, sought, started⟩
      | error failure =>
        simp only [startRequest, found, answer] at ready
        unfold turnedAway at ready
        split at ready <;> simp at ready
  | close =>
    simp only [startRequest] at ready
    split at ready <;> simp [answer] at ready

theorem Sound.act_ready (sound : traffic.Sound past)
    (ready : .answered call .ready ∈ (traffic.act act).1) :
    ∃ route id target after, act = .call (.scan route id (.seek target)) ∧
      traffic.service.seek target id = (.ok (), after) ∧
      traffic.act act =
        ([.called traffic.calls (.scan route id (.seek target)), .answered traffic.calls .ready],
          { traffic with service := after, calls := traffic.calls + 1 }) := by
  cases act with
  | call request =>
    simp only [Traffic.act, start, List.mem_cons] at ready ⊢
    obtain ⟨route, id, target, after, rfl, sought, started⟩ :=
      startRequest_ready (ready.resolve_left (by simp))
    exact ⟨route, id, target, after, rfl, sought, by rw [started]⟩
  | run place =>
    cases found : traffic.tasks[place]? with
    | none => simp [Traffic.act, runTask, found] at ready
    | some task =>
      obtain ⟨events, -, -⟩ := runTask_of_task found
      rw [Traffic.act, events] at ready
      exact absurd ((sound.run_carries (List.mem_of_getElem? found)).2 call .ready ready) id
  | pursue place =>
    simp only [Traffic.act, pursue] at ready
    split at ready
    · simp at ready
    · split at ready
      · simp only [ask] at ready
        split at ready <;> simp at ready
      · simp at ready
      · simp at ready

/-- Where no seek is answered as one that succeeded, none is counted as parked. -/
theorem Sound.act_parked (sound : traffic.Sound past)
    (room : (createdIds (past ++ (traffic.act act).1)).length < 2 ^ 32)
    (known : ∀ call request, .called call request ∈ past ++ (traffic.act act).1 →
      asked call = some request)
    (silent : ∀ call, .answered call .ready ∉ (traffic.act act).1) :
    (traffic.act act).2.service.tally.parked = traffic.service.tally.parked := by
  obtain ⟨occurrences, tally, balance⟩ := sound.act_books known
  rw [tally]
  refine Tally.parked_recordAll (fun parked member => ?_) _
  have plain : .sought false ∈ occurrences.map Occurrence.plain := List.mem_map.mpr ⟨_, member, rfl⟩
  have counted := balance.subset (List.mem_append_left _ (List.mem_append_left _ plain))
  rw [List.mem_append, List.mem_append] at counted
  rcases counted with (shows | owed) | carried
  · rcases List.mem_append.mp shows with seen | granted
    · obtain ⟨⟨request, reply⟩, there, said⟩ := List.mem_filterMap.mp seen
      obtain ⟨call, happened⟩ := answered_of_repliesTo there
      exact silent call (Request.ready_of_occurrence said ▸ happened)
    · simp at granted
  · obtain ⟨⟨call, id, stage⟩, -, owes⟩ := List.mem_filterMap.mp owed
    cases stage <;> simp [Task.owed?] at owes
  · obtain ⟨task, there, holds⟩ := List.mem_filterMap.mp carried
    obtain ⟨reply, hand, said⟩ := Option.bind_eq_some_iff.mp holds
    obtain ⟨request, -, shows⟩ := Option.bind_eq_some_iff.mp said
    have carried := (turn_sound (.act act) sound room).carried task there reply hand
    rwa [Request.ready_of_occurrence shows] at carried

end Seeks

variable {traffic : Traffic MemoryEngine TableWalker} {past : List Event} {next : Turn MemoryEngine}
  {asked : Nat → Option Request} {views : List (ScanId × View)}

private theorem Sound.turn_view (sound : traffic.Sound past)
    (room : (createdIds (past ++ (traffic.turn next).1)).length < 2 ^ 32) :
    (next.view? traffic).toList.map Prod.fst = createdIds (traffic.turn next).1 := by
  cases next with
  | outside change => rfl
  | act act =>
    cases creates : act.creates with
    | false =>
      obtain ⟨-, silent⟩ := sound.act_other (few_of_append room) creates
      rw [Traffic.turn, silent]
      unfold Turn.view?
      split
      · rename_i same
        cases same
        cases creates
      · rfl
    | true =>
      unfold Act.creates at creates
      split at creates
      · rename_i options
        cases accepted : Window.ofOptions options with
        | error failure =>
          simp [Traffic.turn, Traffic.act, start_refused accepted, Turn.view?, accepted, Event.created?]
        | ok window =>
          obtain ⟨id, after, opened⟩ := Service.create_accepted traffic.service accepted
          simp [Traffic.turn, Traffic.act, start_created opened, Turn.view?, accepted, opened,
            Event.created?]
      · cases creates

/-- What a turn leaves to read of the snapshots in use. -/
theorem turn_writes (writes : next.Writes)
    (space : traffic.service.engine.sequence.toNat + next.isOutside.toNat < 2 ^ 64) :
    traffic.service.engine.Extends (traffic.turn next).2.service.engine ∧
      (traffic.turn next).2.service.engine.sequence.toNat ≤
        traffic.service.engine.sequence.toNat + next.isOutside.toNat := by
  cases next with
  | act act =>
    have agrees := act_agrees act traffic
    exact ⟨agrees.extends, Nat.le_of_eq (congrArg UInt64.toNat agrees.sequence)⟩
  | outside change =>
    have beside : Turn.Beside 0 (.outside change) := writes
    exact turn_extends beside space

/-- What is known of the seeks so far, given what the scans of the whole run are opened on: it says which
of them were counted as parked. -/
structure Attests (asked : Nat → Option Request) (views : List (ScanId × View)) (past : List Event)
    (service : Service MemoryEngine TableWalker) : Prop where
  recalls : service.Recalls views
  found : ∀ seek ∈ arrivalsTo asked past, ∃ view, views.lookup seek.1 = some view
  counted : service.tally.parked = UInt64.ofNat (countSeeks View.parks views (arrivalsTo asked past))

/-- A seek that succeeded is counted by what its scan was opened on. -/
theorem Attests.seek {events : List Event} {service after : Service MemoryEngine TableWalker} {id : ScanId}
    {target : Bytes} (attests : Attests asked views past service)
    (sought : service.seek target id = (.ok (), after))
    (said : arrivalsTo asked events = [(id, target)]) : Attests asked views (past ++ events) after := by
  have recalls := ((Service.recalls_kept views).sections id).seek service target attests.recalls
  obtain ⟨view, listed, counted⟩ := attests.recalls.seek sought
  refine ⟨?_, ?_, ?_⟩
  · rwa [sought] at recalls
  · intro seek member
    rw [arrivalsTo_append, said] at member
    rcases List.mem_append.mp member with early | late
    · exact attests.found seek early
    · rw [List.mem_singleton.mp late]
      exact ⟨view, listed⟩
  · rw [counted, attests.counted, arrivalsTo_append, said, ← UInt64.ofNat_add, countSeeks, countSeeks,
      List.countP_append, countP_cons_toNat]
    simp [listed]

theorem Attests.silent {events : List Event} {service after : Service MemoryEngine TableWalker}
    (attests : Attests asked views past service) (recalls : after.Recalls views)
    (same : after.tally.parked = service.tally.parked)
    (silent : ∀ call, .answered call .ready ∉ events) : Attests asked views (past ++ events) after := by
  have nothing := arrivalsTo_append asked past events
  rw [arrivalsTo_of_silent silent, List.append_nil] at nothing
  exact ⟨recalls, nothing ▸ attests.found, by rw [same, attests.counted, nothing]⟩

/-- Every turn tells of the seeks that it makes, if the scan that it opens is on the list. -/
theorem Attests.turn (attests : Attests asked views past traffic.service) (sound : traffic.Sound past)
    (room : (createdIds (past ++ (traffic.turn next).1)).length < 2 ^ 32) (writes : next.Writes)
    (space : traffic.service.engine.sequence.toNat + next.isOutside.toNat < 2 ^ 64)
    (known : ∀ call request, .called call request ∈ past ++ (traffic.turn next).1 →
      asked call = some request)
    (listed : ∀ id view, next.view? traffic = some (id, view) → views.lookup id = some view) :
    Attests asked views (past ++ (traffic.turn next).1) (traffic.turn next).2.service := by
  cases next with
  | outside change =>
    have extended := (turn_writes writes space).1
    exact attests.silent (attests.recalls.extends extended) rfl fun _ => nofun
  | act act =>
    by_cases ready : ∃ call, .answered call .ready ∈ (traffic.act act).1
    · obtain ⟨call, ready⟩ := ready
      obtain ⟨route, id, target, after, rfl, sought, acted⟩ := sound.act_ready ready
      rw [Traffic.turn, acted] at known ⊢
      have own : asked traffic.calls = some (.scan route id (.seek target)) :=
        known _ _ (List.mem_append_right _ List.mem_cons_self)
      exact attests.seek sought (by simp [arrivalsTo, repliesTo, own, arrival?])
    · rw [not_exists] at ready
      refine attests.silent ?_ (sound.act_parked room known ready) ready
      refine act_kept (Service.recalls_kept views) act attests.recalls ?_
      rintro options id after rfl opened
      obtain ⟨window, accepted, -⟩ := Service.create_ok opened
      exact attests.recalls.create opened accepted
        (listed id _ (by simp only [Turn.view?, opened, accepted]))

private theorem Sound.lookup_view {before later : List (ScanId × View)} {id : ScanId} {view : View}
    (sound : traffic.Sound past) (room : (createdIds (past ++ (traffic.turn next).1)).length < 2 ^ 32)
    (keyed : before.map Prod.fst = createdIds past) (opens : next.view? traffic = some (id, view)) :
    (before ++ (next.view? traffic).toList ++ later).lookup id = some view := by
  have given := sound.turn_view room
  have distinct := (turn_sound next sound room).catalogued.nodup
  rw [createdIds_append, ← given, ← keyed, opens] at distinct
  have missing : before.lookup id = none := by
    refine List.lookup_eq_none_iff.mpr fun entry member => ?_
    have apart := (List.nodup_append.mp distinct).2.2 entry.1 (List.mem_map_of_mem member) id
      List.mem_cons_self
    simpa using Ne.symm apart
  rw [List.append_assoc, List.lookup_append, missing, opens]
  simp

/-- Whatever turns come, it is known of the seeks which of them were counted as parked, given what the
scans of the whole run are opened on. -/
theorem turns_attest (turns : List (Turn MemoryEngine)) {before : List (ScanId × View)}
    (sound : traffic.Sound past)
    (few : (createdIds (past ++ (traffic.turns turns).1)).length < 2 ^ 32)
    (writes : ∀ turn ∈ turns, turn.Writes)
    (space : traffic.service.engine.sequence.toNat + turns.countP Turn.isOutside < 2 ^ 64)
    (known : ∀ call request, .called call request ∈ past ++ (traffic.turns turns).1 →
      asked call = some request)
    (keyed : before.map Prod.fst = createdIds past)
    (attests : Attests asked (before ++ traffic.views turns) past traffic.service) :
    (before ++ traffic.views turns).map Prod.fst = createdIds (past ++ (traffic.turns turns).1) ∧
      Attests asked (before ++ traffic.views turns) (past ++ (traffic.turns turns).1)
        (traffic.turns turns).2.service := by
  induction turns generalizing traffic past before with
  | nil =>
    simp only [Traffic.views, Traffic.turns, List.append_nil] at attests ⊢
    exact ⟨keyed, attests⟩
  | cons turn rest ih =>
    simp only [Traffic.views, Traffic.turns] at few known attests ⊢
    rw [← List.append_assoc] at few known attests ⊢
    rw [← List.append_assoc]
    rw [countP_cons_toNat] at space
    have room := few_of_append few
    have own := writes turn List.mem_cons_self
    have little : traffic.service.engine.sequence.toNat + turn.isOutside.toNat < 2 ^ 64 := by omega
    have grown := (turn_writes own little).2
    have onward := attests.turn sound room own little
      (fun call request called => known call request (List.mem_append_left _ called))
      fun id view opens => sound.lookup_view room keyed opens
    refine ih (turn_sound turn sound room) few
      (fun turn member => writes turn (List.mem_cons_of_mem _ member)) (by omega) known ?_ onward
    rw [List.map_append, keyed, sound.turn_view room, createdIds_append]

/-- On a fresh service over an engine in memory, after whatever calls and sections in whatever order and
whatever is written in between: a seek that succeeded is counted as parked if its target lies outside the
window of its scan, and also if it lies inside, but travel goes forward and the engine held keys when the
scan was created, of which all are smaller. No other seek is. Ids are 32-bit words and sequence numbers
64-bit words, so fewer scans and writes are assumed than there are; the count is a 64-bit word and wraps. -/
theorem turns_parked (workers : Nat) (engine : MemoryEngine) (turns : List (Turn MemoryEngine))
    (few : (createdIds (Traffic.turns turns { service := { workers, engine } }).1).length < 2 ^ 32)
    (writes : ∀ turn ∈ turns, turn.Writes)
    (space : engine.sequence.toNat + turns.countP Turn.isOutside < 2 ^ 64) :
    let start : Traffic MemoryEngine TableWalker := { service := { workers, engine } }
    let run := start.turns turns
    let views := start.views turns
    let seeks := arrivals run.1
    views.map Prod.fst = createdIds run.1 ∧
      (∀ seek ∈ seeks, ∃ view, views.lookup seek.1 = some view) ∧
      run.2.service.tally.parked.toNat =
        (countSeeks View.outside views seeks + countSeeks View.overrun views seeks) % 2 ^ 64 := by
  intro start run views seeks
  have sound : start.Sound [] := sound_fresh workers engine
  have after : run.2.Sound run.1 := turns_sound turns sound few
  have blank : Attests (requestOf? run.1) views [] start.service :=
    ⟨fun _ _ known => (nomatch known), fun _ member => (nomatch member), rfl⟩
  have unopened : ([] : List (ScanId × View)).map Prod.fst = createdIds [] := rfl
  obtain ⟨keyed, -, found, counted⟩ := turns_attest turns sound few writes space
    (fun call request called => after.regular.ledger.requestOf?_eq called) unopened blank
  refine ⟨keyed, found, ?_⟩
  rw [← countSeeks_parks]
  exact (congrArg UInt64.toNat counted).trans (UInt64.toNat_ofNat' ..)

/-- One target lies outside, and one lies inside beyond the only key. A seek in a scan of nothing is not
counted, nor is one backward before the first key or one to a key that is there. -/
theorem turns_parked_each_way :
    let turns : List (Turn MemoryEngine) :=
      [.act (.call (.create {})), .outside fun engine => engine.apply ⟨[1], some [7]⟩,
        .act (.call (.create { lt := some [9] })), .act (.call (.create { reverse := true })),
        .act (.call (.scan .roster 1 (.seek [5]))), .act (.call (.scan .roster 2 (.seek [9]))),
        .act (.call (.scan .held 2 (.seek [5]))), .act (.call (.scan .roster 3 (.seek [0]))),
        .act (.call (.scan .roster 2 (.seek [1])))]
    let start : Traffic MemoryEngine TableWalker := { service := { workers := 4, engine := .empty } }
    let run := start.turns turns
    let views := start.views turns
    let seeks := arrivals run.1
    (createdIds run.1).length < 2 ^ 32 ∧
      MemoryEngine.empty.sequence.toNat + turns.countP Turn.isOutside < 2 ^ 64 ∧
      seeks = [(1, [5]), (2, [9]), (2, [5]), (3, [0]), (2, [1])] ∧
      countSeeks View.outside views seeks = 1 ∧ countSeeks View.overrun views seeks = 1 ∧
      run.2.service.tally.parked = 2 ∧
      views.map Prod.fst = createdIds run.1 ∧
      (∀ seek ∈ seeks, ∃ view, views.lookup seek.1 = some view) ∧
      run.2.service.tally.parked.toNat =
        (countSeeks View.outside views seeks + countSeeks View.overrun views seeks) % 2 ^ 64 := by
  intro turns start run views seeks
  have few : (createdIds run.1).length < 2 ^ 32 := by decide
  have writes : ∀ turn ∈ turns, turn.Writes := by
    simp only [turns, List.forall_mem_cons, List.not_mem_nil, false_implies, implies_true, and_true]
    exact ⟨trivial, .inl ⟨_, rfl⟩, trivial, trivial, trivial, trivial, trivial, trivial, trivial⟩
  exact ⟨few, by decide, by decide, by decide, by decide, by decide,
    turns_parked 4 .empty turns few writes (by decide)⟩

/-- A seek to a target that lies inside the window of its scan, for the window has no bounds, is counted as
parked. -/
theorem turns_parked_inside_window :
    let engine := MemoryEngine.ofWrites [⟨[97], some [118, 97]⟩]
    let turns : List (Turn MemoryEngine) :=
      [.act (.call (.create {})), .act (.call (.scan .roster 1 (.seek [122])))]
    let start : Traffic MemoryEngine TableWalker := { service := { workers := 4, engine } }
    let run := start.turns turns
    let views := start.views turns
    arrivals run.1 = [(1, [122])] ∧
      views = [(1, ⟨⟨.forward, none, none, none, none, -1, true, true⟩, [([97], [118, 97])]⟩)] ∧
      countSeeks View.outside views (arrivals run.1) = 0 ∧ run.2.service.tally.parked = 1 := by
  decide

end Traffic
end KeyScan
