import KeyScan.Proofs.Traffic.Dispatch
import KeyScan.Proofs.Traffic.Record

/-! Closing a service. A close finds the live scans and asks each of them for its end; whatever they are
doing meanwhile, and whoever else ends them, by the time that the close is answered all of them have
ended and every snapshot has been given back. -/
namespace KeyScan

def Turn.creates {σ : Type} : Turn σ → Bool
  | .act next => next.creates
  | .outside _ => false

/-- A turn that takes and gives back no snapshots but those of the service. -/
def Turn.Spares {σ ι : Type} [Engine σ ι] (census : Census σ) : Turn σ → Prop
  | .act _ => True
  | .outside change => ∀ engine held, census.Holds engine held → census.Holds (change engine) held

namespace Traffic

variable {σ ι : Type} {traffic after : Traffic σ ι} {past events : List Event} {number : Nat}
  {id : ScanId} {ids : List ScanId} {closing : Closing}

/-- How a close stands with a scan: it has still to ask for its end, it waits for the end, or the end
was concluded. -/
def Covers (closing : Closing) (id : ScanId) (past : List Event) (traffic : Traffic σ ι) : Prop :=
  id ∈ closing.left ∨ (∃ waiter ∈ closing.owed, waiter ∈ traffic.service.waiting id) ∨
    .concluded ∈ milestones id past

/-- A close of some scans, in progress or over. -/
def Pursued (number : Nat) (ids : List ScanId) (past : List Event) (traffic : Traffic σ ι) : Prop :=
  (∃ closing ∈ traffic.closings, closing.call = number ∧ ∀ id ∈ ids, traffic.Covers closing id past) ∨
    ∀ id ∈ ids, .concluded ∈ milestones id past

private theorem Covers.mono {other : Closing} (covers : traffic.Covers closing id past)
    (left : closing.left = other.left) (owed : ∀ waiter ∈ closing.owed, waiter ∈ other.owed)
    (waiting : ∀ waiter ∈ traffic.service.waiting id, waiter ∈ after.service.waiting id) :
    after.Covers other id (past ++ events) := by
  rcases covers with asks | ⟨waiter, owes, waits⟩ | finished
  · exact .inl (left ▸ asks)
  · exact .inr (.inl ⟨waiter, owed waiter owes, waiting waiter waits⟩)
  · exact .inr (.inr (by rw [milestones_append]; exact List.mem_append_left _ finished))

private theorem Sound.ended_iff (sound : traffic.Sound past) (id : ScanId) :
    traffic.service.phase? id = some .ended ↔ .concluded ∈ milestones id past := by
  rw [Service.phase?_eq_condition]
  exact (sound.regular.orderly id).life.concluded_iff.symm

/-- A close asks for one end: the scan is waited for from now on, or has ended. -/
theorem ask_covers (sound : traffic.Sound past) (known : id ∈ createdIds past) (closing : Closing) :
    (traffic.ask closing id).2.2.Covers (traffic.ask closing id).2.1 id
      (past ++ (traffic.ask closing id).1) := by
  simp only [ask]
  split
  all_goals
    rename_i asked
    have waits := Service.requestOrJoinEnd_waiting asked id
  · refine .inr (.inl ⟨traffic.calls, List.mem_append_right _ (List.mem_singleton_self _), ?_⟩)
    simp [addTask, waits]
  · refine .inr (.inl ⟨traffic.calls, List.mem_append_right _ (List.mem_singleton_self _), ?_⟩)
    simp [waits]
  · refine .inr (.inl ⟨traffic.calls, List.mem_append_right _ (List.mem_singleton_self _), ?_⟩)
    simp [waits]
  · refine .inr (.inr ?_)
    rw [milestones_append]
    refine List.mem_append_left _ ((sound.ended_iff id).mp ?_)
    refine (Service.requestOrJoinEnd_over asked).resolve_left ?_
    exact (sound.catalogued.scan?_eq_none_iff id).not.mpr (not_not_intro known)

theorem ask_rest (closing : Closing) (id : ScanId) (traffic : Traffic σ ι) :
    (traffic.ask closing id).2.1.call = closing.call ∧
      (traffic.ask closing id).2.1.left = closing.left ∧
      (∀ waiter ∈ closing.owed, waiter ∈ (traffic.ask closing id).2.1.owed) ∧
      (traffic.ask closing id).2.2.closings = traffic.closings ∧
      ∀ other, ∀ waiter ∈ traffic.service.waiting other,
        waiter ∈ (traffic.ask closing id).2.2.service.waiting other := by
  simp only [ask]
  split
  all_goals
    rename_i asked
    have waits := Service.requestOrJoinEnd_waiting asked
    refine ⟨rfl, rfl, ?_, rfl, ?_⟩
  all_goals
    intros
    simp_all [addTask]

private theorem ask_keeps_covers {current : Closing} {next : ScanId} {left : List ScanId}
    (sound : traffic.Sound past) (known : id ∈ createdIds past) (asks : current.left = next :: left)
    (covers : traffic.Covers current id past) :
    (traffic.ask { current with left } next).2.2.Covers
      (traffic.ask { current with left } next).2.1 id
      (past ++ (traffic.ask { current with left } next).1) := by
  by_cases own : id = next
  · subst own
    exact ask_covers sound known _
  · obtain ⟨-, still, owed, -, waiting⟩ := ask_rest { current with left } next traffic
    have rest : traffic.Covers { current with left } id past := by
      refine covers.imp_left fun asked => ?_
      rw [asks] at asked
      exact (List.mem_cons.mp asked).resolve_left own
    exact rest.mono still.symm owed (waiting id)

/-- A step of a close keeps it to its scans, and leaves the other closes to theirs. -/
theorem pursue_pursued (sound : traffic.Sound past) (known : ∀ id ∈ ids, id ∈ createdIds past)
    (pursued : traffic.Pursued number ids past) (place : Nat) :
    (traffic.pursue place).2.Pursued number ids (past ++ (traffic.pursue place).1) := by
  rcases pursued with ⟨closing, member, own, covers⟩ | finished
  swap
  · refine .inr fun id given => ?_
    rw [milestones_append]
    exact List.mem_append_left _ (finished id given)
  obtain ⟨spot, found⟩ := List.mem_iff_getElem?.mp member
  unfold pursue
  split
  · rw [List.append_nil]
    exact .inl ⟨closing, member, own, covers⟩
  · rename_i current here
    split
    · rename_i next left asks
      obtain ⟨same, still, owed, closings, waiting⟩ := ask_rest { current with left } next traffic
      refine .inl ?_
      by_cases turn : spot = place
      · obtain rfl : current = closing := Option.some.inj (here.symm.trans (turn ▸ found))
        refine ⟨_, ?_, same.trans own, fun id given => ?_⟩
        · exact List.mem_set (closings ▸ (List.getElem?_eq_some_iff.mp here).1) _
        · exact ask_keeps_covers sound (known id given) asks (covers id given)
      · refine ⟨closing, ?_, own, fun id given => ?_⟩
        · refine List.mem_of_getElem? (i := spot) ?_
          rw [List.getElem?_set_ne (Ne.symm turn), closings]
          exact found
        · exact (covers id given).mono rfl (fun _ owes => owes) (waiting id)
    · rename_i nothing done
      by_cases turn : spot = place
      · obtain rfl : current = closing := Option.some.inj (here.symm.trans (turn ▸ found))
        refine .inr fun id given => ?_
        rcases covers id given with asks | ⟨waiter, owes, -⟩ | finished
        · rw [nothing] at asks
          cases asks
        · rw [done] at owes
          cases owes
        · rw [milestones_append]
          exact List.mem_append_left _ finished
      · refine .inl ⟨closing, ?_, own, fun id given => ?_⟩
        · exact List.mem_eraseIdx_iff_getElem?.mpr ⟨spot, turn, found⟩
        · exact (covers id given).mono rfl (fun _ owes => owes) fun _ waits => waits
    · rw [List.append_nil]
      exact .inl ⟨closing, member, own, covers⟩

/-- The start of a call leaves the closes in progress as they are. Only a close begins one, and it has
the live scans to ask. -/
theorem start_closings [Engine σ ι] (request : Request) (traffic : Traffic σ ι) :
    ∃ more, (traffic.start request).2.closings = traffic.closings ++ more ∧
      (request ≠ .close → more = []) ∧
      ∀ closing ∈ more, closing.left = traffic.service.roster.live := by
  have unmoved {closings : List Closing} (same : closings = traffic.closings) :
      ∃ more, closings = traffic.closings ++ more ∧ (request ≠ .close → more = []) ∧
        ∀ closing ∈ more, closing.left = traffic.service.roster.live :=
    ⟨[], by rw [same, List.append_nil], fun _ => rfl, fun _ member => nomatch member⟩
  have startAction (action : Action) (id : ScanId) (call : Nat) :
      ({ traffic with calls := traffic.calls + 1 }.startAction action id call).2.closings =
        traffic.closings := by
    unfold Traffic.startAction
    split <;> split <;> rfl
  simp only [start, startRequest]
  split
  · split <;> exact unmoved rfl
  · exact unmoved (startAction _ _ _)
  · split
    · exact unmoved (startAction _ _ _)
    · exact unmoved rfl
  · split
    · exact unmoved rfl
    · exact ⟨_, rfl, fun other => absurd rfl other, by simp⟩

variable [Engine σ ι]

theorem runTask_closings (place : Nat) (traffic : Traffic σ ι) :
    (traffic.runTask place).2.closings = traffic.closings.map fun closing =>
      { closing with
        owed := closing.owed.filter fun call =>
          !(answeredCalls (traffic.runTask place).1).contains call } := by
  unfold runTask
  split
  · simp [answeredCalls]
  · rfl

/-- A section of a task keeps every close to its scans: whoever waits for an end waits on, or the end
was concluded. -/
theorem runTask_pursued (place : Nat)
    (sound : (traffic.runTask place).2.Sound (past ++ (traffic.runTask place).1))
    (pursued : traffic.Pursued number ids past) :
    (traffic.runTask place).2.Pursued number ids (past ++ (traffic.runTask place).1) := by
  have later {id : ScanId} (finished : .concluded ∈ milestones id past) :
      .concluded ∈ milestones id (past ++ (traffic.runTask place).1) := by
    rw [milestones_append]
    exact List.mem_append_left _ finished
  rcases pursued with ⟨closing, member, own, covers⟩ | finished
  · let heard : Closing :=
      { closing with
        owed := closing.owed.filter fun call =>
          !(answeredCalls (traffic.runTask place).1).contains call }
    have here : heard ∈ (traffic.runTask place).2.closings := by
      rw [runTask_closings]
      exact List.mem_map.mpr ⟨closing, member, rfl⟩
    refine .inl ⟨heard, here, own, fun id given => ?_⟩
    rcases covers id given with asks | ⟨waiter, owes, waits⟩ | finished
    · exact .inl asks
    · rcases (runTask_moves place traffic).waiting waits with still | ⟨concluded, -⟩
      · refine .inr (.inl ⟨waiter, List.mem_filter.mpr ⟨owes, ?_⟩, still⟩)
        rw [Bool.not_eq_true', Bool.eq_false_iff, Ne, List.contains_iff_mem]
        intro answered
        obtain ⟨event, happened, same⟩ := List.mem_filterMap.mp answered
        cases event <;> cases same
        exact sound.regular.ledger.unanswered_of_waiting still (List.mem_append_right _ happened)
      · refine .inr (.inr ?_)
        rw [milestones_append]
        exact List.mem_append_right _ concluded
    · exact .inr (.inr (later finished))
  · exact .inr fun id given => later (finished id given)

theorem turn_pursued (turn : Turn σ) (sound : traffic.Sound past)
    (room : (createdIds (past ++ (traffic.turn turn).1)).length < 2 ^ 32)
    (known : ∀ id ∈ ids, id ∈ createdIds past) (pursued : traffic.Pursued number ids past) :
    (traffic.turn turn).2.Pursued number ids (past ++ (traffic.turn turn).1) := by
  cases turn with
  | outside change =>
    rw [Traffic.turn, List.append_nil]
    exact pursued
  | act act =>
    cases act with
    | run place => exact runTask_pursued place (turn_sound (.act (.run place)) sound room) pursued
    | pursue place => exact pursue_pursued sound known pursued place
    | call request =>
      obtain ⟨more, closings, -⟩ := start_closings request traffic
      obtain ⟨tasks, pause, new⟩ := start_setsOut request traffic
      rcases pursued with ⟨closing, member, own, covers⟩ | finished
      · refine .inl ⟨closing, ?_, own, fun id given => ?_⟩
        · exact closings ▸ List.mem_append_left _ member
        · refine (covers id given).mono rfl (fun _ owes => owes) fun waiter waits => ?_
          exact new.waiting id ▸ List.mem_append_left _ waits
      · refine .inr fun id given => ?_
        rw [milestones_append]
        exact List.mem_append_left _ (finished id given)

private theorem start_close_pursued (past : List Event) (traffic : Traffic σ ι) :
    (traffic.start .close).2.Pursued traffic.calls traffic.service.roster.live
      (past ++ (traffic.start .close).1) := by
  simp only [start, startRequest]
  split
  · rename_i none
    refine .inr fun id live => ?_
    rw [Roster.isEmpty, List.isEmpty_iff] at none
    rw [none] at live
    cases live
  · exact .inl ⟨_, List.mem_append_right _ (List.mem_singleton_self _), rfl, fun id live => .inl live⟩

omit [Engine σ ι] in
/-- By the time that a close was answered, the scans that it found have ended. -/
theorem Sound.concluded_of_closed (sound : traffic.Sound past)
    (pursued : traffic.Pursued number ids past) (closed : .answered number .closed ∈ past) :
    ∀ id ∈ ids, .concluded ∈ milestones id past := by
  rcases pursued with ⟨closing, member, rfl, -⟩ | finished
  · exact absurd closed (sound.regular.ledger.unanswered_of_closing member)
  · exact finished

/-- A scan whose end was granted turns every action away. -/
theorem startAction_denied {scan : Scan ι} (found : traffic.service.scan? id = some scan)
    (ending : scan.admission.isEnding = true) (action : Action) (call : Nat) :
    (traffic.startAction action id call).1 = [.answered call action.denied] := by
  have phase : scan.admission.phase = .ending ∨ scan.admission.phase = .ended := by
    unfold Admission.isEnding at ending
    split at ending <;> simp_all
  cases action <;> rcases phase with phase | phase <;>
    simp [startAction, Service.seek, Service.beginAdvance, Service.requestEnd, found,
      Admission.checkSeek, Admission.begin, Admission.requestEnd, phase, answer, Action.denied]

omit [Engine σ ι] in
private theorem Sound.ending_of_withdrawn (sound : traffic.Sound past)
    (withdrawn : .withdrawn ∈ milestones id past) :
    ∃ scan, traffic.service.scan? id = some scan ∧ scan.admission.isEnding = true ∧
      scan.reader.isReleased = true ∧ (milestones id past).count .released = 1 := by
  obtain ⟨⟨phase, released, live⟩, known⟩ :=
    Option.ne_none_iff_exists'.mp (sound.created_iff.mp (sound.created_of_milestone withdrawn))
  obtain ⟨scan, found, rfl, rfl, rfl⟩ := Service.scan_of_condition known
  have life := (sound.regular.orderly id).life
  rw [known] at life
  obtain ⟨gone, once⟩ := life.released_of_withdrawn withdrawn
  refine ⟨scan, found, ?_, gone, once⟩
  unfold Admission.isEnding
  rcases life.granted_of_withdrawn withdrawn with phase | phase
  all_goals
    have phase := Option.some.inj phase
    simp only at phase
    rw [phase]

/-- What a closed service looks like, given the scans that the close found and the events so far. -/
structure Closed (ids : List ScanId) (past : List Event) (traffic : Traffic σ ι) : Prop where
  ended : ∀ id ∈ ids, traffic.service.phase? id = some .ended
  gone : traffic.service.roster.live = []
  /-- every scan was released once, and no reader holds a snapshot -/
  released : ∀ id ∈ createdIds past, (milestones id past).count .released = 1
  pins : traffic.service.pins = []
  /-- whatever comes later, every action on one of the scans is turned away -/
  afterwards : ∀ later : List (Turn σ),
    (createdIds (past ++ (traffic.turns later).1)).length < 2 ^ 32 →
      ∀ id ∈ createdIds past, ∀ action, let after := (traffic.turns later).2
        after.AnswersAtOnce (.scan .roster id action) action.denied ∧
          (after.start (.scan .held id action)).1 =
            [.called after.calls (.scan .held id action), .answered after.calls action.denied]
  /-- a further close is answered at once, and nothing else happens -/
  again : traffic.AnswersAtOnce .close .closed

theorem Sound.closed (sound : traffic.Sound past)
    (ended : ∀ id ∈ ids, traffic.service.phase? id = some .ended)
    (withdrawn : ∀ id ∈ createdIds past, .withdrawn ∈ milestones id past) :
    traffic.Closed ids past := by
  have gone : traffic.service.roster.live = [] := by
    rw [sound.live_eq, List.filter_eq_nil_iff]
    exact fun id created => by simpa using withdrawn id created
  refine ⟨ended, gone, fun id created => ?_, ?_, ?_, ?_⟩
  · obtain ⟨_, -, -, -, once⟩ := sound.ending_of_withdrawn (withdrawn id created)
    exact once
  · refine List.filterMap_eq_nil_iff.mpr fun entry member => ?_
    have created : entry.1 ∈ createdIds past := by
      rw [← sound.catalogued.keyed]
      exact List.mem_map_of_mem member
    obtain ⟨scan, found, -, released, -⟩ := sound.ending_of_withdrawn (withdrawn entry.1 created)
    have distinct : (traffic.service.scans.map Prod.fst).Nodup := by
      rw [sound.catalogued.keyed]
      exact sound.catalogued.nodup
    have own := Service.scan?_of_mem distinct member
    obtain rfl : entry.2 = scan := Option.some.inj (own.symm.trans found)
    have pinned := sound.pinned entry.1 entry.2 found
    rw [Reader.Pinned, released] at pinned
    simpa using pinned
  · intro later few id created action
    have kept := turns_sound later sound few
    have still : .withdrawn ∈ milestones id (past ++ (traffic.turns later).1) := by
      rw [milestones_append]
      exact List.mem_append_left _ (withdrawn id created)
    refine ⟨(kept.dispatches.ended id still).2.2 action, ?_⟩
    obtain ⟨scan, found, ending, -⟩ := kept.ending_of_withdrawn still
    simp only [start, startRequest]
    refine congrArg _ (startAction_denied ?_ ending action _)
    exact found
  · simp [AnswersAtOnce, start, startRequest, Roster.isEmpty, gone, answer]

theorem turn_balanced {census : Census σ} {others : List Sequence} {turn : Turn σ}
    (sound : traffic.Sound past) (room : (createdIds (past ++ (traffic.turn turn).1)).length < 2 ^ 32)
    (spares : turn.Spares census) (balanced : traffic.service.Balanced census others) :
    (traffic.turn turn).2.service.Balanced census others := by
  cases turn with
  | outside change => exact ⟨balanced.distinct, spares _ _ balanced.held⟩
  | act act =>
    refine act_kept (Service.balanced_kept census others) act balanced ?_
    rintro options id after rfl opened
    refine balanced.create opened ?_
    have new := start_created opened
    simp only [Traffic.turn, Traffic.act, new, createdIds_append, List.length_append] at room
    obtain ⟨_, -, rfl, -⟩ := Service.create_ok opened
    rw [sound.catalogued.keyed, ← sound.catalogued.scan?_eq_none_iff]
    exact sound.catalogued.numbered.fresh (by simpa [Event.created?] using room)

theorem turns_balanced {census : Census σ} {others : List Sequence} (turns : List (Turn σ))
    (sound : traffic.Sound past) (few : (createdIds (past ++ (traffic.turns turns).1)).length < 2 ^ 32)
    (spares : ∀ turn ∈ turns, turn.Spares census)
    (balanced : traffic.service.Balanced census others) :
    (traffic.turns turns).2.service.Balanced census others := by
  refine (turns_keep (fun _ traffic => traffic.service.Balanced census others) turns ?_ sound few
    balanced).2
  intro past traffic turn member sound room balanced
  exact turn_balanced sound room (spares turn member) balanced

private theorem turns_give_no_id (turns : List (Turn σ)) (still : ∀ turn ∈ turns, turn.creates = false)
    (sound : traffic.Sound past) (few : (createdIds (past ++ (traffic.turns turns).1)).length < 2 ^ 32) :
    createdIds (past ++ (traffic.turns turns).1) = createdIds past := by
  refine (turns_keep (fun events _ => createdIds events = createdIds past) turns ?_ sound few rfl).2
  intro events traffic turn member sound room same
  cases turn with
  | outside change => rwa [Traffic.turn, List.append_nil]
  | act act =>
    have silent := sound.act_other (few_of_append room) (still _ member)
    rw [Traffic.turn, createdIds_append, silent.2, List.append_nil, same]

theorem Sound.close_pursued (sound : traffic.Sound past) (during : List (Turn σ))
    (few : (createdIds (past ++
      (traffic.turns (.act (.call .close) :: during)).1)).length < 2 ^ 32) :
    (traffic.turns (.act (.call .close) :: during)).2.Pursued traffic.calls
      traffic.service.roster.live (past ++ (traffic.turns (.act (.call .close) :: during)).1) := by
  have known : ∀ id ∈ traffic.service.roster.live, id ∈ createdIds past := fun id live =>
    sound.catalogued.rostered id (List.contains_iff_mem.mpr live)
  have more : (traffic.turns (.act (.call .close) :: during)).1 =
      (traffic.start .close).1 ++ ((traffic.start .close).2.turns during).1 := rfl
  rw [more, ← List.append_assoc] at few ⊢
  have room : (createdIds (past ++ (traffic.start .close).1)).length < 2 ^ 32 := few_of_append few
  refine (turns_keep (fun events after => after.Pursued traffic.calls traffic.service.roster.live events ∧
    ∀ id ∈ traffic.service.roster.live, id ∈ createdIds events) during ?_
    (turn_sound (.act (.call .close)) sound room) few ⟨start_close_pursued past traffic, ?_⟩).2.1
  · intro events after turn _ sound room ⟨pursued, known⟩
    refine ⟨turn_pursued turn sound room known pursued, fun id live => ?_⟩
    rw [createdIds_append]
    exact List.mem_append_left _ (known id live)
  · intro id live
    rw [createdIds_append]
    exact List.mem_append_left _ (known id live)

/-- Take traffic on a fresh service after whatever turns, and a close. By the time that the close is
answered, with no scan created meanwhile but whatever else has come, the service is closed; and where
others keep to their own snapshots, theirs are all that are in use. Ids are 32-bit words, so fewer
creations are assumed than there are ids. -/
theorem turns_closed (workers : Nat) (engine : σ) (earlier during : List (Turn σ))
    (still : ∀ turn ∈ during, turn.creates = false) :
    let before := Traffic.turns earlier { service := { workers, engine } }
    let run := before.2.turns (.act (.call .close) :: during)
    (createdIds (before.1 ++ run.1)).length < 2 ^ 32 → .answered before.2.calls .closed ∈ run.1 →
      run.2.Closed before.2.service.roster.live (before.1 ++ run.1) ∧
        ∀ (census : Census σ) (others : List Sequence), census.Holds engine others →
          (∀ turn ∈ earlier ++ during, turn.Spares census) →
            census.Holds run.2.service.engine others ∧
              census.size run.2.service.engine = others.length := by
  intro before run few answered
  have fewBefore : (createdIds ([] ++ before.1)).length < 2 ^ 32 := few_of_append few
  have soundBefore : before.2.Sound before.1 := turns_sound earlier (sound_fresh workers engine) fewBefore
  have sound : run.2.Sound (before.1 ++ run.1) := turns_sound _ soundBefore few
  have concluded := sound.concluded_of_closed (soundBefore.close_pursued during few)
    (List.mem_append_right _ answered)
  have closed : run.2.Closed before.2.service.roster.live (before.1 ++ run.1) := by
    refine sound.closed (fun id live => (sound.ended_iff id).mpr (concluded id live)) fun id created => ?_
    have creates : ∀ turn ∈ (.act (.call .close) :: during : List (Turn σ)), turn.creates = false :=
      List.forall_mem_cons.mpr ⟨rfl, still⟩
    rw [turns_give_no_id _ creates soundBefore few] at created
    by_cases live : before.2.service.roster.isLive id = true
    · have finished := concluded id (List.contains_iff_mem.mp live)
      exact (sound.regular.orderly id).life.withdrawn_of_concluded finished
    · -- it was withdrawn before the close has begun
      rw [soundBefore.isLive_iff, not_and, Decidable.not_not] at live
      rw [milestones_append]
      exact List.mem_append_left _ (live created)
  refine ⟨closed, fun census others held spares => ?_⟩
  have fresh : ({ workers, engine } : Service σ ι).Balanced census others := ⟨List.nodup_nil, held⟩
  have halfway : before.2.service.Balanced census others :=
    turns_balanced earlier (sound_fresh workers engine) fewBefore
      (fun turn member => spares turn (List.mem_append_left _ member)) fresh
  have balanced : run.2.service.Balanced census others := by
    refine turns_balanced _ soundBefore few (List.forall_mem_cons.mpr ⟨trivial, fun turn member => ?_⟩) halfway
    exact spares turn (List.mem_append_right _ member)
  have holds := balanced.held
  rw [closed.pins, List.nil_append] at holds
  exact ⟨holds, census.size_eq holds⟩

/-- A close finds a scan that is reading a page, one that is about to end and one that is idle; it is
granted the first end for later, joins the second and is granted the third at once. -/
theorem turns_closed_amid_ends :
    let earlier : List (Turn MemoryEngine) :=
      [.act (.call (.create {})), .act (.call (.create {})), .act (.call (.create {})),
        .act (.call (.scan .roster 1 (.advance .pooled))), .act (.call (.scan .held 2 .endLater))]
    let during : List (Turn MemoryEngine) :=
      [.act (.pursue 0), .outside fun engine => engine.put [1] [1], .act (.pursue 0), .act (.pursue 0)] ++
        List.replicate 15 (.act (.run 0)) ++ [.act (.pursue 0)]
    let before := Traffic.turns earlier { service := { workers := 4, engine := MemoryEngine.empty } }
    let run := before.2.turns (.act (.call .close) :: during)
    (∀ turn ∈ during, turn.creates = false) ∧ (createdIds (before.1 ++ run.1)).length < 2 ^ 32 ∧
      .answered before.2.calls .closed ∈ run.1 ∧ before.2.service.roster.live = [1, 2, 3] ∧
      run.2.Closed before.2.service.roster.live (before.1 ++ run.1) ∧
      MemoryEngine.census.size run.2.service.engine = 0 := by
  intro earlier during
  have spares : ∀ turn ∈ earlier ++ during, turn.Spares MemoryEngine.census := by
    intro turn member
    cases turn with
    | act act => trivial
    | outside change =>
      obtain rfl : change = fun engine => engine.put [1] [1] := by
        simpa [earlier, during, List.mem_replicate] using member
      exact fun _ _ holds => holds
  have closed := turns_closed 4 MemoryEngine.empty earlier during (by decide) (by decide) (by decide)
  refine ⟨by decide, by decide, by decide, by decide, closed.1, ?_⟩
  exact (closed.2 MemoryEngine.census [] MemoryEngine.census_empty spares).2

end Traffic
end KeyScan
