import KeyScan.Proofs.Traffic.Life

namespace KeyScan

variable {σ ι : Type}

private theorem Service.create_life [Engine σ ι] {service after : Service σ ι} {created : Nat}
    {options : ScanOptions} {id new : ScanId} {owed : List Duty} {past : List Milestone}
    (numbered : service.Numbered created) (room : created + 1 < 2 ^ 32)
    (opened : service.create options = (.ok new, after))
    (life : Life (service.condition? id) owed past) : Life (after.condition? id) owed past := by
  by_cases own : id = new
  · subst own
    obtain ⟨window, -, found, live, -⟩ := create_own numbered room opened
    obtain ⟨_, -, same, -⟩ := create_ok opened
    have missing : service.condition? id = none := by
      unfold condition?
      rw [same, numbered.fresh room]
      rfl
    rw [missing] at life
    rw [condition?_eq found, live]
    cases life
    exact .idle
  · obtain ⟨scan, live⟩ := create_others opened own
    unfold condition? at life ⊢
    rwa [scan, live]

def Act.creates : Act → Bool
  | .call (.create _) => true
  | _ => false

def Stage.isAdvance : Stage → Bool
  | .fetch _ | .leave _ _ => true
  | _ => false

def Stage.isFetch : Stage → Bool
  | .fetch _ => true
  | _ => false

/-- Whether a stage comes before an end that has still to be begun. -/
def Stage.owesEnd : Stage → Bool
  | .deliver _ pending => pending
  | .release _ => true
  | _ => false

namespace Traffic

variable [Engine σ ι] {traffic : Traffic σ ι}

/-- The station of a scan, and the ids given out so far. -/
structure Orderly (id : ScanId) (past : List Event) (created : Nat) (traffic : Traffic σ ι) :
    Prop where
  life : Life (traffic.service.condition? id) (duties id traffic.tasks) (milestones id past)
  numbered : traffic.service.Numbered created

theorem startRequest_orderly {id : ScanId} {past : List Event} {created : Nat} (request : Request)
    (call : Nat) (orderly : traffic.Orderly id past created)
    (room : created + (Act.call request).creates.toNat < 2 ^ 32) :
    (traffic.startRequest request call).2.Orderly id
      (past ++ (traffic.startRequest request call).1)
      (created + (Act.call request).creates.toNat) := by
  obtain ⟨life, numbered⟩ := orderly
  unfold startRequest
  split
  · rename_i options
    split
    · rename_i new after opened
      refine ⟨?_, numbered.create room opened⟩
      rw [milestones_append]
      exact answer_life _ _ (Service.create_life numbered room opened life)
    · rename_i failure after refused
      have same := Service.create_error refused
      subst same
      refine ⟨?_, ⟨Nat.le_succ_of_le numbered.bounded, numbered.given⟩⟩
      rw [milestones_append]
      exact answer_life _ _ life
  · rename_i other action
    refine ⟨?_, (startAction_touches action other call traffic).numbered numbered⟩
    rw [milestones_append]
    exact startAction_life action other call life
  · rename_i other action
    split
    · refine ⟨?_, (startAction_touches action other call traffic).numbered numbered⟩
      rw [milestones_append]
      exact startAction_life action other call life
    · refine ⟨?_, numbered⟩
      rw [milestones_append]
      exact answer_life _ _ life
  · split
    · refine ⟨?_, numbered⟩
      rw [milestones_append]
      exact answer_life _ _ life
    · refine ⟨?_, numbered⟩
      rw [List.append_nil]
      exact life

/-- One act takes a scan to its next station. -/
theorem act_orderly {id : ScanId} {past : List Event} {created : Nat} (act : Act)
    (orderly : traffic.Orderly id past created) (room : created + act.creates.toNat < 2 ^ 32) :
    (traffic.act act).2.Orderly id (past ++ (traffic.act act).1) (created + act.creates.toNat) := by
  cases act with
  | call request =>
    have counted : ({ traffic with calls := traffic.calls + 1 } : Traffic σ ι).Orderly id
        (past ++ [.called traffic.calls request]) created := by
      refine ⟨?_, orderly.numbered⟩
      simpa [Event.milestone?] using orderly.life
    have next := startRequest_orderly request traffic.calls counted room
    rwa [List.append_assoc, List.singleton_append] at next
  | run place =>
    refine ⟨?_, ?_⟩
    · rw [milestones_append]
      exact runTask_life place orderly.life
    · simp only [Traffic.act, runTask]
      split
      · exact orderly.numbered
      · exact (Task.run_touches _ _).numbered orderly.numbered
  | pursue place =>
    refine ⟨?_, ?_⟩
    · rw [milestones_append]
      exact pursue_life place orderly.life
    · simp only [Traffic.act, pursue]
      split
      · exact orderly.numbered
      · split
        · exact (ask_touches _ _ _).numbered orderly.numbered
        · exact orderly.numbered
        · exact orderly.numbered

theorem acts_orderly {id : ScanId} {past : List Event} {created : Nat} (acts : List Act)
    (orderly : traffic.Orderly id past created)
    (room : created + acts.countP Act.creates < 2 ^ 32) :
    (traffic.acts acts).2.Orderly id (past ++ (traffic.acts acts).1)
      (created + acts.countP Act.creates) := by
  induction acts generalizing traffic past created with
  | nil => simpa [Traffic.acts] using orderly
  | cons act rest ih =>
    rw [countP_cons_toNat, ← Nat.add_assoc] at room ⊢
    have next := ih (act_orderly act orderly (Nat.lt_of_le_of_lt (Nat.le_add_right _ _) room)) room
    rwa [List.append_assoc] at next

/-- How many tasks on a scan stand at stages of some kind. -/
def standing (id : ScanId) (kind : Stage → Bool) (traffic : Traffic σ ι) : Nat :=
  traffic.tasks.countP fun task => decide (task.id = id) && kind task.stage

/-- What never fails to hold of a scan, given the events so far. -/
structure EndsOnce (id : ScanId) (past : List Event) (traffic : Traffic σ ι) : Prop where
  /-- at most one advance is in progress -/
  advance : traffic.standing id Stage.isAdvance ≤ 1
  /-- at most one end was begun or is about to begin, and none of its sections comes twice -/
  release : traffic.standing id Stage.owesEnd + (milestones id past).count .released ≤ 1
  withdrawal : (milestones id past).count .withdrawn ≤ 1
  conclusion : (milestones id past).count .concluded ≤ 1
  /-- an advance that has still to read, and a seek that would be admitted, find the reader held -/
  held : ∀ scan, traffic.service.scan? id = some scan →
    0 < traffic.standing id Stage.isFetch ∨ scan.admission.checkSeek = .ok () →
    scan.reader.isReleased = false
  gone : ∀ scan, traffic.service.scan? id = some scan → scan.admission.phase = .ended →
    scan.reader.isReleased = true ∧ traffic.service.roster.isLive id = false
  /-- an end that was granted is carried out by the time that nothing is left to do on the scan -/
  carriedOut : .granted ∈ milestones id past → (∀ task ∈ traffic.tasks, task.id ≠ id) →
    traffic.service.phase? id = some .ended

omit [Engine σ ι] in
/-- No more tasks stand at stages of a duty than owe it. -/
theorem standing_le_count (id : ScanId) (kind : Stage → Bool) (duty : Duty)
    (owes : ∀ stage, kind stage = true → stage.duty? = some duty) (traffic : Traffic σ ι) :
    traffic.standing id kind ≤ (duties id traffic.tasks).count duty := by
  rw [duties, List.count, List.countP_filterMap]
  refine List.countP_mono_left ?_
  intro task _ stands
  rw [Bool.and_eq_true, decide_eq_true_eq] at stands
  simp [Task.duty?, stands.1, owes task.stage stands.2]

omit [Engine σ ι] in
theorem Orderly.endsOnce {id : ScanId} {past : List Event} {created : Nat}
    (orderly : traffic.Orderly id past created) : traffic.EndsOnce id past := by
  have life := orderly.life
  obtain ⟨advances, releases, withdrawals, conclusions⟩ := life.once
  have advancing := standing_le_count id Stage.isAdvance .advance
    (by intro stage; cases stage <;> simp [Stage.isAdvance, Stage.duty?]) traffic
  have fetching := standing_le_count id Stage.isFetch .advance
    (by intro stage; cases stage <;> simp [Stage.isFetch, Stage.duty?]) traffic
  have owing := standing_le_count id Stage.owesEnd .release
    (by intro stage; cases stage <;> simp [Stage.owesEnd, Stage.duty?]) traffic
  refine ⟨by omega, by omega, withdrawals, conclusions, ?_, ?_, ?_⟩
  · intro scan found admitted
    rw [Service.condition?_eq found] at life
    refine life.held ?_
    rcases admitted with fetch | seek
    · exact .inl (Nat.lt_of_lt_of_le fetch fetching)
    · refine .inr ?_
      unfold Admission.checkSeek at seek
      split at seek <;> first | assumption | cases seek
  · intro scan found ended
    rw [Service.condition?_eq found, ended] at life
    exact life.gone
  · intro granted idle
    have nothing : duties id traffic.tasks = [] := by
      refine List.filterMap_eq_nil_iff.mpr ?_
      intro task member
      exact if_neg (idle task member)
    rw [nothing] at life
    have ended := life.carriedOut granted
    obtain ⟨scan, found, same⟩ := Option.map_eq_some_iff.mp ended
    rw [Service.phase?, found, Option.map_some]
    exact congrArg (fun condition => some condition.phase) same

/-- In traffic on a fresh service, after whatever calls and sections in whatever order, every scan ends
at most once, never under an advance, and surely if it was told to. Ids are 32-bit words, so fewer
creations are assumed than there are ids. -/
theorem acts_endsOnce (workers : Nat) (engine : σ) (acts : List Act) (id : ScanId)
    (few : acts.countP Act.creates < 2 ^ 32) :
    let (past, traffic) := Traffic.acts acts { service := { workers, engine } }
    traffic.EndsOnce id past := by
  have start : Traffic.Orderly id [] 0 ({ service := { workers, engine } } : Traffic σ ι) :=
    ⟨.unknown, ⟨Nat.le_refl _, fun _ member => absurd member List.not_mem_nil⟩⟩
  exact (acts_orderly acts start (by simpa using few)).endsOnce

/-- An end that is granted while a pooled advance is reading waits for its callback. -/
theorem acts_endsOnce_of_deferred :
    let acts : List Act :=
      [.call (.create {}), .call (.scan .held 1 (.advance .pooled)), .call (.scan .roster 1 .endNow),
        .call (.scan .held 1 .endLater), .run 0, .run 0, .run 0, .run 0, .run 0, .run 0]
    acts.countP Act.creates < 2 ^ 32 ∧
      let (past, traffic) := Traffic.acts acts { service := { workers := 4, engine := MemoryEngine.empty } }
      traffic.EndsOnce 1 past ∧ milestones 1 past = [.granted, .released, .withdrawn, .concluded] := by
  intro acts
  exact ⟨by decide, acts_endsOnce 4 MemoryEngine.empty acts 1 (by decide), by rfl⟩

end Traffic
end KeyScan
