import KeyScan.Proofs.Service.Frame

namespace KeyScan

/-- What matters of a scan to those who would advance, seek or end it. -/
structure Condition where
  phase : Phase
  released : Bool
  live : Bool
  deriving DecidableEq

namespace Service

variable {σ ι : Type}

/-- The condition of the scan of an id. -/
def condition? (service : Service σ ι) (id : ScanId) : Option Condition :=
  (service.scan? id).map fun scan =>
    ⟨scan.admission.phase, scan.reader.isReleased, service.roster.isLive id⟩

theorem phase?_eq_condition (service : Service σ ι) (id : ScanId) :
    service.phase? id = (service.condition? id).map Condition.phase := by
  unfold phase? condition?
  rw [Option.map_map]
  rfl

theorem Touches.condition {id other : ScanId} {before after : Service σ ι}
    (touched : before.Touches id after) (apart : other ≠ id) :
    after.condition? other = before.condition? other := by
  unfold condition?
  rw [touched.scan other apart, touched.live other apart]

theorem condition?_count (service : Service σ ι) (occurrence : Occurrence) (id : ScanId) :
    (service.count occurrence).condition? id = service.condition? id := rfl

private theorem condition?_countRefusal (service : Service σ ι) (failure : Failure) (id : ScanId) :
    (service.countRefusal failure).condition? id = service.condition? id := by
  unfold countRefusal
  split <;> rfl

theorem condition?_update {service : Service σ ι} {id : ScanId} {scan : Scan ι}
    (found : service.scan? id = some scan) (change : Scan ι → Scan ι) :
    (service.update id change).condition? id =
      some ⟨(change scan).admission.phase, (change scan).reader.isReleased,
        service.roster.isLive id⟩ := by
  unfold condition?
  rw [scan?_update, if_pos rfl, found]
  rfl

theorem condition?_move {service : Service σ ι} {id : ScanId} {scan : Scan ι}
    (found : service.scan? id = some scan) (engine : σ) (change : Scan ι → Scan ι) :
    ({ service with engine }.update id change).condition? id =
      some ⟨(change scan).admission.phase, (change scan).reader.isReleased,
        service.roster.isLive id⟩ := by
  have kept : ({ service with engine } : Service σ ι).scan? id = some scan := found
  exact condition?_update kept change

theorem condition?_eq {service : Service σ ι} {id : ScanId} {scan : Scan ι}
    (found : service.scan? id = some scan) :
    service.condition? id =
      some ⟨scan.admission.phase, scan.reader.isReleased, service.roster.isLive id⟩ := by
  unfold condition?
  rw [found]
  rfl

variable {id : ScanId} {service after : Service σ ι}

/-- An advance begins on an idle scan only. -/
theorem beginAdvance_ok (begun : service.beginAdvance id = (.ok (), after)) :
    ∃ released live, service.condition? id = some ⟨.idle, released, live⟩ ∧
      after.condition? id = some ⟨.advancing, released, live⟩ := by
  unfold beginAdvance at begun
  split at begun
  · cases begun
  · rename_i scan found
    unfold Admission.begin at begun
    cases phase : scan.admission.phase <;> rw [phase] at begun <;> cases begun
    refine ⟨scan.reader.isReleased, service.roster.isLive id, ?_, condition?_update found _⟩
    rw [condition?_eq found, phase]

theorem beginAdvance_error {failure : Failure}
    (refused : service.beginAdvance id = (.error failure, after)) :
    after.condition? id = service.condition? id := by
  unfold beginAdvance at refused
  split at refused
  · cases refused
    rfl
  · split at refused <;> cases refused
    exact condition?_countRefusal service failure id

/-- What the verdict on a request to end says of the scan before and after. -/
def Decided (verdict : Verdict) (before after : Option Condition) : Prop :=
  match verdict with
  | .now => ∃ released live, before = some ⟨.idle, released, live⟩ ∧
      after = some ⟨.ending, released, live⟩
  | .deferred => ∃ released live, before = some ⟨.advancing, released, live⟩ ∧
      after = some ⟨.ending, released, live⟩
  | .alreadyEnded => after = before

theorem Decided.idle {after : Option Condition} (decided : Decided .now (service.condition? id) after) :
    service.phase? id = some .idle := by
  obtain ⟨_, _, before, -⟩ := decided
  rw [phase?_eq_condition, before, Option.map_some]

theorem Decided.advancing {after : Option Condition}
    (decided : Decided .deferred (service.condition? id) after) :
    service.phase? id = some .advancing := by
  obtain ⟨_, _, before, -⟩ := decided
  rw [phase?_eq_condition, before, Option.map_some]

theorem requestEnd_decided {waiter : Option Nat} {verdict : Verdict}
    (asked : service.requestEnd waiter id = (verdict, after)) :
    Decided verdict (service.condition? id) (after.condition? id) := by
  unfold requestEnd at asked
  split at asked
  · cases asked
    rfl
  · rename_i scan found
    rw [condition?_eq found]
    unfold Admission.requestEnd at asked
    cases phase : scan.admission.phase <;> rw [phase] at asked <;> cases asked <;>
      rw [condition?_update found]
    · exact ⟨_, _, rfl, rfl⟩
    · exact ⟨_, _, rfl, rfl⟩
    · exact congrArg (fun phase => some (Condition.mk phase _ _)) phase
    · exact congrArg (fun phase => some (Condition.mk phase _ _)) phase

theorem requestOrJoinEnd_decided {waiter : Nat} {verdict : Verdict} {joined : Bool}
    (asked : service.requestOrJoinEnd waiter id = (verdict, joined, after)) :
    Decided verdict (service.condition? id) (after.condition? id) := by
  unfold requestOrJoinEnd at asked
  split at asked
  · cases asked
    rfl
  · rename_i scan found
    rw [condition?_eq found]
    unfold Admission.requestEnd Admission.joinEnd at asked
    cases phase : scan.admission.phase <;> simp only [phase] at asked <;> cases asked <;>
      rw [condition?_update found]
    · exact ⟨_, _, rfl, rfl⟩
    · exact ⟨_, _, rfl, rfl⟩
    · rfl
    · exact congrArg (fun phase => some (Condition.mk phase _ _)) phase

/-- An end can neither be granted nor joined on a scan that has ended, and on no other scan. -/
theorem requestOrJoinEnd_over {waiter : Nat}
    (asked : service.requestOrJoinEnd waiter id = (.alreadyEnded, false, after)) :
    service.scan? id = none ∨ service.phase? id = some .ended := by
  unfold requestOrJoinEnd at asked
  split at asked
  · exact .inl ‹_›
  · rename_i scan found
    unfold Admission.requestEnd Admission.joinEnd at asked
    right
    rw [phase?, found, Option.map_some]
    cases phase : scan.admission.phase <;> simp only [phase] at asked <;> cases asked
    rfl

variable {phase : Phase} {released live : Bool}

theorem scan_of_condition (found : service.condition? id = some ⟨phase, released, live⟩) :
    ∃ scan, service.scan? id = some scan ∧ scan.admission.phase = phase ∧
      scan.reader.isReleased = released ∧ service.roster.isLive id = live := by
  unfold condition? at found
  obtain ⟨scan, known, same⟩ := Option.map_eq_some_iff.mp found
  cases same
  exact ⟨scan, known, rfl, rfl, rfl⟩

/-- Leaving an advance makes the scan idle again unless an end has been granted meanwhile. -/
theorem leave_condition (found : service.condition? id = some ⟨phase, released, live⟩) :
    (service.leave id).1 = decide (phase = .ending) ∧
      (service.leave id).2.condition? id =
        some ⟨if phase = .advancing then .idle else phase, released, live⟩ := by
  obtain ⟨scan, known, rfl, rfl, rfl⟩ := scan_of_condition found
  unfold leave Admission.finish
  simp only [known]
  cases phase : scan.admission.phase <;> simp only <;> rw [condition?_update known]
  · exact ⟨rfl, congrArg (fun phase => some (Condition.mk phase _ _)) phase⟩
  · exact ⟨rfl, rfl⟩
  · exact ⟨rfl, congrArg (fun phase => some (Condition.mk phase _ _)) phase⟩
  · exact ⟨rfl, congrArg (fun phase => some (Condition.mk phase _ _)) phase⟩

theorem withdraw_condition (found : service.condition? id = some ⟨phase, released, live⟩) :
    (service.withdraw id).condition? id = some ⟨phase, released, false⟩ := by
  obtain ⟨scan, known, rfl, rfl, rfl⟩ := scan_of_condition found
  have known : (service.withdraw id).scan? id = some scan := known
  rw [condition?_eq known]
  simp [withdraw]

theorem conclude_condition (found : service.condition? id = some ⟨phase, released, live⟩) :
    (service.conclude id).2.condition? id = some ⟨.ended, released, live⟩ := by
  obtain ⟨scan, known, rfl, rfl, rfl⟩ := scan_of_condition found
  unfold conclude Admission.conclude
  simp only [known]
  exact condition?_update known _

variable [Engine σ ι]

theorem release_condition (found : service.condition? id = some ⟨phase, released, live⟩) :
    (service.release id).condition? id = some ⟨phase, true, live⟩ := by
  obtain ⟨scan, known, rfl, rfl, rfl⟩ := scan_of_condition found
  have gone := scan.reader.release_isReleased service.engine
  unfold release
  simp only [known]
  rw [condition?_move known, gone]

theorem fetch_condition (service : Service σ ι) (mode : Mode) (id other : ScanId) :
    (service.fetch mode id).2.condition? other = service.condition? other := by
  by_cases apart : other = id
  · subst apart
    unfold fetch
    split
    · rfl
    · rename_i scan found
      have same := scan.reader.page_isReleased scan.highWaterMark service.engine
      simp only
      split
      all_goals
        rw [condition?_count, condition?_move found, condition?_eq found]
        simp only [Reader.isReleased] at same ⊢
        rw [same]
  · exact (service.fetch_changes id mode).touches.condition apart

theorem seek_condition (service : Service σ ι) (target : Bytes) (id other : ScanId) :
    (service.seek target id).2.condition? other = service.condition? other := by
  by_cases apart : other = id
  · subst apart
    unfold seek
    split
    · rfl
    · rename_i scan found
      split
      · exact condition?_countRefusal service _ other
      · have same := scan.reader.seek_isReleased target service.engine
        simp only
        split
        all_goals
          rw [condition?_count, condition?_move found, condition?_eq found, same]
  · exact (service.seek_changes id target).touches.condition apart

end Service
end KeyScan
