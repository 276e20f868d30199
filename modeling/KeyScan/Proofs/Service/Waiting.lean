import KeyScan.Proofs.Service.Frame

namespace KeyScan

/-- Nobody waits unless an end is under way. -/
def Admission.Attended (admission : Admission) : Prop :=
  admission.waiting ≠ [] → admission.phase = .ending

namespace Admission

variable {admission : Admission}

theorem Attended.begin {after : Admission} (attended : admission.Attended)
    (admitted : admission.begin = .ok after) : after.Attended := by
  unfold Admission.begin at admitted
  split at admitted <;> cases admitted
  rename_i idle
  intro someone
  exact absurd (idle.symm.trans (attended someone)) (by decide)

theorem Attended.finish (attended : admission.Attended) : admission.finish.2.Attended := by
  unfold Admission.finish
  split
  · rename_i advancing
    intro someone
    exact absurd (advancing.symm.trans (attended someone)) (by decide)
  · exact attended
  · exact attended
  · exact attended

theorem Attended.requestEnd (attended : admission.Attended) (waiter : Option Nat) :
    (admission.requestEnd waiter).2.Attended := by
  unfold Admission.requestEnd
  cases phase : admission.phase
  · exact fun _ => rfl
  · exact fun _ => rfl
  · exact attended
  · exact attended

theorem Attended.joinEnd (attended : admission.Attended) (waiter : Nat) :
    (admission.joinEnd waiter).2.Attended := by
  unfold Admission.joinEnd
  split
  · rename_i ending
    exact fun _ => ending
  · exact attended
  · exact attended
  · exact attended

private theorem attended_conclude (admission : Admission) : admission.conclude.2.Attended :=
  fun someone => absurd rfl someone

theorem Attended.step {after : Admission} (attended : admission.Attended)
    (step : admission.Step after) : after.Attended := by
  cases step with
  | begin admitted => exact attended.begin admitted
  | finish => exact attended.finish
  | requestEnd waiter => exact attended.requestEnd waiter
  | joinEnd waiter => exact attended.joinEnd waiter
  | conclude => exact admission.attended_conclude

end Admission

namespace Service

variable {σ ι : Type}

/-- The numbers of those who wait for the end of a scan. -/
def waiting (service : Service σ ι) (id : ScanId) : List Nat :=
  ((service.scan? id).map fun scan => scan.admission.waiting).getD []

/-- Nobody waits for the end of a scan unless it is under way. -/
def Attended (service : Service σ ι) : Prop :=
  ∀ id scan, service.scan? id = some scan → scan.admission.Attended

variable {service after : Service σ ι} {id : ScanId} {scan : Scan ι}

private theorem waiting_eq (found : service.scan? id = some scan) :
    service.waiting id = scan.admission.waiting := by
  rw [waiting, found]
  rfl

theorem Attended.phase (attended : service.Attended) (someone : service.waiting id ≠ []) :
    service.phase? id = some .ending := by
  cases found : service.scan? id with
  | none => simp [waiting, found] at someone
  | some scan =>
    rw [waiting_eq found] at someone
    rw [phase?, found, Option.map_some, attended id scan found someone]

theorem waiting_count (service : Service σ ι) (occurrence : Occurrence) (id : ScanId) :
    (service.count occurrence).waiting id = service.waiting id := rfl

private theorem waiting_countRefusal (service : Service σ ι) (failure : Failure) (id : ScanId) :
    (service.countRefusal failure).waiting id = service.waiting id := by
  unfold countRefusal
  split <;> rfl

theorem waiting_update (found : service.scan? id = some scan) (change : Scan ι → Scan ι)
    (other : ScanId) :
    (service.update id change).waiting other =
      if other = id then (change scan).admission.waiting else service.waiting other := by
  unfold waiting
  rw [scan?_update]
  split
  · rw [found]
    rfl
  · rfl

/-- An update that keeps the waiters of its scan keeps those of all scans. -/
theorem waiting_update_of_eq (found : service.scan? id = some scan) (change : Scan ι → Scan ι)
    (same : (change scan).admission.waiting = scan.admission.waiting) (other : ScanId) :
    (service.update id change).waiting other = service.waiting other := by
  rw [waiting_update found]
  split
  · rename_i own
    rw [same, own, waiting_eq found]
  · rfl

theorem waiting_move (found : service.scan? id = some scan) (engine : σ) (change : Scan ι → Scan ι)
    (same : (change scan).admission.waiting = scan.admission.waiting) (other : ScanId) :
    ({ service with engine }.update id change).waiting other = service.waiting other := by
  have kept : ({ service with engine } : Service σ ι).scan? id = some scan := found
  exact waiting_update_of_eq kept change same other

theorem beginAdvance_waiting (service : Service σ ι) (id other : ScanId) :
    (service.beginAdvance id).2.waiting other = service.waiting other := by
  unfold beginAdvance
  split
  · rfl
  · rename_i scan found
    split
    · exact waiting_countRefusal service _ other
    · rename_i admission admitted
      refine waiting_update_of_eq found _ ?_ other
      unfold Admission.begin at admitted
      split at admitted <;> cases admitted
      rfl

theorem leave_waiting (service : Service σ ι) (id other : ScanId) :
    (service.leave id).2.waiting other = service.waiting other := by
  unfold leave Admission.finish
  split
  · rfl
  · rename_i scan found
    refine waiting_update_of_eq found _ ?_ other
    cases phase : scan.admission.phase <;> rfl

theorem requestEnd_waiting {waiter : Option Nat} {verdict : Verdict}
    (asked : service.requestEnd waiter id = (verdict, after)) (other : ScanId) :
    after.waiting other =
      service.waiting other ++ if other = id ∧ verdict ≠ .alreadyEnded then waiter.toList else [] := by
  unfold requestEnd at asked
  split at asked
  · cases asked
    simp
  · rename_i scan found
    unfold Admission.requestEnd at asked
    cases phase : scan.admission.phase <;> rw [phase] at asked <;> cases asked <;>
      rw [waiting_update found] <;> split <;> rename_i own <;>
      simp [own, waiting_eq found]

theorem requestOrJoinEnd_waiting {waiter : Nat} {verdict : Verdict} {joined : Bool}
    (asked : service.requestOrJoinEnd waiter id = (verdict, joined, after)) (other : ScanId) :
    after.waiting other =
      service.waiting other ++
        if other = id ∧ (verdict ≠ .alreadyEnded ∨ joined = true) then [waiter] else [] := by
  unfold requestOrJoinEnd at asked
  split at asked
  · cases asked
    simp
  · rename_i scan found
    unfold Admission.requestEnd Admission.joinEnd at asked
    cases phase : scan.admission.phase <;> simp only [phase] at asked <;> cases asked <;>
      rw [waiting_update found] <;> split <;> rename_i own <;>
      simp [own, waiting_eq found]

theorem conclude_told (service : Service σ ι) (id : ScanId) :
    (service.conclude id).1 = service.waiting id := by
  unfold conclude waiting
  split
  · rename_i missing
    rw [missing]
    rfl
  · rename_i scan found
    rw [found]
    rfl

theorem conclude_waiting (service : Service σ ι) (id other : ScanId) :
    (service.conclude id).2.waiting other = if other = id then [] else service.waiting other := by
  unfold conclude
  split
  · rename_i missing
    split
    · rename_i own
      rw [own, waiting, missing]
      rfl
    · rfl
  · rename_i scan found
    exact waiting_update found _ other

variable [Engine σ ι]

theorem seek_waiting (service : Service σ ι) (target : Bytes) (id other : ScanId) :
    (service.seek target id).2.waiting other = service.waiting other := by
  unfold seek
  split
  · rfl
  · rename_i scan found
    split
    · exact waiting_countRefusal service _ other
    · simp only
      split <;> (rw [waiting_count, waiting_move found]; rfl)

theorem fetch_waiting (service : Service σ ι) (mode : Mode) (id other : ScanId) :
    (service.fetch mode id).2.waiting other = service.waiting other := by
  unfold fetch
  split
  · rfl
  · rename_i scan found
    simp only
    split <;> (rw [waiting_count, waiting_move found]; rfl)

theorem release_waiting (service : Service σ ι) (id other : ScanId) :
    (service.release id).waiting other = service.waiting other := by
  unfold release
  split
  · rfl
  · rename_i scan found
    rw [waiting_move found]
    rfl

/-- Every section keeps to it that nobody waits unless an end is under way. -/
theorem attended_kept : Kept fun service : Service σ ι => service.Attended :=
  every_kept (fun _ _ attended step => attended.step step) fun _ _ _ _ attended _ => attended

variable {options : ScanOptions}

theorem create_waiting (opened : service.create options = (.ok id, after)) (other : ScanId) :
    after.waiting other = service.waiting other := by
  obtain ⟨window, -, -, scans, -, -⟩ := create_ok opened
  unfold waiting scan?
  rw [scans, List.lookup_append]
  cases service.scans.lookup other with
  | some scan => rfl
  | none =>
    rw [Option.none_or, List.lookup_cons]
    cases other == id <;> rfl

theorem Attended.create (attended : service.Attended)
    (opened : service.create options = (.ok id, after)) : after.Attended :=
  Every.create attended opened fun _ someone => absurd rfl someone

end Service
end KeyScan
