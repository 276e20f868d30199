import Mathlib.Logic.Relation
import KeyScan.Service.Sections

/-! What the critical sections of a scan are made of. A section counts an occurrence, takes its scan off
the roster, passes its scan on to another admission or moves its reader over the engine. What holds
across each of these changes holds across every section. -/
namespace KeyScan

/-- What a section makes of the admission of its scan. -/
inductive Admission.Step (admission : Admission) : Admission → Prop
  | begin {after : Admission} (admitted : admission.begin = .ok after) : admission.Step after
  | finish : admission.Step admission.finish.2
  | requestEnd (waiter : Option Nat) : admission.Step (admission.requestEnd waiter).2
  | joinEnd (waiter : Nat) : admission.Step (admission.joinEnd waiter).2
  | conclude : admission.Step admission.conclude.2

variable {σ ι : Type} [Engine σ ι]

/-- What a section makes of the reader of its scan and of the engine. -/
inductive Reader.Step (reader : Reader ι) (engine : σ) : Reader ι → σ → Prop
  | seek (target : Bytes) :
    reader.Step engine (reader.seek target engine).2.1 (reader.seek target engine).2.2
  | page (highWaterMark : Nat) :
    reader.Step engine { (reader.page highWaterMark engine).2.1 with target := none }
      (reader.page highWaterMark engine).2.2
  | release : reader.Step engine (reader.release engine).2.1 (reader.release engine).2.2

namespace Service

/-- A change of which a section on a scan can be made. -/
inductive Change (id : ScanId) (service : Service σ ι) : Service σ ι → Prop
  | count (occurrence : Occurrence) : Change id service (service.count occurrence)
  | withdraw : Change id service (service.withdraw id)
  | pass {scan : Scan ι} {admission : Admission} (found : service.scan? id = some scan)
    (step : scan.admission.Step admission) :
    Change id service (service.update id fun scan => { scan with admission })
  | move {scan : Scan ι} {reader : Reader ι} {engine : σ} (found : service.scan? id = some scan)
    (step : scan.reader.Step service.engine reader engine) :
    Change id service ({ service with engine }.update id fun scan => { scan with reader })

def Changes (id : ScanId) : Service σ ι → Service σ ι → Prop := Relation.ReflTransGen (Change id)

variable {id : ScanId} {before after : Service σ ι}

theorem Change.changes (change : Change id before after) : Changes id before after :=
  .single change

/-- A relation that holds across each change holds across all of them. -/
theorem Changes.lift {R : Service σ ι → Service σ ι → Prop} (changes : Changes id before after)
    (refl : ∀ service, R service service)
    (trans : ∀ first second third, R first second → R second third → R first third)
    (each : ∀ before after, Change id before after → R before after) : R before after := by
  induction changes with
  | refl => exact refl _
  | tail _ last ih => exact trans _ _ _ ih (each _ _ last)

theorem Changes.kept {P : Service σ ι → Prop} (changes : Changes id before after) (holds : P before)
    (each : ∀ before after, Change id before after → P before → P after) : P after :=
  changes.lift (fun _ holds => holds) (fun _ _ _ one two holds => two (one holds)) each holds

variable (service : Service σ ι) (id : ScanId)

private theorem countRefusal_changes (failure : Failure) :
    Changes id service (service.countRefusal failure) := by
  unfold countRefusal
  split
  · exact Change.changes (.count .refused)
  · exact .refl

theorem seek_changes (target : Bytes) : Changes id service (service.seek target id).2 := by
  unfold seek
  split
  · exact .refl
  · rename_i scan found
    split
    · exact service.countRefusal_changes id _
    · simp only
      have moved := Change.changes (.move found (.seek target))
      split <;> exact moved.tail (.count _)

theorem beginAdvance_changes : Changes id service (service.beginAdvance id).2 := by
  unfold beginAdvance
  split
  · exact .refl
  · rename_i scan found
    split
    · exact service.countRefusal_changes id _
    · rename_i admission admitted
      exact Change.changes (.pass found (.begin admitted))

theorem fetch_changes (mode : Mode) : Changes id service (service.fetch mode id).2 := by
  unfold fetch
  split
  · exact .refl
  · rename_i scan found
    simp only
    have moved := Change.changes (.move found (.page scan.highWaterMark))
    split <;> exact moved.tail (.count _)

theorem leave_changes : Changes id service (service.leave id).2 := by
  unfold leave
  split
  · exact .refl
  · rename_i scan found
    exact Change.changes (.pass found .finish)

theorem requestEnd_changes (waiter : Option Nat) :
    Changes id service (service.requestEnd waiter id).2 := by
  unfold requestEnd
  split
  · exact .refl
  · rename_i scan found
    exact Change.changes (.pass found (.requestEnd waiter))

theorem requestOrJoinEnd_changes (waiter : Nat) :
    Changes id service (service.requestOrJoinEnd waiter id).2.2 := by
  unfold requestOrJoinEnd
  split
  · exact .refl
  · rename_i scan found
    split
    · exact Change.changes (.pass found (.joinEnd waiter))
    · rename_i admission _ asked
      have step : scan.admission.Step (scan.admission.requestEnd (some waiter)).2 :=
        .requestEnd (some waiter)
      rw [asked] at step
      exact Change.changes (.pass found step)

theorem release_changes : Changes id service (service.release id) := by
  unfold release
  split
  · exact .refl
  · rename_i scan found
    exact Change.changes (.move found .release)

theorem conclude_changes : Changes id service (service.conclude id).2 := by
  unfold conclude
  split
  · exact .refl
  · rename_i scan found
    exact Change.changes (.pass found .conclude)

end Service
end KeyScan
