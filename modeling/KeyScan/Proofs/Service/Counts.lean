import Mathlib.Algebra.GroupWithZero.Nat
import KeyScan.Proofs.Service.Catalog
import KeyScan.Proofs.Service.Pins

namespace KeyScan

/-- An occurrence without what cannot be seen of it from outside: whether a seek left nothing to read. -/
def Occurrence.plain : Occurrence → Occurrence
  | .sought _ => .sought false
  | other => other

/-- What a failure counts as where a read ends with it. -/
def Failure.occurrence? : Failure → Option Occurrence
  | .advancing | .seekWhileAdvancing => some .refused
  | .engine _ => some .failed
  | _ => none

namespace Tally

/-- The counts after some more occurrences. -/
def recordAll (occurrences : List Occurrence) (tally : Tally) : Tally :=
  occurrences.foldl (fun tally occurrence => tally.record occurrence) tally

theorem recordAll_append (first second : List Occurrence) (tally : Tally) :
    tally.recordAll (first ++ second) = (tally.recordAll first).recordAll second := List.foldl_append

end Tally

/-- A count of a tally, and what each occurrence adds to it, be it plain or not. -/
structure Counter where
  read : Tally → UInt64
  amount : Occurrence → UInt64
  fresh : read {} = 0 := by rfl
  counts : ∀ tally occurrence, read (tally.record occurrence) = read tally + amount occurrence := by
    intro tally occurrence
    cases occurrence <;> grind [Tally.record]
  plain : ∀ occurrence, amount occurrence.plain = amount occurrence := by
    intro occurrence
    cases occurrence <;> rfl

namespace Counter

/-- What some occurrences add to a count that can grow without bound. -/
def total (counter : Counter) (occurrences : List Occurrence) : Nat :=
  (occurrences.map fun occurrence => (counter.amount occurrence).toNat).sum

variable (counter : Counter)

@[simp] theorem total_nil : counter.total [] = 0 := rfl

@[simp] theorem total_cons (first : Occurrence) (rest : List Occurrence) :
    counter.total (first :: rest) = (counter.amount first).toNat + counter.total rest := by
  simp [total]

@[simp] theorem total_append (first second : List Occurrence) :
    counter.total (first ++ second) = counter.total first + counter.total second := by
  simp [total]

theorem total_plain (occurrences : List Occurrence) :
    counter.total (occurrences.map Occurrence.plain) = counter.total occurrences := by
  induction occurrences with
  | nil => rfl
  | cons first rest ih => simp [ih, counter.plain]

theorem total_perm {one two : List Occurrence} (same : one.Perm two) :
    counter.total one = counter.total two := (same.map _).sum_nat

private theorem read_recordAll (occurrences : List Occurrence) (tally : Tally) :
    counter.read (tally.recordAll occurrences) =
      counter.read tally + UInt64.ofNat (counter.total occurrences) := by
  induction occurrences generalizing tally with
  | nil => simp [Tally.recordAll]
  | cons first rest ih =>
    have next := ih (tally.record first)
    simp only [Tally.recordAll, List.foldl_cons, total_cons] at next ⊢
    rw [next, counter.counts, UInt64.ofNat_add, UInt64.ofNat_toNat, UInt64.add_assoc]

/-- A count is the sum of what was added to it, as far as a word can hold it. -/
theorem toNat_read (occurrences : List Occurrence) :
    (counter.read (.ofOccurrences occurrences)).toNat = counter.total occurrences % 2 ^ 64 := by
  have all := counter.read_recordAll occurrences {}
  rw [counter.fresh, UInt64.zero_add] at all
  exact (congrArg UInt64.toNat all).trans (UInt64.toNat_ofNat' ..)

def created : Counter where
  read := Tally.created
  amount
    | .created => 1
    | _ => 0

def ended : Counter where
  read := Tally.ended
  amount
    | .ended _ => 1
    | _ => 0

def deferred : Counter where
  read := Tally.deferred
  amount
    | .ended deferred => if deferred then 1 else 0
    | _ => 0

def waited : Counter where
  read := Tally.waited
  amount
    | .advanced mode _ _ => if mode = .waiting then 1 else 0
    | _ => 0

def pooled : Counter where
  read := Tally.pooled
  amount
    | .advanced mode _ _ => if mode = .pooled then 1 else 0
    | _ => 0

def refused : Counter where
  read := Tally.refused
  amount
    | .refused => 1
    | _ => 0

def entries : Counter where
  read := Tally.entries
  amount
    | .advanced _ entries _ => entries
    | _ => 0

def bytes : Counter where
  read := Tally.bytes
  amount
    | .advanced _ _ bytes => bytes
    | _ => 0

def sought : Counter where
  read := Tally.sought
  amount
    | .sought _ => 1
    | _ => 0

def failed : Counter where
  read := Tally.failed
  amount
    | .failed => 1
    | _ => 0

end Counter

namespace Service

variable {σ ι : Type}

/-! Sections that change the record of a scan and nothing else count nothing. -/

theorem leave_tally (service : Service σ ι) (id : ScanId) :
    (service.leave id).2.tally = service.tally := by
  unfold leave
  split <;> rfl

theorem requestEnd_tally (service : Service σ ι) (waiter : Option Nat) (id : ScanId) :
    (service.requestEnd waiter id).2.tally = service.tally := by
  unfold requestEnd
  split <;> rfl

theorem requestOrJoinEnd_tally (service : Service σ ι) (waiter : Nat) (id : ScanId) :
    (service.requestOrJoinEnd waiter id).2.2.tally = service.tally := by
  unfold requestOrJoinEnd
  split
  · rfl
  · split <;> rfl

theorem conclude_tally (service : Service σ ι) (id : ScanId) :
    (service.conclude id).2.tally = service.tally := by
  unfold conclude
  split <;> rfl

theorem beginAdvance_tally (service : Service σ ι) (id : ScanId) :
    (service.beginAdvance id).2.tally =
      match (service.beginAdvance id).1 with
      | .ok () => service.tally
      | .error failure => service.tally.recordAll failure.occurrence?.toList := by
  unfold beginAdvance
  split
  · rfl
  · rename_i scan found
    unfold Admission.begin
    cases scan.admission.phase <;> rfl

variable [Engine σ ι] {service after : Service σ ι} {id : ScanId}

theorem release_tally (service : Service σ ι) (id : ScanId) :
    (service.release id).tally = service.tally := by
  unfold release
  split <;> rfl

theorem create_tally {options : ScanOptions}
    (opened : service.create options = (.ok id, after)) :
    after.tally = service.tally.recordAll [.created] := by
  unfold create at opened
  split at opened <;> cases opened
  rfl

/-- An advance that finds its scan counts the page, or that it failed. -/
theorem fetch_tally {phase : Phase} {live : Bool} (mode : Mode) (pinned : service.Pinned)
    (held : service.condition? id = some ⟨phase, false, live⟩) :
    (service.fetch mode id).2.tally =
      match (service.fetch mode id).1 with
      | .ok page =>
        service.tally.record (.advanced mode page.entries.length.toUInt64 page.size.toUInt64)
      | .error failure => service.tally.recordAll failure.occurrence?.toList := by
  have failed (failure : Failure) (read : (service.fetch mode id).1 = .error failure) :
      ∃ report, failure = .engine report := fetch_error pinned held read
  obtain ⟨scan, found, -⟩ := scan_of_condition held
  unfold fetch at failed ⊢
  simp only [found] at failed ⊢
  split <;> rename_i read <;> simp only [read] at failed ⊢
  · rfl
  · obtain ⟨report, rfl⟩ := failed _ rfl
    rfl

theorem seek_tally (target : Bytes) (pinned : service.Pinned)
    (held : ∀ released live, service.condition? id = some ⟨.idle, released, live⟩ → released = false) :
    ∃ occurrences, (service.seek target id).2.tally = service.tally.recordAll occurrences ∧
      occurrences.map Occurrence.plain =
        match (service.seek target id).1 with
        | .ok () => [.sought false]
        | .error failure => failure.occurrence?.toList := by
  unfold seek
  split
  · exact ⟨[], rfl, rfl⟩
  · rename_i scan found
    unfold Admission.checkSeek
    cases phase : scan.admission.phase
    · have held : scan.reader.isReleased = false :=
        held _ _ (phase ▸ condition?_eq found)
      simp only
      rcases sought : scan.reader.seek target service.engine with ⟨_ | parked, next, engine⟩
      · obtain ⟨report, rfl⟩ := Reader.seek_error (pinned id scan found) held sought
        exact ⟨[.failed], rfl, rfl⟩
      · exact ⟨[.sought parked], rfl, rfl⟩
    · exact ⟨[.refused], rfl, rfl⟩
    · exact ⟨[], rfl, rfl⟩
    · exact ⟨[], rfl, rfl⟩

end Service
end KeyScan
