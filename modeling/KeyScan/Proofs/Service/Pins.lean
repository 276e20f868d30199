import KeyScan.Proofs.Engine.Census
import KeyScan.Proofs.Reader.Pin
import KeyScan.Proofs.Service.Condition

/-! What a service holds of its engine. Each reader on record has its snapshot until it is released, so
the snapshots in use are those of the readers that are not, beside those that others have taken. -/
namespace KeyScan

theorem Reader.Pinned.step {σ ι : Type} [Engine σ ι] {reader next : Reader ι} {engine after : σ}
    (pinned : reader.Pinned) (step : reader.Step engine next after) : next.Pinned := by
  cases step with
  | seek target => exact pinned.seek engine target
  | page highWaterMark => exact pinned.page engine highWaterMark
  | release => exact Reader.pinned_release engine reader

namespace Service

variable {σ ι : Type}

/-- Every reader has a snapshot unless it is released. -/
def Pinned (service : Service σ ι) : Prop :=
  ∀ id scan, service.scan? id = some scan → scan.reader.Pinned

/-- The snapshots that the readers hold. -/
def pins (service : Service σ ι) : List Sequence :=
  service.scans.filterMap fun entry => entry.2.reader.pin

section Records

variable {service : Service σ ι} {id : ScanId} {scan : Scan ι}

/-- Ids that are distinct tell the scans on record apart. -/
theorem scans_split (distinct : (service.scans.map Prod.fst).Nodup)
    (found : service.scan? id = some scan) :
    ∃ front back, service.scans = front ++ (id, scan) :: back ∧
      ∀ entry ∈ front ++ back, entry.1 ≠ id := by
  obtain ⟨front, back, split, passed⟩ := List.lookup_eq_some_iff.mp found
  refine ⟨front, back, split, ?_⟩
  rw [split, List.map_append, List.map_cons] at distinct
  intro entry member same
  rcases List.mem_append.mp member with earlier | later
  · have apart := passed entry earlier
    simp [same] at apart
  · have tail := (List.nodup_append.mp distinct).2.1
    have here : entry.1 ∈ back.map Prod.fst := List.mem_map_of_mem later
    exact (List.nodup_cons.mp tail).1 (same ▸ here)

theorem scan?_of_mem {entry : ScanId × Scan ι} (distinct : (service.scans.map Prod.fst).Nodup)
    (member : entry ∈ service.scans) : service.scan? entry.1 = some entry.2 := by
  obtain ⟨front, back, split⟩ := List.append_of_mem member
  refine List.lookup_eq_some_iff.mpr ⟨front, back, split, fun other earlier => ?_⟩
  rw [split, List.map_append, List.map_cons] at distinct
  have apart := (List.nodup_append.mp distinct).2.2 other.1 (List.mem_map_of_mem earlier) entry.1
    List.mem_cons_self
  simpa using Ne.symm apart

/-- An update changes the snapshot of one reader at most. -/
theorem pins_update (distinct : (service.scans.map Prod.fst).Nodup)
    (found : service.scan? id = some scan) :
    ∃ others, service.pins.Perm (scan.reader.pin.toList ++ others) ∧
      ∀ change, (service.update id change).pins.Perm ((change scan).reader.pin.toList ++ others) := by
  obtain ⟨front, back, split, apart⟩ := scans_split distinct found
  let pin (entry : ScanId × Scan ι) : Option Sequence := entry.2.reader.pin
  have middle (entry : ScanId × Scan ι) : ((front ++ entry :: back).filterMap pin).Perm
      ((pin entry).toList ++ (front ++ back).filterMap pin) := by
    rw [List.filterMap_append, List.filterMap_append, filterMap_cons_toList, ← List.append_assoc,
      ← List.append_assoc]
    exact List.perm_append_comm.append_right _
  refine ⟨(front ++ back).filterMap pin, ?_, fun change => ?_⟩
  · have own := middle (id, scan)
    rw [← split] at own
    exact own
  · have kept (entries : List (ScanId × Scan ι)) (others : ∀ entry ∈ entries, entry.1 ≠ id) :
        entries.map (fun entry => if entry.1 = id then (entry.1, change entry.2) else entry) = entries :=
      (List.map_congr_left fun entry member => if_neg (others entry member)).trans (List.map_id' _)
    have same : (service.update id change).scans = front ++ (id, change scan) :: back := by
      simp only [update, split, List.map_append, List.map_cons, if_true]
      rw [kept front fun entry member => apart entry (List.mem_append_left _ member),
        kept back fun entry member => apart entry (List.mem_append_right _ member)]
    have own := middle (id, change scan)
    rw [← same] at own
    exact own

end Records

variable [Engine σ ι]

theorem pinned_kept : Kept fun service : Service σ ι => service.Pinned :=
  every_kept (fun _ _ pinned _ => pinned) fun _ _ _ _ pinned step => pinned.step step

theorem Pinned.create {service after : Service σ ι} {id : ScanId} {options : ScanOptions}
    (pinned : service.Pinned) (opened : service.create options = (.ok id, after)) : after.Pinned :=
  Every.create pinned opened fun _ => rfl

/-- The page of a reader that is held fails only where the engine does. -/
theorem fetch_error {service : Service σ ι} {id : ScanId} {phase : Phase} {live : Bool} {mode : Mode}
    {failure : Failure} (pinned : service.Pinned)
    (held : service.condition? id = some ⟨phase, false, live⟩)
    (failed : (service.fetch mode id).1 = .error failure) : ∃ report, failure = .engine report := by
  obtain ⟨scan, found, -, held, -⟩ := scan_of_condition held
  simp only [fetch, found] at failed
  rcases read : scan.reader.page scan.highWaterMark service.engine with ⟨_ | _, next, after⟩
  · rw [read] at failed
    cases failed
    exact Reader.page_error (pinned id scan found) held read
  · rw [read] at failed
    cases failed

/-! The balance of an engine and the readers of a service. -/

section Balance

variable {census : Census σ} {others : List Sequence}

/-- The snapshots in use are those that the readers hold, and others. -/
structure Balanced (census : Census σ) (others : List Sequence) (service : Service σ ι) : Prop where
  distinct : (service.scans.map Prod.fst).Nodup
  held : census.Holds service.engine (service.pins ++ others)

variable {service after : Service σ ι} {id : ScanId} {scan : Scan ι}

/-- An update keeps the balance if the engine and the reader agree on what becomes of the snapshot. -/
theorem Balanced.move (balanced : service.Balanced census others)
    (found : service.scan? id = some scan) {engine : σ} {change : Scan ι → Scan ι}
    (agree : ∀ rest, census.Holds service.engine (scan.reader.pin.toList ++ rest) →
      census.Holds engine ((change scan).reader.pin.toList ++ rest)) :
    ({ service with engine }.update id change).Balanced census others where
  distinct := (move_touches id service engine change).ids ▸ balanced.distinct
  held := by
    obtain ⟨rest, before, next⟩ := pins_update balanced.distinct found
    have held := census.perm balanced.held (before.append_right others)
    rw [List.append_assoc] at held
    have kept := agree _ held
    rw [← List.append_assoc] at kept
    exact census.perm kept ((next change).symm.append_right others)

private theorem release_agree (reader : Reader ι) {engine : σ} {rest : List Sequence}
    (held : census.Holds engine (reader.pin.toList ++ rest)) :
    census.Holds (reader.release engine).2.2 ((reader.release engine).2.1.pin.toList ++ rest) := by
  have closed (iterator : ι) := census.close iterator held
  unfold Reader.release
  cases pin : reader.pin with
  | none =>
    simp only [pin] at held closed ⊢
    split
    · exact closed _
    · exact held
    · exact held
  | some sequence =>
    simp only [pin] at held closed ⊢
    refine census.release ?_
    split
    · exact closed _
    · exact held
    · exact held

private theorem step_agree {reader next : Reader ι} {engine after : σ} {rest : List Sequence}
    (step : reader.Step engine next after) (held : census.Holds engine (reader.pin.toList ++ rest)) :
    census.Holds after (next.pin.toList ++ rest) := by
  cases step with
  | seek target =>
    rw [reader.seek_pin engine target]
    exact reader.seek_respects census.respects engine target _ held
  | page highWaterMark =>
    simp only [reader.page_pin engine highWaterMark]
    exact reader.page_respects census.respects engine highWaterMark _ held
  | release => exact release_agree reader held

theorem balanced_kept (census : Census σ) (others : List Sequence) :
    Kept fun service : Service σ ι => service.Balanced census others :=
  .of_change fun id before _ change balanced => by
    cases change with
    | count | withdraw => exact ⟨balanced.distinct, balanced.held⟩
    | pass found => exact balanced.move found fun _ held => held
    | move found step => exact balanced.move found fun _ held => step_agree step held

theorem Balanced.create {options : ScanOptions} (balanced : service.Balanced census others)
    (opened : service.create options = (.ok id, after))
    (fresh : id ∉ service.scans.map Prod.fst) : after.Balanced census others := by
  obtain ⟨window, -, -, scans, -, engine⟩ := create_ok opened
  refine ⟨?_, ?_⟩
  · rw [scans, List.map_append, List.map_singleton]
    refine List.nodup_append.mpr ⟨balanced.distinct, by simp, ?_⟩
    rintro one old other new rfl
    rw [List.mem_singleton.mp new] at old
    exact fresh old
  · have taken : after.pins = service.pins ++ [(Engine.acquire service.engine).1] := by
      unfold pins
      rw [scans, List.filterMap_append]
      rfl
    rw [engine, taken, List.append_assoc]
    exact census.perm (census.acquire balanced.held) List.perm_middle.symm

end Balance

end Service
end KeyScan
