import Mathlib.Data.List.Perm.Basic
import KeyScan.Proofs.Service.Isolation
import KeyScan.Proofs.Service.Pins

namespace KeyScan

private theorem MemoryEngine.census_ofWrites (writes : List Write) : census.Holds (ofWrites writes) [] := by
  suffices kept : ∀ engine, census.Holds engine [] → census.Holds (writes.foldl apply engine) [] from
    kept empty census_empty
  induction writes with
  | nil => exact fun _ holds => holds
  | cons write rest ih =>
    intro engine holds
    apply ih
    unfold apply
    cases write.value with
    | none => exact holds
    | some value => exact holds

namespace Service

/-- Nothing is left of a scan: it is not live, and its reader is released. -/
def Gone (service : Service MemoryEngine TableWalker) (id : ScanId) : Prop :=
  service.roster.isLive id = false ∧
    ∀ scan, service.scan? id = some scan → scan.reader.isReleased = true

/-- What a section on a scan does to a service: nothing to other scans, no write, and nothing that a reader
would lose its snapshot by. -/
def Within (id : ScanId) (before after : Service MemoryEngine TableWalker) : Prop :=
  (before.Touches id after ∧ before.engine.Agrees after.engine) ∧
    (before.Pinned → after.Pinned) ∧
      (before.Balanced MemoryEngine.census [] → after.Balanced MemoryEngine.census [])

theorem within_respected (id : ScanId) : Respected id (Within id) :=
  ((touches_respected id).and (agrees_respected id)).and
    ((pinned_kept.sections id).and ((balanced_kept MemoryEngine.census []).sections id))

/-- A service whose engine has taken some writes and that has created so many scans at most. It has given
out these ids, nothing is left of the scans with others, and nobody else holds a snapshot. -/
structure Minds (service : Service MemoryEngine TableWalker) (writes : List MemoryEngine.Write)
    (created : Nat) (ids : List ScanId) : Prop where
  few : writes.length < 2 ^ 64
  room : created < 2 ^ 32
  sound : service.Sound writes created
  pinned : service.Pinned
  balanced : service.Balanced MemoryEngine.census []
  distinct : ids.Nodup
  issued : ∀ id ∈ ids, service.roster.wasIssued id = true
  gone : ∀ id ∉ ids, service.Gone id

/-- A service that minds some scans, all of them open with one high water mark and nothing being done on
them, each with what it has before it. -/
structure Attends (service : Service MemoryEngine TableWalker) (writes : List MemoryEngine.Write)
    (created mark : Nat) (scans : List (ScanId × Outlook)) : Prop
    extends service.Minds writes created (scans.map Prod.fst) where
  serves : ∀ scan ∈ scans, service.Serves scan.1 .idle mark scan.2

variable {service after : Service MemoryEngine TableWalker} {writes : List MemoryEngine.Write}
  {created mark : Nat} {ids : List ScanId} {scans : List (ScanId × Outlook)} {id : ScanId}
  {outlook next : Outlook}

theorem Serves.within {other : ScanId} {phase : Phase}
    (serves : service.Serves other phase mark outlook) (within : service.Within id after)
    (apart : other ≠ id) : after.Serves other phase mark outlook :=
  serves.kept (within.1.1.scan other apart) (within.1.1.live other apart) within.1.2.extends

theorem Minds.perm {others : List ScanId} (minds : service.Minds writes created ids)
    (same : ids.Perm others) : service.Minds writes created others where
  few := minds.few
  room := minds.room
  sound := minds.sound
  pinned := minds.pinned
  balanced := minds.balanced
  distinct := same.nodup_iff.mp minds.distinct
  issued id member := minds.issued id (same.mem_iff.mpr member)
  gone id missing := minds.gone id fun member => missing (same.mem_iff.mp member)

/-- A service minds the same scans after a section on one of them. -/
theorem Minds.within (minds : service.Minds writes created ids) (member : id ∈ ids)
    (within : service.Within id after) : after.Minds writes created ids where
  few := minds.few
  room := minds.room
  sound := ⟨minds.sound.holds.agrees within.1.2, within.1.1.numbered minds.sound.numbered⟩
  pinned := within.2.1 minds.pinned
  balanced := within.2.2 minds.balanced
  distinct := minds.distinct
  issued other given := wasIssued_of_eq within.1.1.issued (minds.issued other given)
  gone other missing := by
    have apart : other ≠ id := fun same => missing (same ▸ member)
    obtain ⟨dead, released⟩ := minds.gone other missing
    exact ⟨(within.1.1.live other apart).trans dead, fun scan found =>
      released scan ((within.1.1.scan other apart).symm.trans found)⟩

theorem Minds.forget (minds : service.Minds writes created (id :: ids)) (gone : service.Gone id) :
    service.Minds writes created ids where
  few := minds.few
  room := minds.room
  sound := minds.sound
  pinned := minds.pinned
  balanced := minds.balanced
  distinct := (List.nodup_cons.mp minds.distinct).2
  issued other member := minds.issued other (List.mem_cons_of_mem _ member)
  gone other missing := by
    by_cases same : other = id
    · exact same ▸ gone
    · exact minds.gone other (List.not_mem_cons_of_ne_of_not_mem same missing)

theorem attends_fresh (workers mark : Nat) (few : writes.length < 2 ^ 64) :
    Attends { workers, engine := .ofWrites writes } writes 0 mark [] where
  few := few
  room := Nat.two_pow_pos 32
  sound := ⟨MemoryEngine.holds_ofWrites few, Nat.le_refl _, fun _ member => absurd member List.not_mem_nil⟩
  pinned := by
    intro id scan found
    cases found
  balanced := ⟨List.nodup_nil, MemoryEngine.census_ofWrites writes⟩
  distinct := List.nodup_nil
  issued _ member := absurd member List.not_mem_nil
  gone id _ := by
    refine ⟨rfl, ?_⟩
    intro scan found
    cases found
  serves _ member := absurd member List.not_mem_nil

theorem Attends.perm {others : List (ScanId × Outlook)}
    (attends : service.Attends writes created mark scans) (same : scans.Perm others) :
    service.Attends writes created mark others where
  toMinds := attends.toMinds.perm (same.map Prod.fst)
  serves scan member := attends.serves scan (same.mem_iff.mpr member)

theorem Attends.remark (attends : service.Attends writes created mark []) (other : Nat) :
    service.Attends writes created other [] :=
  ⟨attends.toMinds, fun _ member => absurd member List.not_mem_nil⟩

theorem Attends.stands (attends : service.Attends writes created mark scans)
    {scan : ScanId × Outlook} (member : scan ∈ scans) :
    service.Stands scan.1 (.open mark scan.2) :=
  ⟨attends.issued scan.1 (List.mem_map_of_mem member), attends.serves scan member⟩

/-- Where a service attends to nothing, no scan is live and no snapshot is in use. -/
theorem Attends.nothing (attends : service.Attends writes created mark []) :
    service.roster.live = [] ∧ service.engine.snapshots.size = 0 := by
  constructor
  · apply List.eq_nil_iff_forall_not_mem.mpr
    intro id live
    have gone := (attends.gone id List.not_mem_nil).1
    rw [Roster.isLive, List.contains_iff_mem.mpr live] at gone
    cases gone
  · have none : service.pins = [] := by
      apply List.filterMap_eq_nil_iff.mpr
      intro entry member
      have found := scan?_of_mem attends.balanced.distinct member
      have released := (attends.gone entry.1 List.not_mem_nil).2 entry.2 found
      have pinned := attends.pinned entry.1 entry.2 found
      rw [Reader.Pinned, released] at pinned
      exact Option.not_isSome_iff_eq_none.mp (by simp [pinned])
    have held := attends.balanced.held
    rw [none] at held
    exact MemoryEngine.census.size_eq held

theorem Attends.others (attends : service.Attends writes created mark ((id, outlook) :: scans))
    (within : service.Within id after) :
    after.Minds writes created (id :: scans.map Prod.fst) ∧
      ∀ scan ∈ scans, after.Serves scan.1 .idle mark scan.2 := by
  have fresh : id ∉ scans.map Prod.fst := (List.nodup_cons.mp attends.distinct).1
  refine ⟨attends.toMinds.within List.mem_cons_self within, fun scan member => ?_⟩
  refine (attends.serves scan (List.mem_cons_of_mem _ member)).within within ?_
  rintro rfl
  exact fresh (List.mem_map_of_mem member)

/-- A seek or an advance is answered as the scan stands and moves it on. -/
theorem Attends.act {action : Action} {reply : Reply}
    (attends : service.Attends writes created mark ((id, outlook) :: scans))
    (answered : (Standing.open mark outlook).answer action = (reply, .open mark next)) :
    ∃ after, service.perform (.scan .roster id action) = (reply, after) ∧
      after.Attends writes created mark ((id, next) :: scans) := by
  obtain ⟨after, performed, own⟩ :=
    perform_stands (attends.stands List.mem_cons_self) .roster action
  have within := perform_respects (within_respected id) service .roster action
  rw [answered] at performed own
  rw [performed] at within
  obtain ⟨minds, others⟩ := attends.others within
  exact ⟨after, performed, minds, List.forall_mem_cons.mpr ⟨own.2, others⟩⟩

private theorem gone_of_condition {phase : Phase}
    (found : service.condition? id = some ⟨phase, true, false⟩) :
    service.Gone id := by
  obtain ⟨scan, known, -, released, dead⟩ := scan_of_condition found
  refine ⟨dead, ?_⟩
  intro other same
  cases known.symm.trans same
  exact released

private theorem perform_endNow_gone (serves : service.Serves id .idle mark outlook) :
    (service.perform (.scan .roster id .endNow)).2.Gone id := by
  obtain ⟨live, scan, sequence, found, idle, -⟩ := serves
  obtain ⟨middle, asked, taken, -⟩ := requestEnd_idle none found idle
  have started : Traffic.start (.scan .roster id .endNow) { service } =
      ([.called 0 (.scan .roster id .endNow), .granted 0 id false],
        { service := middle, tasks := [⟨0, id, .release ⟨false, some (.ended true)⟩⟩], calls := 1 }) := by
    rw [Traffic.start_live { service } live]
    simp [Traffic.startAction, asked, Traffic.addTask]
  have out : Task.RunsOut ⟨0, id, .release ⟨false, some (.ended true)⟩⟩ middle _ _ :=
    .more rfl (.more rfl (.more rfl (.last rfl)))
  rw [perform_task started out]
  have ended := conclude_condition (withdraw_condition (release_condition (condition?_eq taken)))
  exact gone_of_condition ended

theorem Attends.endNow (attends : service.Attends writes created mark ((id, outlook) :: scans)) :
    ∃ after, service.perform (.scan .roster id .endNow) = (.ended true, after) ∧
      after.Attends writes created mark scans := by
  have stands := attends.stands List.mem_cons_self
  obtain ⟨after, performed, -⟩ := perform_stands stands .roster .endNow
  have within := perform_respects (within_respected id) service .roster .endNow
  have gone := perform_endNow_gone stands.2
  rw [performed] at within gone
  obtain ⟨minds, others⟩ := attends.others within
  exact ⟨after, performed, minds.forget gone, others⟩

/-- A new scan joins the others, at the start of its window over the contents. -/
theorem Attends.create {options : ScanOptions} {window : Window}
    (attends : service.Attends writes created mark scans) (room : created + 1 < 2 ^ 32)
    (accepted : Window.ofOptions options = .ok window) (marked : options.highWaterMark = mark) :
    ∃ id after, service.perform (.create options) = (.created id, after) ∧
      after.Attends writes (created + 1) mark
        ((id, .start window (MemoryEngine.contents writes)) :: scans) := by
  obtain ⟨id, after, opened⟩ := create_accepted service accepted
  refine ⟨id, after, perform_create opened, ?_⟩
  have unused := attends.sound.numbered.fresh room
  obtain ⟨_, same, stands⟩ := create_stands attends.sound.numbered room opened
  cases same.symm.trans accepted
  rw [marked, attends.sound.holds.shown] at stands
  have new : id = service.roster.issued + 1 := (create_ok opened).choose_spec.2.1
  have unlisted : id ∉ service.scans.map Prod.fst := by
    intro listed
    have given := attends.sound.numbered.given id listed
    rw [new, attends.sound.numbered.toNat_next room] at given
    omega
  have apart : id ∉ scans.map Prod.fst := by
    intro listed
    obtain ⟨entry, member, rfl⟩ := List.mem_map.mp listed
    obtain ⟨-, scan, _, found, -⟩ := attends.serves entry member
    rw [new, unused] at found
    cases found
  obtain ⟨_, -, -, -, roster, engine⟩ := create_ok opened
  have issued : ∀ other ∈ scans.map Prod.fst, after.roster.wasIssued other = true := by
    intro other member
    have given := attends.issued other member
    have next := attends.sound.numbered.toNat_next room
    rw [roster]
    simp only [Roster.wasIssued, Roster.register, Roster.allocate, Bool.and_eq_true, decide_eq_true_eq,
      UInt32.le_iff_toNat_le] at given ⊢
    exact ⟨given.1, by omega⟩
  have others (scan : ScanId × Outlook) (member : scan ∈ scans) :
      after.Serves scan.1 .idle mark scan.2 := by
    have distinct : scan.1 ≠ id := by
      rintro rfl
      exact apart (List.mem_map_of_mem member)
    obtain ⟨same, live⟩ := create_others opened distinct
    exact (attends.serves scan member).kept same live (engine ▸ service.engine.acquire_agrees.extends)
  refine ⟨⟨attends.few, room, attends.sound.create room opened, attends.pinned.create opened,
    attends.balanced.create opened unlisted, List.nodup_cons.mpr ⟨apart, attends.distinct⟩,
    List.forall_mem_cons.mpr ⟨stands.1, issued⟩, ?_⟩, List.forall_mem_cons.mpr ⟨stands.2, others⟩⟩
  intro other missing
  obtain ⟨apart, absent⟩ := not_or.mp (mt List.mem_cons.mpr missing)
  obtain ⟨scan, live⟩ := create_others opened apart
  obtain ⟨dead, released⟩ := attends.gone other absent
  exact ⟨live.trans dead, fun record found => released record (scan.symm.trans found)⟩

end Service
end KeyScan
