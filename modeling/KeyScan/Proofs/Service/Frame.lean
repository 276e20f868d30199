import Mathlib.Algebra.Group.Nat.Defs
import KeyScan.Proofs.Reader.Frame
import KeyScan.Proofs.Service.Changes
import KeyScan.Traffic.Run

/-! What the critical sections of one scan leave to the others. A section changes the record of its own
scan and nothing else that another scan could see; the roster changes with a withdrawal only. -/
namespace KeyScan

theorem filterMap_cons_toList {α β : Type} (f : α → Option β) (item : α) (rest : List α) :
    (item :: rest).filterMap f = (f item).toList ++ rest.filterMap f := by
  rw [List.filterMap_cons]
  cases f item <;> rfl

theorem countP_cons_toNat {α : Type} (p : α → Bool) (item : α) (rest : List α) :
    (item :: rest).countP p = (p item).toNat + rest.countP p := by
  rw [List.countP_cons, Nat.add_comm]
  cases p item <;> rfl

theorem eq_nil_of_length_le_one {α : Type} {front back : List α} {item : α}
    (short : (front ++ [item] ++ back).length ≤ 1) : front = [] ∧ back = [] := by
  rw [List.length_append, List.length_append, List.length_singleton] at short
  exact ⟨List.eq_nil_of_length_eq_zero (by omega), List.eq_nil_of_length_eq_zero (by omega)⟩

namespace Roster

@[simp] theorem isLive_register (roster : Roster) (id other : ScanId) :
    (roster.register id).isLive other = (decide (other = id) || roster.isLive other) := by
  rw [Bool.eq_iff_iff]
  simp [isLive, register, ScanId.mem_place]

@[simp] theorem isLive_deregister (roster : Roster) (id other : ScanId) :
    (roster.deregister id).2.isLive other = (roster.isLive other && decide (other ≠ id)) := by
  rw [Bool.eq_iff_iff]
  simp [isLive, deregister]

end Roster

namespace Service

variable {σ ι : Type}

theorem scan?_update (service : Service σ ι) (id other : ScanId) (change : Scan ι → Scan ι) :
    (service.update id change).scan? other =
      if other = id then (service.scan? id).map change else service.scan? other := by
  simp only [scan?, update]
  induction service.scans with
  | nil => simp
  | cons entry rest ih =>
    obtain ⟨key, scan⟩ := entry
    rw [List.map_cons]
    by_cases own : key = id
    · subst own
      by_cases met : other = key
      · simp [met]
      · have apart : (other == key) = false := by simpa using met
        simp only [if_neg met] at ih
        simpa [List.lookup_cons, apart, met] using ih
    · have passed : (id == key) = false := by simpa using Ne.symm own
      by_cases met : other = key
      · simp [met, own]
      · have apart : (other == key) = false := by simpa using met
        simpa [List.lookup_cons, apart, passed, own] using ih

/-- What a section on one scan may do: the other scans keep their records and stay on the roster or off
it, and no id is given out. -/
structure Touches (id : ScanId) (before after : Service σ ι) : Prop where
  scan : ∀ other, other ≠ id → after.scan? other = before.scan? other
  live : ∀ other, other ≠ id → after.roster.isLive other = before.roster.isLive other
  ids : after.scans.map Prod.fst = before.scans.map Prod.fst
  issued : after.roster.issued = before.roster.issued

theorem Touches.refl (id : ScanId) (service : Service σ ι) : service.Touches id service :=
  ⟨fun _ _ => rfl, fun _ _ => rfl, rfl, rfl⟩

theorem Touches.trans {id : ScanId} {first second third : Service σ ι}
    (one : first.Touches id second) (two : second.Touches id third) : first.Touches id third where
  scan other apart := (two.scan other apart).trans (one.scan other apart)
  live other apart := (two.live other apart).trans (one.live other apart)
  ids := two.ids.trans one.ids
  issued := two.issued.trans one.issued

private theorem count_touches (id : ScanId) (service : Service σ ι) (occurrence : Occurrence) :
    service.Touches id (service.count occurrence) :=
  ⟨fun _ _ => rfl, fun _ _ => rfl, rfl, rfl⟩

private theorem update_touches (id : ScanId) (service : Service σ ι) (change : Scan ι → Scan ι) :
    service.Touches id (service.update id change) where
  scan other apart := by rw [scan?_update, if_neg apart]
  live _ _ := rfl
  ids := by
    unfold update
    rw [List.map_map]
    refine List.map_congr_left ?_
    intro entry _
    simp only [Function.comp_apply]
    split <;> rfl
  issued := rfl

theorem move_touches (id : ScanId) (service : Service σ ι) (engine : σ)
    (change : Scan ι → Scan ι) : service.Touches id ({ service with engine }.update id change) :=
  have touched := update_touches id { service with engine } change
  ⟨touched.scan, touched.live, touched.ids, touched.issued⟩

theorem withdraw_touches (id : ScanId) (service : Service σ ι) :
    service.Touches id (service.withdraw id) :=
  ⟨fun _ _ => rfl, fun _ apart => by simp [withdraw, apart], rfl, rfl⟩

theorem Change.touches [Engine σ ι] {id : ScanId} {before after : Service σ ι}
    (change : Change id before after) : before.Touches id after := by
  cases change with
  | count occurrence => exact count_touches id before occurrence
  | withdraw => exact withdraw_touches id before
  | pass => exact update_touches id before _
  | move => exact move_touches id before _ _

/-- A section on a scan touches that scan. -/
theorem Changes.touches [Engine σ ι] {id : ScanId} {before after : Service σ ι}
    (changes : Changes id before after) : before.Touches id after :=
  changes.lift (.refl id) (fun _ _ _ => .trans) fun _ _ => Change.touches

/-! Ids ascend with the scans that are created, as long as there are ids left. -/

/-- At most so many ids were given out, and every scan has one of them. -/
structure Numbered (service : Service σ ι) (created : Nat) : Prop where
  bounded : service.roster.issued.toNat ≤ created
  given : ∀ id ∈ service.scans.map Prod.fst, id.toNat ≤ service.roster.issued.toNat

theorem Touches.numbered {id : ScanId} {before after : Service σ ι} {created : Nat}
    (touched : before.Touches id after) (numbered : before.Numbered created) :
    after.Numbered created where
  bounded := touched.issued ▸ numbered.bounded
  given := touched.issued ▸ touched.ids ▸ numbered.given

theorem Numbered.toNat_next {service : Service σ ι} {created : Nat}
    (numbered : service.Numbered created) (room : created + 1 < 2 ^ 32) :
    (service.roster.issued + 1).toNat = service.roster.issued.toNat + 1 := by
  have bounded := numbered.bounded
  rw [UInt32.toNat_add, UInt32.toNat_one, Nat.mod_eq_of_lt (by omega)]

theorem Numbered.fresh {service : Service σ ι} {created : Nat}
    (numbered : service.Numbered created) (room : created + 1 < 2 ^ 32) :
    service.scan? (service.roster.issued + 1) = none := by
  refine List.lookup_eq_none_iff.mpr ?_
  intro entry member
  have given := numbered.given entry.1 (List.mem_map_of_mem member)
  have next := numbered.toNat_next room
  simp only [bne_iff_ne]
  intro same
  rw [← same] at given
  omega

variable [Engine σ ι] {service after : Service σ ι} {id : ScanId} {options : ScanOptions} {created : Nat}

/-- A new scan is idle, has the next id, and is put on the roster. -/
theorem create_ok (opened : service.create options = (.ok id, after)) :
    ∃ window, Window.ofOptions options = .ok window ∧ id = service.roster.issued + 1 ∧
      after.scans = service.scans ++
        [(id, {
          reader := (Reader.new window options.fillCache service.engine).1
          highWaterMark := options.highWaterMark
          keyAsBuffer := options.keyAsBuffer
          valueAsBuffer := options.valueAsBuffer })] ∧
      after.roster = (service.roster.allocate.2).register id ∧
      after.engine = (Engine.acquire service.engine).2 := by
  unfold create at opened
  split at opened
  · cases opened
  · rename_i window accepted
    cases opened
    exact ⟨window, accepted, rfl, rfl, rfl, rfl⟩

theorem create_accepted (service : Service σ ι) {window : Window}
    (accepted : Window.ofOptions options = .ok window) :
    ∃ id after, service.create options = (.ok id, after) := by
  unfold create
  rw [accepted]
  exact ⟨_, _, rfl⟩

theorem create_error {failure : Failure} (refused : service.create options = (.error failure, after)) :
    after = service := by
  unfold create at refused
  split at refused
  · cases refused
    rfl
  · cases refused

theorem Numbered.create (numbered : service.Numbered created) (room : created + 1 < 2 ^ 32)
    (opened : service.create options = (.ok id, after)) : after.Numbered (created + 1) := by
  obtain ⟨window, -, rfl, scans, roster, -⟩ := create_ok opened
  have next := numbered.toNat_next room
  have issued : after.roster.issued = service.roster.issued + 1 := by
    rw [roster]
    rfl
  refine ⟨by rw [issued, next]; exact Nat.succ_le_succ numbered.bounded, ?_⟩
  intro id member
  rw [scans, List.map_append, List.mem_append] at member
  rw [issued, next]
  rcases member with old | new
  · exact Nat.le_succ_of_le (numbered.given id old)
  · rw [List.map_singleton, List.mem_singleton] at new
    exact Nat.le_of_eq (by rw [new, next])

theorem create_own (numbered : service.Numbered created) (room : created + 1 < 2 ^ 32)
    (opened : service.create options = (.ok id, after)) :
    ∃ window, Window.ofOptions options = .ok window ∧
      after.scan? id = some {
        reader := (Reader.new window options.fillCache service.engine).1
        highWaterMark := options.highWaterMark
        keyAsBuffer := options.keyAsBuffer
        valueAsBuffer := options.valueAsBuffer } ∧
      after.roster.isLive id = true ∧ after.engine = (Engine.acquire service.engine).2 := by
  obtain ⟨window, accepted, rfl, scans, roster, engine⟩ := create_ok opened
  have missing := numbered.fresh room
  unfold scan? at missing
  refine ⟨window, accepted, ?_, ?_, engine⟩
  · unfold scan?
    rw [scans, List.lookup_append, missing, Option.none_or, List.lookup_cons_self]
  · rw [roster, Roster.isLive_register, decide_eq_true rfl, Bool.true_or]

/-- A new scan leaves the others as they were. -/
theorem create_others {other : ScanId} (opened : service.create options = (.ok id, after))
    (apart : other ≠ id) :
    after.scan? other = service.scan? other ∧
      after.roster.isLive other = service.roster.isLive other := by
  obtain ⟨window, -, rfl, scans, roster, -⟩ := create_ok opened
  constructor
  · unfold scan?
    have missed : (other == service.roster.issued + 1) = false := by simpa using apart
    rw [scans, List.lookup_append]
    simp [List.lookup_cons, missed]
  · rw [roster, Roster.isLive_register]
    simp [apart, Roster.allocate, Roster.isLive]

end Service

variable {σ ι : Type} [Engine σ ι]

/-- A relation between services that every section on one scan respects. -/
structure Respected (id : ScanId) (R : Service σ ι → Service σ ι → Prop) : Prop where
  refl : ∀ service, R service service
  trans : ∀ first second third, R first second → R second third → R first third
  seek : ∀ service target, R service (service.seek target id).2
  beginAdvance : ∀ service, R service (service.beginAdvance id).2
  fetch : ∀ service mode, R service (service.fetch mode id).2
  leave : ∀ service, R service (service.leave id).2
  requestEnd : ∀ service waiter, R service (service.requestEnd waiter id).2
  release : ∀ service, R service (service.release id)
  withdraw : ∀ service, R service (service.withdraw id)
  conclude : ∀ service, R service (service.conclude id).2
  count : ∀ service occurrence, R service (service.count occurrence)

namespace Respected

variable {id : ScanId} {R : Service σ ι → Service σ ι → Prop}

/-- A relation that holds across each change of which a section is made is respected. -/
theorem of_change (refl : ∀ service, R service service)
    (trans : ∀ first second third, R first second → R second third → R first third)
    (each : ∀ before after, Service.Change id before after → R before after) : Respected id R where
  refl := refl
  trans := trans
  seek service target := (service.seek_changes id target).lift refl trans each
  beginAdvance service := (service.beginAdvance_changes id).lift refl trans each
  fetch service mode := (service.fetch_changes id mode).lift refl trans each
  leave service := (service.leave_changes id).lift refl trans each
  requestEnd service waiter := (service.requestEnd_changes id waiter).lift refl trans each
  release service := (service.release_changes id).lift refl trans each
  withdraw _ := each _ _ .withdraw
  conclude service := (service.conclude_changes id).lift refl trans each
  count _ occurrence := each _ _ (.count occurrence)

theorem and {S : Service σ ι → Service σ ι → Prop} (one : Respected id R) (other : Respected id S) :
    Respected id fun before after => R before after ∧ S before after where
  refl service := ⟨one.refl service, other.refl service⟩
  trans first second third before after :=
    ⟨one.trans first second third before.1 after.1, other.trans first second third before.2 after.2⟩
  seek service target := ⟨one.seek service target, other.seek service target⟩
  beginAdvance service := ⟨one.beginAdvance service, other.beginAdvance service⟩
  fetch service mode := ⟨one.fetch service mode, other.fetch service mode⟩
  leave service := ⟨one.leave service, other.leave service⟩
  requestEnd service waiter := ⟨one.requestEnd service waiter, other.requestEnd service waiter⟩
  release service := ⟨one.release service, other.release service⟩
  withdraw service := ⟨one.withdraw service, other.withdraw service⟩
  conclude service := ⟨one.conclude service, other.conclude service⟩
  count service occurrence := ⟨one.count service occurrence, other.count service occurrence⟩

theorem run (respected : Respected id R) (call : Nat) (stage : Stage) (service : Service σ ι) :
    R service (Task.run ⟨call, id, stage⟩ service).2.2 := by
  cases stage with
  | fetch mode => exact respected.fetch service mode
  | leave mode outcome =>
    have left := respected.leave service
    unfold Task.run
    simp only
    split <;> exact left
  | deliver outcome pending => exact respected.refl service
  | release ending => exact respected.release service
  | withdraw ending => exact respected.withdraw service
  | conclude ending => exact respected.conclude service
  | settle ending => exact respected.count service _

theorem startAction (respected : Respected id R) (action : Action) (call : Nat)
    (traffic : Traffic σ ι) :
    R traffic.service (traffic.startAction action id call).2.service := by
  cases action with
  | seek target =>
    have kept := respected.seek traffic.service target
    unfold Traffic.startAction
    simp only
    split <;> rename_i sought <;> rwa [sought] at kept
  | advance mode =>
    have kept := respected.beginAdvance traffic.service
    unfold Traffic.startAction
    simp only
    split <;> rename_i begun <;> rwa [begun] at kept
  | endNow =>
    have kept := respected.requestEnd traffic.service none
    unfold Traffic.startAction
    simp only
    split <;> rename_i asked <;> rwa [asked] at kept
  | endLater =>
    have kept := respected.requestEnd traffic.service (some call)
    unfold Traffic.startAction
    simp only
    split <;> rename_i asked <;> rwa [asked] at kept

end Respected

theorem Service.touches_respected (id : ScanId) :
    Respected (σ := σ) (ι := ι) id (Service.Touches id) :=
  .of_change (.refl id) (fun _ _ _ => .trans) fun _ _ => Change.touches

theorem Task.run_touches (task : Task) (service : Service σ ι) :
    service.Touches task.id (task.run service).2.2 :=
  (Service.touches_respected task.id).run task.call task.stage service

theorem Task.run_id {task next : Task} {service : Service σ ι}
    (left : (task.run service).2.1 = some next) : next.id = task.id := by
  unfold Task.run at left
  split at left
  · cases left
    rfl
  · simp only at left
    split at left <;> cases left <;> rfl
  · simp only at left
    split at left <;> cases left
    rfl
  · cases left
    rfl
  · cases left
    rfl
  · cases left
    rfl
  · cases left

theorem Traffic.startAction_touches (action : Action) (id : ScanId) (call : Nat)
    (traffic : Traffic σ ι) :
    traffic.service.Touches id (traffic.startAction action id call).2.service :=
  (Service.touches_respected id).startAction action call traffic

theorem Traffic.ask_touches (closing : Closing) (id : ScanId) (traffic : Traffic σ ι) :
    traffic.service.Touches id (traffic.ask closing id).2.2.service := by
  have touched := (traffic.service.requestOrJoinEnd_changes id traffic.calls).touches
  unfold ask
  simp only
  split <;> rename_i asked <;> rwa [asked] at touched

/-- A property of services that every section keeps, on whatever scan it runs. -/
structure Service.Kept (P : Service σ ι → Prop) : Prop where
  sections : ∀ id, Respected id fun before after => P before → P after
  join : ∀ service waiter id, P service → P (service.requestOrJoinEnd waiter id).2.2

/-- Every section keeps what is kept by each change of which a section is made. -/
theorem Service.Kept.of_change {P : Service σ ι → Prop}
    (each : ∀ id before after, Change id before after → P before → P after) : Kept P where
  sections id :=
    .of_change (fun _ holds => holds) (fun _ _ _ one two holds => two (one holds)) (each id)
  join service waiter id holds :=
    (service.requestOrJoinEnd_changes id waiter).kept holds (each id)

/-! What holds of every scan on record. -/

namespace Service

/-- Something holds of every scan on record. -/
def Every (Q : Scan ι → Prop) (service : Service σ ι) : Prop :=
  ∀ id scan, service.scan? id = some scan → Q scan

variable {Q : Scan ι → Prop} {service after : Service σ ι} {id : ScanId} {scan : Scan ι}

omit [Engine σ ι] in
theorem Every.move (every : service.Every Q) (found : service.scan? id = some scan) (engine : σ)
    {change : Scan ι → Scan ι} (own : Q (change scan)) :
    ({ service with engine }.update id change).Every Q := by
  have before : ({ service with engine } : Service σ ι).scan? id = some scan := found
  intro other record known
  rw [scan?_update] at known
  split at known
  · rw [before, Option.map_some, Option.some.injEq] at known
    exact known ▸ own
  · exact every other record known

/-- What the admission and the reader of a scan keep, every section keeps for all scans. -/
theorem every_kept
    (pass : ∀ scan admission, Q scan → scan.admission.Step admission → Q { scan with admission })
    (move : ∀ scan reader (engine after : σ), Q scan → scan.reader.Step engine reader after →
      Q { scan with reader }) :
    Kept fun service : Service σ ι => service.Every Q :=
  .of_change fun id before _ change every => by
    cases change with
    | count | withdraw => exact every
    | @pass scan admission found step =>
      exact every.move found before.engine (pass scan admission (every id scan found) step)
    | @move scan reader engine found step =>
      exact every.move found engine (move scan reader _ _ (every id scan found) step)

theorem Every.create {options : ScanOptions} (every : service.Every Q)
    (opened : service.create options = (.ok id, after))
    (new : ∀ window, Q {
      reader := (Reader.new window options.fillCache service.engine).1
      highWaterMark := options.highWaterMark
      keyAsBuffer := options.keyAsBuffer
      valueAsBuffer := options.valueAsBuffer }) : after.Every Q := by
  obtain ⟨window, -, -, scans, -, -⟩ := create_ok opened
  intro other scan found
  unfold scan? at found
  rw [scans, List.lookup_append] at found
  cases known : service.scans.lookup other with
  | some old =>
    rw [known, Option.some_or, Option.some.injEq] at found
    exact found ▸ every other old known
  | none =>
    rw [known, Option.none_or, List.lookup_cons] at found
    split at found <;> cases found
    exact new window

end Service

namespace Traffic

variable {P : Service σ ι → Prop} {traffic : Traffic σ ι}

theorem start_kept (kept : Service.Kept P) (request : Request) (holds : P traffic.service)
    (create : ∀ options id after, request = .create options →
      traffic.service.create options = (.ok id, after) → P after) :
    P (traffic.start request).2.service := by
  simp only [start, startRequest]
  split
  · split <;> rename_i opened
    · exact create _ _ _ rfl opened
    · exact Service.create_error opened ▸ holds
  · exact (kept.sections _).startAction _ _ _ holds
  · split
    · exact (kept.sections _).startAction _ _ _ holds
    · exact holds
  · split <;> exact holds

/-- Every act keeps what all sections keep, unless it creates a scan. -/
theorem act_kept (kept : Service.Kept P) (act : Act) (holds : P traffic.service)
    (create : ∀ options id after, act = .call (.create options) →
      traffic.service.create options = (.ok id, after) → P after) :
    P (traffic.act act).2.service := by
  cases act with
  | call request =>
    exact start_kept kept request holds fun options id after same => create options id after (same ▸ rfl)
  | run place =>
    simp only [Traffic.act, runTask]
    split
    · exact holds
    · rename_i task _
      exact (kept.sections task.id).run task.call task.stage _ holds
  | pursue place =>
    simp only [Traffic.act, pursue]
    split
    · exact holds
    · split
      · rename_i other _ _
        have joined := kept.join traffic.service traffic.calls other holds
        simp only [ask]
        split <;> rename_i asked <;> rwa [asked] at joined
      · exact holds
      · exact holds

end Traffic
end KeyScan
