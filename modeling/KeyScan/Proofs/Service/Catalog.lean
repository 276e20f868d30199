import Mathlib.Data.List.Nodup
import KeyScan.Proofs.Service.Frame

namespace KeyScan

namespace Service

variable {σ ι : Type}

/-- The scans on record have these ids, in the order in which they were given out. -/
structure Catalogued (ids : List ScanId) (service : Service σ ι) : Prop where
  keyed : service.scans.map Prod.fst = ids
  issued : service.roster.issued.toNat = ids.length
  consecutive : ids.map UInt32.toNat = List.range' 1 ids.length
  rostered : ∀ id, service.roster.isLive id = true → id ∈ ids

theorem catalogued_fresh (workers : Nat) (engine : σ) :
    Catalogued [] ({ workers, engine } : Service σ ι) :=
  ⟨rfl, rfl, rfl, fun _ live => by cases live⟩

variable {service after : Service σ ι} {ids : List ScanId} {id : ScanId}

theorem Catalogued.nodup (catalogued : service.Catalogued ids) : ids.Nodup := by
  refine List.Nodup.of_map UInt32.toNat ?_
  rw [catalogued.consecutive]
  exact List.nodup_range'

theorem Catalogued.numbered (catalogued : service.Catalogued ids) : service.Numbered ids.length where
  bounded := Nat.le_of_eq catalogued.issued
  given id member := by
    have counted : id.toNat ∈ List.range' 1 ids.length := by
      rw [← catalogued.consecutive]
      exact List.mem_map_of_mem (catalogued.keyed ▸ member)
    rw [List.mem_range'_1] at counted
    have issued := catalogued.issued
    omega

/-- An id was given out exactly if it is one of those on record. -/
theorem Catalogued.wasIssued_iff (catalogued : service.Catalogued ids) (id : ScanId) :
    service.roster.wasIssued id = true ↔ id ∈ ids := by
  have counted : id ∈ ids ↔ id.toNat ∈ List.range' 1 ids.length := by
    rw [← catalogued.consecutive, List.mem_map_of_injective fun _ _ => UInt32.toNat_inj.mp]
  rw [counted, List.mem_range'_1, ← catalogued.issued, Roster.wasIssued, Bool.and_eq_true,
    decide_eq_true_eq, decide_eq_true_eq, UInt32.le_iff_toNat_le, Ne, ← UInt32.toNat_inj]
  have zero : (0 : UInt32).toNat = 0 := rfl
  omega

theorem Catalogued.scan?_eq_none_iff (catalogued : service.Catalogued ids) (id : ScanId) :
    service.scan? id = none ↔ id ∉ ids := by
  unfold scan?
  rw [List.lookup_eq_none_iff, ← catalogued.keyed]
  simp only [bne_iff_ne, ne_eq, List.mem_map, not_exists, not_and]
  constructor
  · exact fun apart entry member same => apart entry member same.symm
  · exact fun apart entry member same => apart entry member same.symm

/-- A section on one scan keeps the catalog if it puts nothing on the roster. -/
theorem Catalogued.touched (catalogued : service.Catalogued ids) (touched : service.Touches id after)
    (wanes : ∀ other, after.roster.isLive other = true → service.roster.isLive other = true) :
    after.Catalogued ids where
  keyed := touched.ids.trans catalogued.keyed
  issued := touched.issued ▸ catalogued.issued
  consecutive := catalogued.consecutive
  rostered other live := catalogued.rostered other (wanes other live)

theorem Catalogued.unlisted (catalogued : service.Catalogued ids) (touched : service.Touches id after)
    (same : after.roster = service.roster) : after.Catalogued ids :=
  catalogued.touched touched fun other live => by rwa [same] at live

theorem Catalogued.withdraw (catalogued : service.Catalogued ids) (id : ScanId) :
    (service.withdraw id).Catalogued ids :=
  catalogued.touched (withdraw_touches id service) fun other live => by
    simp only [Service.withdraw, Roster.isLive_deregister, Bool.and_eq_true] at live
    exact live.1

theorem catalogued_kept [Engine σ ι] (ids : List ScanId) :
    Kept fun service : Service σ ι => service.Catalogued ids :=
  .of_change fun id before _ change catalogued => by
    have touched := change.touches
    cases change with
    | count | pass | move => exact catalogued.unlisted touched rfl
    | withdraw => exact catalogued.withdraw id

variable [Engine σ ι] {options : ScanOptions}

theorem Catalogued.toNat_create (catalogued : service.Catalogued ids) (room : ids.length + 1 < 2 ^ 32)
    (opened : service.create options = (.ok id, after)) : id.toNat = ids.length + 1 := by
  obtain ⟨_, -, rfl, -⟩ := create_ok opened
  rw [catalogued.numbered.toNat_next room, catalogued.issued]

theorem Catalogued.create (catalogued : service.Catalogued ids) (room : ids.length + 1 < 2 ^ 32)
    (opened : service.create options = (.ok id, after)) : after.Catalogued (ids ++ [id]) := by
  have next := catalogued.toNat_create room opened
  obtain ⟨_, -, same, scans, roster, -⟩ := create_ok opened
  refine ⟨?_, ?_, ?_, ?_⟩
  · rw [scans, List.map_append, catalogued.keyed]
    rfl
  · rw [roster, List.length_append]
    exact same ▸ next
  · rw [List.map_append, List.length_append, List.length_singleton, List.range'_concat,
      catalogued.consecutive, List.map_singleton, next, Nat.one_mul, Nat.add_comm]
  · intro other live
    rw [roster, Roster.isLive_register, Bool.or_eq_true, decide_eq_true_eq] at live
    rcases live with own | old
    · exact List.mem_append_right _ (List.mem_singleton.mpr own)
    · exact List.mem_append_left _ (catalogued.rostered other old)

end Service
end KeyScan
