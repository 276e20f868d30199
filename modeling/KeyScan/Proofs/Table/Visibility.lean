import Mathlib.Data.List.TakeWhile
import KeyScan.Proofs.Travel
import KeyScan.Table.Basic

namespace KeyScan

/-- A version of a key than which no other version at or below a sequence number is newer. -/
structure Version.IsNewest (version : Version) (versions : List Version) (key : Bytes)
    (sequence : Sequence) : Prop where
  member : version ∈ versions
  ofKey : version.stamp.key = key
  seen : version.stamp.sequence ≤ sequence
  newest : ∀ other ∈ versions, other.stamp.key = key → other.stamp.sequence ≤ sequence →
    other.stamp.sequence ≤ version.stamp.sequence

private theorem VersionKey.lt_mk_iff {stamp : VersionKey} {key : Bytes} {sequence : Sequence} :
    stamp < ⟨key, sequence⟩ ↔ stamp.key < key ∨ stamp.key = key ∧ sequence < stamp.sequence :=
  VersionKey.lt_iff

theorem VersionKey.lastOf_lt_iff {stamp : VersionKey} {key : Bytes} :
    VersionKey.lastOf key < stamp ↔ key < stamp.key := by
  rw [VersionKey.lt_iff]
  constructor
  · rintro (less | ⟨_, impossible⟩)
    · exact less
    · exact absurd impossible UInt64.not_lt_zero
  · exact .inl

theorem VersionKey.lt_firstOf_iff {stamp : VersionKey} {key : Bytes} :
    stamp < VersionKey.firstOf key ↔ stamp.key < key := by
  rw [VersionKey.lt_iff]
  constructor
  · rintro (less | ⟨_, impossible⟩)
    · exact less
    · exact absurd (UInt64.le_ofNat_iff (by decide) |>.mpr (Nat.le_of_lt_succ stamp.sequence.toNat_lt))
        (UInt64.not_le.mpr impossible)
  · exact .inl

namespace VersionTable

variable {table : VersionTable} {key : Bytes} {sequence : Sequence} {version : Version}

private theorem visible?_eq_find? :
    table.visible? key sequence =
      (table.versions.find? fun version => !decide (version.stamp < ⟨key, sequence⟩)).filter
        (Bound.included (.lastOf key)).covers := by
  rw [visible?, versionsFrom, ← List.find?_not_eq_head?_dropWhile]
  rfl

/-- Looking a key up finds its newest version at or below the number. -/
theorem visible?_eq_some_iff :
    table.visible? key sequence = some version ↔
      version.IsNewest table.versions key sequence := by
  rw [visible?_eq_find?, Option.filter_eq_some_iff, List.find?_eq_some_iff_append]
  simp only [Bool.not_eq_true', decide_eq_false_iff_not, Bound.covers, VersionKey.lastOf_lt_iff]
  constructor
  · rintro ⟨⟨reached, before, after, split, skipped⟩, within⟩
    have ordered := table.ordered
    rw [split, List.pairwise_append, List.pairwise_cons] at ordered
    have same : version.stamp.key = key := by grind [VersionKey.lt_mk_iff]
    refine ⟨split ▸ List.mem_append_right before List.mem_cons_self, same,
      by grind [VersionKey.lt_mk_iff], ?_⟩
    intro other member otherKey old
    rw [split, List.mem_append, List.mem_cons] at member
    rcases member with early | rfl | late
    · have passed := skipped other early
      grind [VersionKey.lt_mk_iff]
    · exact UInt64.le_refl _
    · have later := ordered.2.1.1 other late
      grind [VersionKey.lt_iff]
  · rintro ⟨member, same, seen, newest⟩
    obtain ⟨before, after, split⟩ := List.append_of_mem member
    have ordered := table.ordered
    rw [split, List.pairwise_append] at ordered
    refine ⟨⟨by grind [VersionKey.lt_mk_iff], before, after, split, ?_⟩, by grind⟩
    intro other early
    have earlier := ordered.2.2 other early version List.mem_cons_self
    have bound := newest other (split ▸ List.mem_append_left _ early)
    simp only [VersionKey.lt_mk_iff]
    grind [VersionKey.lt_iff]

/-- The value that a lookup finds at a number, unless there is none or it is deleted. -/
def valueAt? (table : VersionTable) (key : Bytes) (sequence : Sequence) : Option Bytes :=
  (table.visible? key sequence).bind Version.value

theorem valueAt?_eq_some_iff {value : Bytes} :
    table.valueAt? key sequence = some value ↔
      ∃ version : Version,
        version.IsNewest table.versions key sequence ∧ version.value = some value := by
  rw [valueAt?, Option.bind_eq_some_iff]
  simp only [visible?_eq_some_iff]

/-- What a version contributes to the live pairs: its own, if it is the one that is seen. -/
def livePair? (table : VersionTable) (sequence : Sequence) (version : Version) :
    Option (Bytes × Bytes) :=
  if table.visible? version.stamp.key sequence = some version then
    version.value.map fun value => (version.stamp.key, value)
  else none

theorem live_eq : table.live sequence = table.versions.filterMap (table.livePair? sequence) := rfl

theorem livePair?_eq_some_iff {pair : Bytes × Bytes} :
    table.livePair? sequence version = some pair ↔
      version.IsNewest table.versions pair.1 sequence ∧ version.value = some pair.2 := by
  unfold livePair?
  split
  · rename_i seen
    have newest := visible?_eq_some_iff.mp seen
    rw [Option.map_eq_some_iff]
    constructor
    · rintro ⟨value, present, rfl⟩
      exact ⟨newest, present⟩
    · rintro ⟨other, present⟩
      exact ⟨pair.2, present, Prod.ext other.ofKey rfl⟩
  · rename_i hidden
    simp only [reduceCtorEq, false_iff, not_and]
    intro newest
    exact absurd (visible?_eq_some_iff.mpr (newest.ofKey ▸ newest)) hidden

/-- The live pairs are those that lookups find. -/
theorem mem_live_iff {pair : Bytes × Bytes} :
    pair ∈ table.live sequence ↔ table.valueAt? pair.1 sequence = some pair.2 := by
  rw [live_eq, List.mem_filterMap, valueAt?_eq_some_iff]
  simp only [livePair?_eq_some_iff]
  constructor
  · rintro ⟨version, _, found⟩
    exact ⟨version, found⟩
  · rintro ⟨version, found⟩
    exact ⟨version, found.1.member, found⟩

theorem live_ascending (table : VersionTable) (sequence : Sequence) :
    Ascending (table.live sequence) := by
  refine List.Pairwise.filterMap _ ?_ table.ordered
  intro first second earlier one found two other
  have ⟨newest, _⟩ := livePair?_eq_some_iff.mp found
  have ⟨also, _⟩ := livePair?_eq_some_iff.mp other
  rcases VersionKey.lt_iff.mp earlier with less | ⟨same, newer⟩
  · rwa [newest.ofKey, also.ofKey] at less
  · have bound := also.newest first newest.member (same.trans also.ofKey) newest.seen
    exact absurd newer (UInt64.not_lt.mpr bound)

theorem live_length_le (table : VersionTable) (sequence : Sequence) :
    (table.live sequence).length ≤ table.size :=
  List.length_filterMap_le _ _

end VersionTable

private theorem Version.mem_place_iff {version other : Version} {versions : List Version}
    (ordered : versions.Pairwise fun a b => a.stamp < b.stamp) :
    other ∈ version.place versions ↔
      other = version ∨ other ∈ versions ∧ other.stamp ≠ version.stamp := by
  induction versions with
  | nil => simp [place]
  | cons head rest ih =>
    obtain ⟨least, tail⟩ := List.pairwise_cons.mp ordered
    have apart (a b : Version) (less : a.stamp < b.stamp) : a.stamp ≠ b.stamp := by
      intro same
      exact VersionKey.lt_irrefl b.stamp (same ▸ less)
    simp only [place]
    split
    · rename_i less
      have later : ∀ a ∈ head :: rest, a.stamp ≠ version.stamp := by
        intro a member
        rcases List.mem_cons.mp member with rfl | member
        · exact (apart version a less).symm
        · exact (apart version a (VersionKey.lt_trans less (least a member))).symm
      rw [List.mem_cons]
      constructor
      · exact Or.imp_right fun member => ⟨member, later other member⟩
      · exact Or.imp_right And.left
    · split
      · rename_i same
        have later : ∀ a ∈ rest, a.stamp ≠ version.stamp :=
          fun a member => same ▸ (apart head a (least a member)).symm
        grind
      · rename_i different
        rw [List.mem_cons, ih tail]
        grind

namespace VersionTable

variable {table : VersionTable} {version : Version} {sequence : Sequence}

theorem mem_write_iff {other : Version} :
    other ∈ (table.write version).versions ↔
      other = version ∨ other ∈ table.versions ∧ other.stamp ≠ version.stamp :=
  Version.mem_place_iff table.ordered

/-- A reader does not see a write above its number. -/
theorem live_write_of_lt (later : sequence < version.stamp.sequence) :
    (table.write version).live sequence = table.live sequence := by
  refine (live_ascending _ _).ext (live_ascending _ _) ?_
  intro pair
  have unseen (other : Version) (old : other.stamp.sequence ≤ sequence) :
      other ∈ (table.write version).versions ↔ other ∈ table.versions := by
    rw [mem_write_iff]
    grind
  rw [mem_live_iff, mem_live_iff, valueAt?_eq_some_iff, valueAt?_eq_some_iff]
  constructor
  · rintro ⟨found, newest, present⟩
    refine ⟨found, ⟨(unseen found newest.seen).mp newest.member, newest.ofKey, newest.seen, ?_⟩,
      present⟩
    intro other member same old
    exact newest.newest other ((unseen other old).mpr member) same old
  · rintro ⟨found, newest, present⟩
    refine ⟨found, ⟨(unseen found newest.seen).mpr newest.member, newest.ofKey, newest.seen, ?_⟩,
      present⟩
    intro other member same old
    exact newest.newest other ((unseen other old).mp member) same old

/-- A write above all others is what a lookup of its key finds; other keys keep their values. -/
theorem valueAt?_write_newest (version : Version) (key : Bytes) {least : Sequence}
    (all : ∀ other ∈ table.versions, other.stamp.sequence ≤ least)
    (above : least < version.stamp.sequence) :
    (table.write version).valueAt? key version.stamp.sequence =
      if version.stamp.key = key then version.value else table.valueAt? key least := by
  have placed : version ∈ (table.write version).versions := mem_write_iff.mpr (.inl rfl)
  ext value
  rw [valueAt?_eq_some_iff]
  by_cases same : version.stamp.key = key
  · simp only [same, ↓reduceIte]
    have newest : version.IsNewest (table.write version).versions key version.stamp.sequence :=
      ⟨placed, same, UInt64.le_refl _, fun other _ _ old => old⟩
    constructor
    · rintro ⟨found, other, present⟩
      have both := visible?_eq_some_iff.mpr newest
      rw [visible?_eq_some_iff.mpr other] at both
      exact Option.some.inj both ▸ present
    · exact fun present => ⟨version, newest, present⟩
  · simp only [same, ↓reduceIte, valueAt?_eq_some_iff]
    have unchanged (other : Version) (ofKey : other.stamp.key = key) :
        other ∈ (table.write version).versions ↔ other ∈ table.versions := by
      rw [mem_write_iff]
      grind
    constructor
    · rintro ⟨found, newest, present⟩
      have member := (unchanged found newest.ofKey).mp newest.member
      refine ⟨found, ⟨member, newest.ofKey, all found member, ?_⟩, present⟩
      intro other held otherKey _
      exact newest.newest other ((unchanged other otherKey).mpr held) otherKey
        (by have := all other held; grind)
    · rintro ⟨found, newest, present⟩
      refine ⟨found, ⟨(unchanged found newest.ofKey).mpr newest.member, newest.ofKey,
        by have := newest.seen; grind, ?_⟩, present⟩
      intro other held otherKey _
      have member := (unchanged other otherKey).mp held
      exact newest.newest other member otherKey (all other member)

end VersionTable
end KeyScan
